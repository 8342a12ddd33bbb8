import ScreenScript.Proofs.Except
import ScreenScript.Proofs.Run.Visits
import ScreenScript.Proofs.Search.Deadline

/-!
# How many attempts are told

A search takes one capture in each attempt and counts its attempts in a word of 32 bits, so what it tells is
the number of its captures modulo 2³². Where sleeping takes at least as long as was asked for, there are no
more of them than intervals begin before the timeout (`Search.exists_counted_of_run`). So a policy with fewer
than 2³² of these has its captures told as they are, by searches and by visits that time out. With any other
policy it is not: on a screen that stays dark, a search uses up all of its intervals (`Reel.exists_run_missed`),
and the count comes round (`Policy.countsCaptures_iff`).
-/

namespace ScreenScript

open Attempt (cases_of_on_bind failsIn_bind failsIn_modify)
open Recorded (captures captures_append)

variable {σ : Type}

/-! ## Searches -/

namespace Search

variable {w : Surroundings σ} {time : σ → Nat} {template : Template} {policy : Policy} {started : Nat}
  {attempts : UInt32} {s t : Search (Recorded σ)} {own base : List (Call × σ)} {outcome : Outcome}

structure Paced (time : σ → Nat) (policy : Policy) (started : Nat) (own : List (Call × σ))
    (s : Search (Recorded σ)) : Prop where
  paced : started + (captures own).length * policy.interval ≤ time s.world.world
  few : (captures own).length < policy.maxRounds

theorem Rounded.paced (sleeps : w.SleepsFully time) (paced : Paced time policy started own s)
    {own' : List (Call × σ)} (captured : captures own' = s.world.world :: captures own)
    (h : Rounded w template policy started attempts s t (.ok none)) :
    Paced time policy started own' t := by
  obtain ⟨slept, early⟩ := h.interval_le sleeps
  have before := paced.paced
  have after : started + (captures own').length * policy.interval ≤ time t.world.world := by
    rw [captured, List.length_cons, Nat.add_mul]
    omega
  exact ⟨after, (policy.lt_maxRounds_iff _).2 (by omega)⟩

theorem exists_counted_of_pollUntil {w : World σ} (sleeps : w.SleepsFully time)
    (counted : Counted base attempts own s) (paced : Paced time policy started own s)
    (h : pollUntil w.recorded template policy started attempts s = (.ok outcome, t)) :
    ∃ own', Counted base outcome.attempts own' t ∧ (captures own').length ≤ policy.maxRounds := by
  fun_induction pollUntil w.recorded template policy started attempts s generalizing own with
  | case1 => cases h
  | case2 attempts s outcome' after made =>
      cases h
      have made := rounded made
      obtain ⟨own', counted, captured⟩ := made.counted counted
      refine ⟨own', made.attempts_eq ▸ counted, ?_⟩
      rw [captured, List.length_cons]
      exact paced.few
  | case3 attempts s after made ih =>
      have made := rounded made
      obtain ⟨own', counted, captured⟩ := made.counted counted
      exact ih counted (made.paced sleeps paced captured) h

theorem exists_counted_of_run {w : World σ} (sleeps : w.SleepsFully time)
    (h : (run w.recorded template policy).on s = (.ok outcome, t)) :
    ∃ own, Counted s.world.calls outcome.attempts own t ∧ (captures own).length ≤ policy.maxRounds := by
  obtain ⟨started, first, read, h⟩ := Attempt.on_bind_eq_ok.1 h
  obtain ⟨world, reading, rfl⟩ := exists_of_recorded_clock read
  obtain ⟨rfl, -⟩ := sleeps.read reading
  let first : Search (Recorded σ) := { s with world := s.world.after .now world }
  have counted : Counted s.world.calls 0 [(.now, s.world.world)] first := ⟨rfl, rfl, rfl⟩
  have paced : Paced time policy (time world) [(.now, s.world.world)] first := by
    refine ⟨?_, Nat.pos_of_ne_zero policy.maxRounds_ne_zero⟩
    change time world + 0 * policy.interval ≤ time world
    rw [Nat.zero_mul, Nat.add_zero]
  exact exists_counted_of_pollUntil sleeps counted paced h

theorem Counted.toNat_eq (counted : Counted base attempts own s) (few : (captures own).length < 2 ^ 32) :
    attempts.toNat = (captures own).length := by
  rw [counted.attempts_eq]
  exact UInt32.toNat_ofNat_of_lt' few

end Search

/-! ## Visits -/

namespace Session

variable {w : World σ} {time : σ → Nat} {target : Target} {place : Place} {bestEffort : Bool}
  {event : Point → InputEvent} {id : String} {outcome : Search.Outcome} {s t : Session (Recorded σ)}

theorem interrupts_or_timeout {failure : Failure}
    (h : (visit w.recorded place target bestEffort event).on s = (.error failure, t)) :
    w.Interrupts t.world.calls failure ∨ ∃ id outcome,
      (locate w.recorded target).on s = (.ok (id, outcome), t) ∧
        failure = .matchTimeout id outcome.result.score outcome.result.threshold outcome.attempts
          (Duration.milliseconds target.policy.timeout) := by
  obtain ⟨failure, same, failed⟩ | ⟨⟨id, outcome⟩, s₁, found, h⟩ := cases_of_on_bind h
  · cases same
    exact .inl (completes_locate target s failure t failed)
  · cases location : outcome.result.location with
    | some raw =>
        simp only [location] at h
        refine .inl (failsIn_bind (completes_call .logicalSize) (fun size => ?_) s₁ failure t h)
        exact failsIn_bind (failsIn_modify _) fun _ => completes_act _
    | none =>
        simp only [location] at h
        cases bestEffort with
        | true => cases h
        | false =>
            cases h
            exact .inr ⟨id, outcome, found, rfl⟩

theorem on_visit_of_missed {s t : Session σ}
    (located : (locate w target).on s = (.ok (id, outcome), t)) (missed : outcome.result.location = none) :
    (visit w place target false event).on s =
      (.error (.matchTimeout id outcome.result.score outcome.result.threshold outcome.attempts
        (Duration.milliseconds target.policy.timeout)), t) := by
  rw [visit, Attempt.on_bind, located]
  simp only [missed]
  rfl

theorem counted_of_locate (sleeps : w.SleepsFully time) (few : target.policy.maxRounds < 2 ^ 32)
    (fresh : s.world.calls = []) (h : (locate w.recorded target).on s = (.ok (id, outcome), t)) :
    outcome.attempts.toNat = (captures t.world.calls).length := by
  obtain ⟨template, before, u, v, sought, ran, left⟩ := exists_sought h
  obtain ⟨own, counted, le⟩ := Search.exists_counted_of_run sleeps ran
  rw [counted.toNat_eq (Nat.lt_of_le_of_lt le few), left, counted.calls, sought.calls, fresh,
    List.append_nil, captures_append, sought.captures_eq, List.append_nil]

end Session

/-! ## Policies -/

def Failure.attempts? : Failure → Option UInt32
  | matchTimeout _ _ _ attempts _ => some attempts
  | _ => none

theorem Failure.code_of_attempts? {failure : Failure} {attempts : UInt32}
    (h : failure.attempts? = some attempts) : failure.code = .matchTimeout := by
  cases failure with
  | matchTimeout => rfl
  | _ => cases h

/--
Whether the attempts that are told are the captures that were taken, wherever sleeping takes at least as long
as was asked for: by every search with a policy that comes to an outcome, and by every visit to a target with
it that times out on its own, in any run.
-/
structure Policy.CountsCaptures (policy : Policy) : Prop where
  outcomes : ∀ {σ : Type} {w : World σ} {time : σ → Nat}, w.SleepsFully time →
    ∀ template s outcome t, (Search.run w.recorded template policy).on s = (.ok outcome, t) →
      ∃ own, t.world.calls = own ++ s.world.calls ∧ outcome.attempts.toNat = (captures own).length
  timeouts : ∀ {σ : Type} {w : World σ} {time : σ → Nat}, w.SleepsFully time →
    ∀ program s place action target bestEffort event,
      action.visit? = some (target, bestEffort, event) → target.policy = policy →
        Machine.Steps w program s (.act place action) fun own result =>
          ∀ failure attempts, result = .error failure → failure.attempts? = some attempts →
            attempts.toNat = (captures own).length ∨
              ∃ call state earlier, own = (call, state) :: earlier ∧ w.Raises failure call state

namespace Policy

variable {policy : Policy}

theorem countsCaptures_of_lt (few : policy.maxRounds < 2 ^ 32) : policy.CountsCaptures where
  outcomes sleeps template s outcome t ran := by
    obtain ⟨own, counted, le⟩ := Search.exists_counted_of_run sleeps ran
    exact ⟨own, counted.calls, counted.toNat_eq (Nat.lt_of_le_of_lt le few)⟩
  timeouts sleeps program s place action target bestEffort event visits same := by
    subst same
    refine Machine.steps_of_fresh fun t u result _ fresh made failure attempts failed told => ?_
    subst failed
    rw [Session.step, Session.perform_eq_visit visits, Attempt.on_map] at made
    rcases visited : (Session.visit _ place target bestEffort event).on t with ⟨result, after⟩
    rw [visited] at made
    cases result with
    | ok => cases made
    | error failure =>
        cases made
        rcases Session.interrupts_or_timeout visited with interrupts | ⟨_, outcome, found, rfl⟩
        · exact .inr (interrupts.exists_raised (Failure.code_of_attempts? told))
        · cases told
          exact .inl (Session.counted_of_locate sleeps few fresh found)

end Policy

/-! ## Dark screens -/

namespace Reel

section

variable (reel : Reel) (template : Template)

def stockedWorld : World Showing :=
  .onClock (reel.stocked template) (reel.stocked_keepsTime template)

theorem stocked_sleepsFully : (reel.stocked template).SleepsFully fun s => s.clock.now where
  toKeepsTime := reel.stocked_keepsTime template
  le_sleep _ _ complete := (reel.now_sleep complete).ge

theorem shows_stocked : reel.Shows (· ≤ Duration.longest) (reel.stocked template) :=
  { reel.shows_surroundings with }

def unending : Surroundings Showing :=
  { reel.surroundings with
    sleep nanoseconds s := (true, { s with clock.now := s.clock.now + nanoseconds }) }

theorem unending_sleepsFully : reel.unending.SleepsFully fun s => s.clock.now where
  now_eq _ := rfl
  le_now _ := Nat.le_refl _
  le_capture _ := Nat.le_refl _
  le_logicalSize _ := Nat.le_refl _
  lt_sleep _ _ positive _ := Nat.lt_add_of_pos_right positive
  le_sleep _ _ _ := Nat.le_refl _

def unendingWorld : World Showing :=
  .onClock reel.unending reel.unending_sleepsFully.toKeepsTime

theorem shows_unending : reel.Shows (fun _ => True) reel.unending where
  capture := rfl
  logicalSize := rfl
  now := rfl
  aborted := rfl
  captures_sleep _ _ := rfl
  sleep _ _ _ _ := rfl

end

variable {reel : Reel} {tells : Nat → Prop} {scales : Nat → Scale} {template : Template}
  {s : Search (Recorded Showing)} {started : Nat} {w : World Showing}

structure Tallied (t : Search (Recorded Showing)) (s : Search Showing) : Prop where
  project_eq : t.project Recorded.world = s
  captures_eq : (captures t.world.calls).length = t.world.world.captures

theorem accord_recorded (shows : reel.Shows tells w.toSurroundings) :
    Search.Accord w.recorded.toSurroundings w.toSurroundings Tallied where
  aborted := by
    rintro t _ ⟨rfl, -⟩
    rfl
  cache := by
    rintro t _ ⟨rfl, -⟩
    rfl
  remember := by
    rintro t _ cache ⟨rfl, counted⟩ -
    exact ⟨rfl, counted⟩
  note entry _ := by
    rintro t _ ⟨rfl, counted⟩
    exact ⟨rfl, rfl, counted⟩
  capture := by
    rintro t _ ⟨⟨rfl, counted⟩, -⟩
    have shown : (w.capture.on t.world.world).2.captures = t.world.world.captures + 1 := by
      rw [shows.capture]
      rfl
    exact ⟨rfl, rfl, (congrArg Nat.succ counted).trans shown.symm⟩
  logicalSize := by
    rintro t _ ⟨rfl, counted⟩
    have still : (w.logicalSize.on t.world.world).2.captures = t.world.world.captures := by
      rw [shows.logicalSize]
      rfl
    exact ⟨rfl, rfl, counted.trans still.symm⟩
  sleep nanoseconds := by
    rintro t _ ⟨rfl, counted⟩
    exact ⟨rfl, rfl, counted.trans (shows.captures_sleep nanoseconds t.world.world).symm⟩
  now := by
    rintro t _ ⟨rfl, counted⟩
    have still : (w.now t.world.world).2.captures = t.world.world.captures := by
      rw [shows.now]
      rfl
    exact ⟨rfl, rfl, counted.trans still.symm⟩

theorem exists_run_missed (shows : reel.Shows tells w.toSurroundings)
    (sleeps : w.SleepsFully fun s => s.clock.now) (policy : Policy) (resolves : reel.Resolves scales)
    (missed : ∀ n, 0 < n → (reel.look scales template n).found = false)
    (start : At 0 started (s.project Recorded.world)) (fresh : captures s.world.calls = [])
    (fits : ∀ n, 0 < n → n ≤ policy.maxRounds → tells (started + n * policy.interval)) :
    ∃ outcome own t, (Search.run w.recorded template policy).on s = (.ok outcome, t) ∧
      outcome.result.location = none ∧ Search.Counted s.world.calls outcome.attempts own t ∧
      (captures own).length = policy.maxRounds := by
  have none : s.world.world.captures = 0 := congrArg Showing.captures start.world
  obtain ⟨outcome, t, ran, result, -, -, left⟩ := takes_missed shows resolves start
    (fun n positive _ => missed (0 + n) (by omega)) fits
  obtain ⟨t', ran', rfl, counted⟩ := ((accord_recorded shows).agrees_run template policy).exists_on
    ⟨rfl, by rw [fresh, none, List.length_nil]⟩ ran
  obtain ⟨own, calls, -⟩ := Search.exists_counted_of_run sleeps ran'
  have taken : t'.world.world.captures = policy.maxRounds := by
    have shown := congrArg Showing.captures left
    change t'.world.world.captures = s.world.world.captures + policy.maxRounds at shown
    rw [shown, none, Nat.zero_add]
  refine ⟨outcome, own, t', ran', ?_, calls, ?_⟩
  · have some : 0 < s.world.world.captures + policy.maxRounds :=
      Nat.add_pos_right _ (Nat.pos_of_ne_zero policy.maxRounds_ne_zero)
    have nowhere := Template.isSome_location_find template
      (reel.frames (s.world.world.captures + policy.maxRounds))
      (scales (s.world.world.captures + policy.maxRounds))
    rw [result]
    exact Option.not_isSome_iff_eq_none.1 (Bool.eq_false_iff.1 (nowhere.trans (missed _ some)))
  · rw [← taken, ← counted, calls.calls, captures_append, fresh, List.append_nil]

def dark : Reel :=
  { late with frames := fun _ => late.frames 1 }

theorem resolves_dark : dark.Resolves lateScale :=
  fun _ _ => resolves_late 1 Nat.one_pos

theorem missed_dark (n : Nat) : (dark.look lateScale squares n).found = false := by
  have frame : dark.frames n = late.frames 1 := rfl
  have scale : lateScale n = lateScale 1 := rfl
  rw [look, frame, scale]
  decide +kernel

def clicksWithin (policy : Policy) : Instruction :=
  .act ⟨0, 1⟩ (.click ⟨⟨[.literal "squares"]⟩, policy⟩ false)

end Reel

/-! ## Visits on a dark screen -/

namespace Session

open Reel (clicksWithin dark idle squares)

variable {policy : Policy}

theorem exists_step_dark {s : Session (Recorded Reel.Showing)} {now : Nat} (sound : s.Sound)
    (start : s.world.world = { clock := { now } }) (fresh : captures s.world.calls = [])
    (fits : now + policy.maxRounds * policy.interval ≤ Duration.longest) :
    ∃ failure t,
      (step (dark.stockedWorld squares).recorded (clicksWithin policy)).on s = (.error failure, t) ∧
      failure.attempts? = some (UInt32.ofNat policy.maxRounds) ∧
      (captures t.world.calls).length = policy.maxRounds := by
  let w := (dark.stockedWorld squares).recorded
  let loaded := s.inWorld (s.world.after (.template "squares") s.world.world)
  let ready := loaded.changed .matching
  have unchanged : ready.search.world = loaded.world := world_changed loaded .matching
  have silent : captures ready.search.world.calls = [] := by
    rw [unchanged]
    exact fresh
  have before : Reel.At 0 now (ready.search.project Recorded.world) := by
    refine ⟨?_, ?_⟩
    · change ready.search.world.world = _
      rw [unchanged]
      exact start
    · have kept : loaded.Sound := sound
      exact kept.changed .matching
  obtain ⟨outcome, own, t, ran, missed, counted, length⟩ := Reel.exists_run_missed
    (w := dark.stockedWorld squares) (dark.shows_stocked squares) (dark.stocked_sleepsFully squares)
    policy Reel.resolves_dark (fun n _ => Reel.missed_dark n) before silent (Reel.le_longest fits)
  let given : Session (Recorded Reel.Showing) := { ready with search := t }
  have located : (locate w ⟨⟨[.literal "squares"]⟩, policy⟩).on s =
      (.ok ("squares", outcome), given.changed .running) :=
    on_locate rfl rfl ran
  refine ⟨.matchTimeout "squares" outcome.result.score outcome.result.threshold outcome.attempts
    (Duration.milliseconds policy.timeout), given.changed .running, ?_, ?_, ?_⟩
  · rw [clicksWithin, step, perform, Attempt.on_map, on_visit_of_missed located missed]
    rfl
  · rw [Failure.attempts?, counted.attempts_eq, length]
  · rw [world_changed]
    change (captures t.world.calls).length = _
    rw [counted.calls, captures_append, silent, List.append_nil, length]

theorem exists_execute_dark {program : Program} (clicks : program.instructions = [clicksWithin policy])
    (fits : policy.maxRounds * policy.interval ≤ Duration.longest) :
    let ran := idle.recorded.execute (dark.stockedWorld squares).recorded program
    ∃ f, ran.1.failure = some f ∧ f.failure.attempts? = some (UInt32.ofNat policy.maxRounds) ∧
      (captures ran.2.session.world.calls).length = policy.maxRounds := by
  intro ran
  let w := (dark.stockedWorld squares).recorded
  let start := idle.recorded.launch w program
  obtain ⟨failure, t, failed, told, taken⟩ := @exists_step_dark policy
    (start.dispatched (clicksWithin policy)) 0 (Scale.Cache.sound_invalidate {}) rfl rfl
    ((Nat.zero_add _).trans_le fits)
  have frames : start.frames = [{ body := [clicksWithin policy] }] :=
    congrArg (fun body => [({ body } : Frame)]) clicks
  have ended : start.run w = (.stopped (some (clicksWithin policy)) failure, ⟨t, [], 1⟩) := by
    rw [Machine.run_eq, Machine.next_of_moves (.failed rfl frames rfl failed fun _ => rfl)]
    rfl
  have other : failure ≠ .aborted := by
    rintro rfl
    cases told
  have settled : idle.recorded.settled w program =
      ((t.changed .failed).noted (.runFailed 0 1 failure), some ⟨0, 1, "click", failure⟩) := by
    rw [settled, ended]
    exact settle_of_ne_aborted other _ t
  refine ⟨⟨0, 1, "click", failure⟩, ?_, told, ?_⟩
  · exact congrArg Prod.snd settled
  · change (captures (idle.recorded.settled w program).1.world.calls).length = _
    rw [settled, world_noted, world_changed]
    exact taken

end Session

namespace Policy

variable (policy : Policy)

/--
Attempts are told as they are for the policies with which fewer than 2³² intervals begin before the timeout,
and for no other.
-/
theorem countsCaptures_iff : policy.CountsCaptures ↔ policy.timeout ≤ (2 ^ 32 - 1) * policy.interval := by
  rw [← policy.maxRounds_le_iff]
  constructor
  · -- On a dark screen all rounds are made, and what is told of them is a word.
    intro counts
    let start : Search (Recorded Reel.Showing) := { world := { world := {} } }
    obtain ⟨outcome, own, t, ran, -, counted, length⟩ := Reel.exists_run_missed
      (w := Reel.dark.unendingWorld) (s := start) Reel.dark.shows_unending Reel.dark.unending_sleepsFully
      policy Reel.resolves_dark (fun n _ => Reel.missed_dark n) ⟨rfl, Scale.Cache.sound_empty⟩ rfl
      fun _ _ _ => trivial
    obtain ⟨own', calls, told⟩ := counts.outcomes Reel.dark.unending_sleepsFully _ _ _ _ ran
    have same : own' = own := List.append_cancel_right (calls.symm.trans counted.calls)
    have word := outcome.attempts.toNat_lt
    rw [told, same, length] at word
    exact Nat.le_sub_one_of_lt word
  · intro few
    exact countsCaptures_of_lt (by omega)

end Policy

namespace Program

variable {p : Program} {place : Place} {template : Phrase} {timeout interval : Nat} {bestEffort : Bool}

def click? (p : Program) : Option (Place × Phrase × Nat × Nat × Bool) :=
  match p.instructions with
  | [.act place (.click target bestEffort)] =>
    some (place, target.template, target.policy.timeout, target.policy.interval, bestEffort)
  | _ => none

theorem instructions_of_click? (h : p.click? = some (place, template, timeout, interval, bestEffort)) :
    ∃ positive shorter, p.instructions =
      [.act place (.click ⟨template, timeout, interval, positive, shorter⟩ bestEffort)] := by
  unfold click? at h
  split at h
  · rename_i target _ single
    cases h
    exact ⟨target.policy.interval_pos, target.policy.interval_lt_timeout, single⟩
  · cases h

def impatient : String :=
  "click squares timeout=4.294967296s interval=0.000001ms"

theorem exists_execute_impatient :
    let ran (program : Program) :=
      Reel.idle.recorded.execute (Reel.dark.stockedWorld Reel.squares).recorded program
    ∃ program f, parse impatient = .ok program ∧ (ran program).1.failure = some f ∧
      f.failure.attempts? = some 0 ∧
      (captures (ran program).2.session.world.calls).length = 2 ^ 32 := by
  have read : (parse impatient).toOption.bind click? =
      some (⟨0, 1⟩, ⟨[.literal "squares"]⟩, 2 ^ 32, 1, false) := by
    decide +kernel
  obtain ⟨program, parsed, single⟩ := Option.bind_eq_some_iff.1 read
  obtain ⟨positive, shorter, clicks⟩ := instructions_of_click? single
  let policy : Policy := ⟨2 ^ 32, 1, positive, shorter⟩
  have rounds : policy.maxRounds = 2 ^ 32 := by
    change 2 ^ 32 ⌈/⌉ 1 = 2 ^ 32
    exact ceilDiv_one _
  have fits : policy.maxRounds * policy.interval ≤ Duration.longest := by
    rw [rounds]
    change 2 ^ 32 * 1 ≤ Duration.longest
    decide
  obtain ⟨f, failed, told, taken⟩ := @Session.exists_execute_dark policy program clicks fits
  rw [rounds] at told taken
  exact ⟨program, f, Except.toOption_eq_some_iff.1 parsed, failed, told, taken⟩

/-- All of 2³² captures are taken, and the report tells no attempt. -/
theorem exists_miscounted :
    let w := Reel.dark.stockedWorld Reel.squares
    ∃ program f, parse impatient = .ok program ∧
      (Reel.idle.execute w program).1.failure = some f ∧ f.failure.attempts? = some 0 ∧
      (captures (Reel.idle.recorded.execute w.recorded program).2.session.world.calls).length = 2 ^ 32 := by
  intro w
  obtain ⟨program, f, parsed, failed, told, taken⟩ := exists_execute_impatient
  refine ⟨program, f, parsed, ?_, told, taken⟩
  rw [Session.execute_recorded]
  exact failed

/-- A click times out without an attempt. -/
theorem exists_unattempted :
    ∃ program f, parse impatient = .ok program ∧
      (Reel.idle.execute (Reel.dark.stockedWorld Reel.squares) program).1.failure = some f ∧
      f.failure.code = .matchTimeout ∧ f.failure.attempts? = some 0 := by
  obtain ⟨program, f, parsed, failed, told, -⟩ := exists_execute_impatient
  refine ⟨program, f, parsed, ?_, Failure.code_of_attempts? told, told⟩
  rw [Session.execute_recorded]
  exact failed

end Program

end ScreenScript
