import ScreenScript.Proofs.Match.Outcome
import ScreenScript.Proofs.Run.Dispatches
import ScreenScript.Proofs.Run.Interruptions
import ScreenScript.Proofs.Run.Scales

/-!
# Visits to targets

A click or a hover looks for its target, and then one of three things happens (`Session.Visited`): it
sends one input to the middle of what the last capture has shown, or it does nothing and gives up unless
the target may be missing, or something interrupts it. What a search comes to is told by its calls
(`Search.exists_seen_of_run`), and from them follows what a visit comes to (`Session.visited_of_step`) in
every run (`Session.execute_visits`).
-/

namespace ScreenScript

open Attempt (Keeps cases_of_on_bind keeps_bind)
open Recorded (captures captures_append inputs inputs_append)

variable {σ α : Type}

/-- Whether the sides of all captures are words of 32 bits. -/
def Surroundings.SizedInWords (w : Surroundings σ) : Prop :=
  ∀ s capture t, w.capture.on s = (.ok capture, t) → capture.width < 2 ^ 32 ∧ capture.height < 2 ^ 32

/-! ## Searches -/

namespace Search

structure Seen (w : Surroundings σ) (template : Template) (capture : Picture) (own : List (Call × σ))
    (outcome : Outcome) : Prop where
  attempts_eq : outcome.attempts = UInt32.ofNat (captures own).length
  silent : inputs own = []
  last : ∃ state logical, (captures own).head? = some state ∧ w.Shows state capture logical ∧
    SeenIn template outcome capture logical

variable {w : Surroundings σ} {template : Template} {policy : Policy} {started : Nat}
  {attempts : UInt32} {s t : Search (Recorded σ)} {own base : List (Call × σ)}

structure Counted (base : List (Call × σ)) (attempts : UInt32) (own : List (Call × σ))
    (s : Search (Recorded σ)) : Prop where
  calls : s.world.calls = own ++ base
  attempts_eq : attempts = UInt32.ofNat (captures own).length
  silent : inputs own = []

theorem Rounded.exists_calls {outcome? : Option Outcome}
    (h : Rounded w template policy started attempts s t (.ok outcome?)) :
    ∃ own, t.world.calls = own ++ s.world.calls ∧ captures own = [s.world.world] ∧ inputs own = [] := by
  have made {seen : Match × Scale} {u : Search (Recorded σ)} (polled : Polled w template s u (.ok seen)) :
      ∃ captured, u.world.calls = [(.logicalSize, captured), (.capture, s.world.world)] ++ s.world.calls := by
    cases polled with
    | looked capturing measuring left observed => exact ⟨_, congrArg Recorded.calls left⟩
  cases h with
  | found polled found read left =>
      obtain ⟨captured, calls⟩ := made polled
      exact ⟨[(.now, _), (.logicalSize, captured), (.capture, s.world.world)],
        by rw [left, Recorded.after, calls]; rfl, rfl, rfl⟩
  | late polled missed slept read left | again polled missed slept read left =>
      obtain ⟨captured, calls⟩ := made polled
      exact ⟨[(.now, _), (.sleep policy.interval, _), (.logicalSize, captured),
        (.capture, s.world.world)], by rw [left, Recorded.after, Recorded.after, calls]; rfl, rfl, rfl⟩

theorem Rounded.counted {outcome? : Option Outcome} (counted : Counted base attempts own s)
    (h : Rounded w template policy started attempts s t (.ok outcome?)) :
    ∃ own', Counted base (attempts + 1) own' t ∧ captures own' = s.world.world :: captures own := by
  obtain ⟨new, calls, captured, silent⟩ := h.exists_calls
  refine ⟨new ++ own, ⟨?_, ?_, ?_⟩, ?_⟩
  · rw [calls, counted.calls, List.append_assoc]
  · rw [captures_append, captured, counted.attempts_eq, List.length_append, List.length_singleton,
      Nat.add_comm, UInt32.ofNat_add]
    rfl
  · rw [inputs_append, silent, counted.silent, List.append_nil]
  · rw [captures_append, captured, List.singleton_append]

theorem Rounded.attempts_eq {outcome : Outcome}
    (h : Rounded w template policy started attempts s t (.ok (some outcome))) :
    outcome.attempts = attempts + 1 := by
  cases h with
  | found | late => rfl

theorem Rounded.exists_seenIn (sound : s.cache.Sound) {outcome : Outcome}
    (h : Rounded w template policy started attempts s t (.ok (some outcome))) :
    ∃ capture logical, w.Shows s.world.world capture logical ∧
      SeenIn template outcome capture logical := by
  have made {result : Match} {scale : Scale} {u : Search (Recorded σ)} {elapsed : Nat}
      (polled : Polled w template s u (.ok (result, scale))) :
      ∃ capture logical, w.Shows s.world.world capture logical ∧
        SeenIn template ⟨result, scale, attempts + 1, elapsed⟩ capture logical := by
    cases polled with
    | looked capturing measuring left observed =>
        refine ⟨_, _, ⟨_, _, capturing, measuring⟩, ?_, rfl⟩
        rw [← Scale.Cache.observe_eq sound, observed]
        rfl
  cases h with
  | found polled | late polled => exact made polled

theorem exists_seen_of_pollUntil {w : World σ} {outcome : Outcome} (sound : s.cache.Sound)
    (counted : Counted base attempts own s)
    (h : pollUntil w.recorded template policy started attempts s = (.ok outcome, t)) :
    ∃ own' capture, t.world.calls = own' ++ base ∧
      Seen w.toSurroundings template capture own' outcome := by
  fun_induction pollUntil w.recorded template policy started attempts s generalizing own with
  | case1 => cases h
  | case2 attempts s outcome' after made =>
      cases h
      have made := rounded made
      obtain ⟨own', counted, captured⟩ := made.counted counted
      obtain ⟨capture, logical, shown, seen⟩ := made.exists_seenIn sound
      exact ⟨own', capture, counted.calls, made.attempts_eq.trans counted.attempts_eq, counted.silent,
        _, logical, by rw [captured, List.head?_cons], shown, seen⟩
  | case3 attempts s after made ih =>
      have again : Again w.recorded.toSurroundings template policy started (attempts + 1, after)
        (attempts, s) := ⟨rfl, made⟩
      obtain ⟨own', counted, -⟩ := (rounded made).counted counted
      exact ih (sound_of_again sound again) counted h

theorem exists_seen_of_run {w : World σ} {outcome : Outcome} (sound : s.cache.Sound)
    (h : (run w.recorded template policy).on s = (.ok outcome, t)) :
    ∃ own capture, t.world.calls = own ++ s.world.calls ∧
      Seen w.toSurroundings template capture own outcome := by
  obtain ⟨started, first, read, h⟩ := Attempt.on_bind_eq_ok.1 h
  obtain ⟨world, -, rfl⟩ := exists_of_recorded_clock read
  let first : Search (Recorded σ) := { s with world := s.world.after .now world }
  have counted : Counted s.world.calls 0 [(.now, s.world.world)] first := ⟨rfl, rfl, rfl⟩
  exact exists_seen_of_pollUntil (s := first) sound counted h

end Search

/-! ## Targets -/

inductive Instruction.Insists : Instruction → Prop where
  | intro {place : Place} {action : Action} {target : Target} {event : Point → InputEvent}
    (visits : action.visit? = some (target, false, event)) : Insists (.act place action)

/-- Whether the calls since some others are neither captures nor inputs. -/
def Recorded.Quiet (base : List (Call × σ)) (t : Recorded σ) : Prop :=
  ∃ own, t.calls = own ++ base ∧ captures own = [] ∧ inputs own = []

namespace Session

variable {w : World σ} {target : Target} {id : String} {outcome : Search.Outcome}
  {s t : Session (Recorded σ)} {base : List (Call × σ)}

theorem keeps_quiet_read (b : Backing σ) (name : String) :
    Keeps (fun s => s.world.Quiet base) (fun s => s.world.Quiet base)
      (onWorld (Recorded.attempt (.read name) (b.read name))) := by
  rintro s ⟨own, calls, captured, silent⟩
  exact ⟨(.read name, s.world.world) :: own, congrArg _ calls, captured, silent⟩

theorem keeps_quiet_lookup (name : String) :
    Keeps (fun s => s.world.Quiet base) (fun s => s.world.Quiet base) (lookup w.recorded name) := by
  have known (v : Variables) : Keeps (fun s => s.world.Quiet base) (fun s => s.world.Quiet base)
      (onWorld (ofExcept (v.default? name) : Attempt (Recorded σ) Value)) := by
    intro s quiet
    rw [onWorld_ofExcept, Attempt.on_ofExcept]
    exact quiet
  intro s quiet
  change ((onWorld (s.bindings.get (w.backing.map Recorded.backing) name)).on s).2.world.Quiet base
  unfold Variables.get
  cases s.bindings.bound.get? name with
  | some value => exact quiet
  | none =>
      cases w.backing with
      | none => exact known _ s quiet
      | some b =>
          simp only [Option.map_some, onWorld_bind]
          refine keeps_bind (keeps_quiet_read b name) (fun kept => ?_) (fun _ => id) s quiet
          cases kept with
          | some value => exact fun _ quiet => quiet
          | none => exact known _

theorem keeps_quiet_render (p : Phrase) :
    Keeps (fun s => s.world.Quiet base) (fun s => s.world.Quiet base) (render w.recorded p) := by
  refine (Phrase.agrees_render fun name _ => ?_).keeps
  exact Attempt.agrees_bind (keeps_quiet_lookup name).agrees (fun _ => Attempt.agrees_pure _)
    fun _ _ => id

structure Located (w : Surroundings σ) (id : String) (template : Template) (capture : Picture)
    (own : List (Call × σ)) (outcome : Search.Outcome) : Prop
    extends Search.Seen w template capture own outcome where
  loaded : ∃ state after, (.template id, state) ∈ own ∧ (w.template id).on state = (.ok template, after)

theorem exists_of_recorded_call {a : Attempt σ α} {call : Call} {result : Except Failure α}
    (h : (onWorld (Recorded.attempt call a)).on s = (result, t)) :
    ∃ world, a.on s.world.world = (result, world) ∧ t = s.inWorld (s.world.after call world) := by
  obtain ⟨same, left⟩ := Prod.mk.inj h
  exact ⟨(a.on s.world.world).2, Prod.ext same rfl, left.symm⟩

structure Sought (w : World σ) (target : Target) (id : String) (template : Template)
    (before : List (Call × σ)) (s : Session (Recorded σ)) (u : Search (Recorded σ)) : Prop where
  calls : u.world.calls = before ++ s.world.calls
  captures_eq : captures before = []
  silent : inputs before = []
  loaded : ∃ state after, (.template id, state) ∈ before ∧ (w.template id).on state = (.ok template, after)
  sound : s.Sound → u.cache.Sound

theorem exists_sought (h : (locate w.recorded target).on s = (.ok (id, outcome), t)) :
    ∃ template before u v, Sought w target id template before s u ∧
      (Search.run w.recorded template target.policy).on u = (.ok outcome, v) ∧ t.world = v.world := by
  obtain ⟨name, s₁, rendered, h⟩ := Attempt.on_bind_eq_ok.1 h
  obtain ⟨template, s₂, loaded, h⟩ := Attempt.on_bind_eq_ok.1 h
  obtain ⟨found, s₃, searched, h⟩ := Attempt.on_bind_eq_ok.1 h
  cases h
  have quiet := @keeps_quiet_render _ w s.world.calls target.template s ⟨[], rfl, rfl, rfl⟩
  have sound := (habit_sound w.recorded).keeps_render target.template s
  rw [rendered] at quiet sound
  obtain ⟨before, calls, captured, silent⟩ := quiet
  obtain ⟨world, loading, rfl⟩ := exists_of_recorded_call loaded
  obtain ⟨same, rfl⟩ := Prod.mk.inj searched
  let call : Call × σ := (.template id, s₁.world.world)
  let ready := s₁.inWorld (s₁.world.after (.template id) world)
  refine ⟨template, call :: before, (ready.changed .matching).search, _, ?_, Prod.ext same rfl,
    world_changed _ _⟩
  refine ⟨?_, captured, silent, ⟨_, world, List.mem_cons_self, loading⟩, fun start => ?_⟩
  · have unchanged : (ready.changed .matching).search.world = ready.world := world_changed ready .matching
    rw [unchanged, List.cons_append, ← calls]
    rfl
  · have kept : ready.Sound := sound start
    exact kept.changed .matching

theorem exists_located (sound : s.Sound)
    (h : (locate w.recorded target).on s = (.ok (id, outcome), t)) :
    ∃ own template capture, t.world.calls = own ++ s.world.calls ∧
      Located w.toSurroundings id template capture own outcome := by
  obtain ⟨template, before, u, v, sought, ran, left⟩ := exists_sought h
  obtain ⟨own, capture, calls, seen⟩ := Search.exists_seen_of_run (sought.sound sound) ran
  obtain ⟨state, after, member, loading⟩ := sought.loaded
  have captures_eq : captures (own ++ before) = captures own := by
    rw [captures_append, sought.captures_eq, List.append_nil]
  refine ⟨own ++ before, template, capture, ?_, ⟨?_, ?_, ?_⟩, ?_⟩
  · rw [left, calls, sought.calls, List.append_assoc]
  · rw [captures_eq]
    exact seen.attempts_eq
  · rw [inputs_append, seen.silent, sought.silent, List.append_nil]
  · rw [captures_eq]
    exact seen.last
  · exact ⟨state, after, List.mem_append_right _ member, loading⟩

theorem on_locate {w : World σ} {s u loaded : Session σ} {template : Template} {v : Search σ}
    (rendered : (render w target.template).on s = (.ok id, u))
    (loading : (onWorld (w.template id)).on u = (.ok template, loaded))
    (ran : (Search.run w template target.policy).on (loaded.changed .matching).search = (.ok outcome, v)) :
    (locate w target).on s = (.ok (id, outcome),
      ({ loaded.changed .matching with search := v } : Session σ).changed .running) := by
  have searched : (during .matching (onSearch (Search.run w template target.policy))).on loaded =
      (.ok outcome, ({ loaded.changed .matching with search := v } : Session σ).changed .running) := by
    change (((Search.run w template target.policy).on (loaded.changed .matching).search).1,
      ({ loaded.changed .matching with
        search := ((Search.run w template target.policy).on (loaded.changed .matching).search).2 } :
          Session σ).changed .running) = _
    rw [ran]
  exact Attempt.on_bind_eq_ok.2 ⟨id, u, rendered, Attempt.on_bind_eq_ok.2 ⟨template, loaded, loading,
    Attempt.on_bind_eq_ok.2 ⟨outcome, _, searched, rfl⟩⟩⟩

theorem exists_sent {event : InputEvent} (h : (act w.recorded event).on s = (.ok (), t)) :
    ∃ world, (w.input event).on s.world.world = (.ok (), world) ∧
      t.world = s.world.after (.input event) world := by
  obtain ⟨same, rfl⟩ := Prod.mk.inj h
  change ((w.input event).on (s.changed .acting).world.world).1 = .ok () at same
  refine ⟨((w.input event).on (s.changed .acting).world.world).2, ?_, ?_⟩
  · rw [world_changed] at same ⊢
    exact Prod.ext same rfl
  · rw [world_changed]
    change (s.changed .acting).world.after _ ((w.input event).on (s.changed .acting).world.world).2 = _
    rw [world_changed]

/-! ## Visits -/

inductive Visited (w : Surroundings σ) (target : Target) (bestEffort : Bool) (event : Point → InputEvent)
    (own : List (Call × σ)) : Except Failure Flow → Prop where
  /-- The input goes to the middle of what the last capture shows, as it is mapped to the screen. -/
  | acted {id : String} {template : Template} {capture : Picture} {outcome : Search.Outcome}
    {searching : List (Call × σ)} {raw : Point} {size : Size} {before start after : σ}
    (located : Located w id template capture searching outcome) (found : outcome.result.found = true)
    (finds : template.FindsAt capture outcome.scale raw)
    (measured : w.logicalSize.on before = (.ok size, start))
    (sent : (w.input (event (raw.onScreen outcome.scale size))).on start = (.ok (), after))
    (own_eq : own = (.input (event (raw.onScreen outcome.scale size)), start) ::
      (.logicalSize, before) :: searching) :
    Visited w target bestEffort event own (.ok .next)
  | missed {id : String} {template : Template} {capture : Picture} {outcome : Search.Outcome}
    (located : Located w id template capture own outcome) (missed : outcome.result.found = false)
    (short : outcome.result.score < template.threshold) :
    Visited w target bestEffort event own (if bestEffort then .ok .next
      else .error (.matchTimeout id outcome.result.score template.threshold outcome.attempts
        (Duration.milliseconds target.policy.timeout)))
  | interrupted {failure : Failure} (interrupts : w.Interrupts own failure) :
    Visited w target bestEffort event own (.error failure)

inductive Branched (w : Surroundings σ) (found missed : List Instruction) (own : List (Call × σ)) :
    Except Failure Flow → Prop where
  | entered {id : String} {template : Template} {capture : Picture} {outcome : Search.Outcome}
    (located : Located w id template capture own outcome) :
    Branched w found missed own (.ok (.enter (if outcome.result.found then found else missed) 1))
  | interrupted {failure : Failure} (interrupts : w.Interrupts own failure) :
    Branched w found missed own (.error failure)

/--
What a failure tells that a step gives up with when it has not found its target. Its captures are counted
in a word, so what is told is not 0 unless their number is a multiple of 2³².
-/
inductive TimedOut (w : Surroundings σ) (own : List (Call × σ)) : Failure → Prop where
  | intro {id : String} {template : Template} {capture : Picture} {outcome : Search.Outcome}
    {timeoutMs : Nat} (located : Located w id template capture own outcome)
    (missed : outcome.result.found = false) (short : outcome.result.score < template.threshold)
    (tried : 0 < (captures own).length)
    (counted : outcome.attempts = UInt32.ofNat (captures own).length)
    (attempted : 1 ≤ outcome.attempts ↔ ¬ 2 ^ 32 ∣ (captures own).length) :
    TimedOut w own (.matchTimeout id outcome.result.score template.threshold outcome.attempts
      timeoutMs)

section Located

variable {template : Template} {capture : Picture} {own : List (Call × σ)}

theorem Located.captures_pos {w : Surroundings σ} (located : Located w id template capture own outcome) :
    0 < (captures own).length := by
  obtain ⟨state, -, last, -⟩ := located.last
  cases all : captures own with
  | nil =>
      rw [all] at last
      cases last
  | cons first rest => exact Nat.succ_pos _

theorem Located.finds_or_short (sized : w.SizedInWords)
    (located : Located w.toSurroundings id template capture own outcome) :
    outcome.result.threshold = template.threshold ∧
      match outcome.result.location with
      | some raw => outcome.result.found = true ∧ template.FindsAt capture outcome.scale raw
      | none => outcome.result.found = false ∧ outcome.result.score < template.threshold := by
  obtain ⟨state, logical, -, ⟨_, _, capturing, -⟩, seen⟩ := located.last
  obtain ⟨width, height⟩ := sized _ _ _ capturing
  have known := Template.isSome_location_find template capture outcome.scale
  rw [← seen.result] at known
  refine ⟨?_, ?_⟩
  · rw [seen.result, Template.threshold_find]
  · cases location : outcome.result.location with
    | some raw =>
        rw [location] at known
        refine ⟨known.symm, Template.finds_of_location width height ?_⟩
        rw [← seen.result, location]
    | none =>
        rw [location] at known
        refine ⟨known.symm, ?_⟩
        rw [seen.result] at known ⊢
        exact Template.score_lt_of_missed width height known.symm

end Located

section Fresh

variable {place : Place} {bestEffort : Bool} {event : Point → InputEvent} (sound : s.Sound)
  (fresh : s.world.calls = [])
include sound fresh

theorem exists_located_fresh (h : (locate w.recorded target).on s = (.ok (id, outcome), t)) :
    ∃ template capture, Located w.toSurroundings id template capture t.world.calls outcome := by
  obtain ⟨own, template, capture, calls, located⟩ := exists_located sound h
  rw [fresh, List.append_nil] at calls
  exact ⟨template, capture, calls ▸ located⟩

theorem visited_of_visit (sized : w.SizedInWords) {result : Except Failure Unit}
    (h : (visit w.recorded place target bestEffort event).on s = (result, t)) :
    Visited w.toSurroundings target bestEffort event t.world.calls (result.map fun _ => .next) := by
  obtain ⟨failure, rfl, failed⟩ | ⟨⟨id, outcome⟩, s₁, found, h⟩ := cases_of_on_bind h
  · exact .interrupted (completes_locate target s failure t failed)
  obtain ⟨template, capture, located⟩ := exists_located_fresh sound fresh found
  obtain ⟨threshold, decided⟩ := located.finds_or_short sized
  cases location : outcome.result.location with
  | none =>
      rw [location] at decided
      obtain ⟨missed, short⟩ := decided
      simp only [location] at h
      cases bestEffort with
      | true =>
          cases h
          exact .missed located missed short
      | false =>
          cases h
          rw [threshold]
          exact .missed located missed short
  | some raw =>
      rw [location] at decided
      obtain ⟨found, finds⟩ := decided
      simp only [location] at h
      obtain ⟨failure, rfl, failed⟩ | ⟨size, s₂, asked, h⟩ := cases_of_on_bind h
      · exact .interrupted (completes_call .logicalSize s₁ failure t failed)
      obtain ⟨start, measured, rfl⟩ := exists_of_recorded_call asked
      obtain ⟨_, _, noted⟩ | ⟨_, s₃, noted, h⟩ := cases_of_on_bind h
      · cases noted
      cases noted
      cases result with
      | error failure => exact .interrupted (completes_act _ _ failure t h)
      | ok _ =>
          obtain ⟨after, sent, left⟩ := exists_sent h
          exact .acted located found finds measured sent (congrArg Recorded.calls left)

omit sound fresh in
theorem perform_eq_visit {action : Action} (visits : action.visit? = some (target, bestEffort, event)) :
    perform w.recorded place action = visit w.recorded place target bestEffort event := by
  cases action with
  | click | hover =>
      cases visits
      rfl
  | _ => cases visits

theorem visited_of_step (sized : w.SizedInWords) {action : Action} {result : Except Failure Flow}
    (visits : action.visit? = some (target, bestEffort, event))
    (h : (step w.recorded (.act place action)).on s = (result, t)) :
    Visited w.toSurroundings target bestEffort event t.world.calls result := by
  rw [step, perform_eq_visit visits, Attempt.on_map] at h
  rcases made : (visit w.recorded place target bestEffort event).on s with ⟨result', t'⟩
  rw [made] at h
  cases h
  exact visited_of_visit sound fresh sized made

theorem branched_of_step {found missed : List Instruction} {result : Except Failure Flow}
    (h : (step w.recorded (.branch place target found missed)).on s = (result, t)) :
    Branched w.toSurroundings found missed t.world.calls result := by
  cases result with
  | error failure => exact .interrupted (completes_branch place target found missed s failure t h)
  | ok flow =>
      obtain ⟨⟨id, outcome⟩, s₁, located, h⟩ := Attempt.on_bind_eq_ok.1 h
      obtain ⟨template, capture, located⟩ := exists_located_fresh sound fresh located
      cases h
      exact .entered located

omit sound fresh in
theorem Visited.timedOut_or_interrupts {w : Surroundings σ} {own : List (Call × σ)} {failure : Failure}
    (h : Visited w target bestEffort event own (.error failure)) :
    bestEffort = false ∧ TimedOut w own failure ∨ w.Interrupts own failure := by
  generalize ended : (.error failure : Except Failure Flow) = result at h
  cases h with
  | acted => cases ended
  | interrupted interrupts =>
      cases ended
      exact .inr interrupts
  | missed located missed short =>
      cases bestEffort with
      | true => cases ended
      | false =>
          cases ended
          refine .inl ⟨rfl, located, missed, short, located.captures_pos, located.attempts_eq, ?_⟩
          rw [located.attempts_eq, UInt32.le_iff_toNat_le, UInt32.toNat_ofNat']
          change 1 ≤ _ % 2 ^ 32 ↔ _
          omega

theorem timedOut_or_interrupts (sized : w.SizedInWords) {i : Instruction} {failure : Failure}
    (h : (step w.recorded i).on s = (.error failure, t)) :
    i.Insists ∧ TimedOut w.toSurroundings t.world.calls failure ∨
      w.Interrupts t.world.calls failure := by
  cases i with
  | act place action =>
      cases visits : action.visit? with
      | none =>
          exact .inr (Attempt.failsIn_map (completes_perform place visits) _ s failure t h)
      | some visit =>
          obtain ⟨target, bestEffort, event⟩ := visit
          obtain ⟨rfl, timedOut⟩ | interrupts :=
            (visited_of_step sound fresh sized visits h).timedOut_or_interrupts
          · exact .inl ⟨.intro visits, timedOut⟩
          · exact .inr interrupts
  | loop place count body =>
      exact .inr (Attempt.failsIn_map (completes_evaluateCount count) _ s failure t h)
  | branch place target found missed =>
      exact .inr (completes_branch place target found missed s failure t h)
  | guard place body => cases h

end Fresh

end Session

/-! ## Runs -/

theorem Surroundings.Interrupts.exists_raised {w : Surroundings σ} {calls : List (Call × σ)}
    {failure : Failure} (h : w.Interrupts calls failure) (timeout : failure.code = .matchTimeout) :
    ∃ call state earlier, calls = (call, state) :: earlier ∧ w.Raises failure call state := by
  cases h with
  | aborted | unscaled | undefined | misuse => cases timeout
  | raised last raised => exact ⟨_, _, _, last, raised⟩

section Runs

variable {w : World σ} {program : Program} {s : Session σ} {m : Machine (Recorded σ)} {i : Instruction}
  {result : Except Failure Flow} {after : Session (Recorded σ)}

def Machine.Steps (w : World σ) (program : Program) (s : Session σ) (i : Instruction)
    (P : List (Call × σ) → Except Failure Flow → Prop) : Prop :=
  ∀ m result after, Passes w.recorded (s.recorded.launch w.recorded program) m →
    (Session.step w.recorded i).on (m.dispatched i) = (result, after) →
      ∃ own, after.world.calls = own ++ m.session.world.calls ∧ P own result

theorem Machine.steps_of_fresh {P : List (Call × σ) → Except Failure Flow → Prop}
    (h : ∀ (t u : Session (Recorded σ)) result, t.Sound → t.world.calls = [] →
      (Session.step w.recorded i).on t = (result, u) → P u.world.calls result) :
    Steps w program s i P := by
  intro m result after passes made
  obtain ⟨u, fresh, calls⟩ := Session.exists_step_unrecorded made
  have sound : (m.dispatched i).unrecorded.Sound := Machine.sound_of_passes passes
  exact ⟨u.world.calls, calls, h _ u result sound rfl fresh⟩

/-- What the visits of a run come to, by the calls of the recorded run. -/
structure Session.Visits (w : World σ) (program : Program) (s : Session σ) (runId : Option String) :
    Prop where
  recorded_eq : s.execute w program runId = ((s.recorded.execute w.recorded program runId).1,
    (s.recorded.execute w.recorded program runId).2.project Recorded.world)
  visits : ∀ place action target bestEffort event,
    action.visit? = some (target, bestEffort, event) →
      Machine.Steps w program s (.act place action)
        (Visited w.toSurroundings target bestEffort event)
  branches : ∀ place target found missed,
    Machine.Steps w program s (.branch place target found missed)
      (Branched w.toSurroundings found missed)
  timeouts : ∀ i, Machine.Steps w program s i fun own result =>
    ∀ failure, result = .error failure → failure.code = .matchTimeout →
      i.Insists ∧ TimedOut w.toSurroundings own failure ∨
        ∃ call state earlier, own = (call, state) :: earlier ∧ w.Raises failure call state
  skipped : ∀ index line failure,
    .skipped index line failure ∈ (s.execute w program runId).2.session.journal →
      ∃ i, (s.recorded.launch w.recorded program).Dispatches w.recorded i (.error failure)
  reported : ∀ f, (s.execute w program runId).1.failure = some f →
    ∃ i, (s.recorded.launch w.recorded program).Dispatches w.recorded i (.error f.failure)

/--
Every click and every hover of a run does one of three things. If the last match of its search is found,
it sends one input, to the middle of the window in the last capture, mapped by the scale of this capture
and the size of the screen. If not, it sends nothing, and times out unless the target may be missing. Or
something else interrupts it. Whatever times out on its own has taken a capture, and tells the number of
its captures modulo 2³², the threshold of the template and the lower score of the last capture. A branch
goes by the last match, and never times out on its own. All that is skipped or reported is a failure of a
step.
-/
theorem Session.execute_visits (sized : w.SizedInWords) (program : Program) (s : Session σ)
    (runId : Option String) : Visits w program s runId where
  recorded_eq := execute_recorded w program s runId
  visits _ _ _ _ _ visits := Machine.steps_of_fresh fun _ _ _ sound fresh made =>
    visited_of_step sound fresh sized visits made
  branches _ _ _ _ := Machine.steps_of_fresh fun _ _ _ sound fresh made =>
    branched_of_step sound fresh made
  timeouts i := Machine.steps_of_fresh fun t u result sound fresh made failure failed timeout => by
    rw [failed] at made
    rcases timedOut_or_interrupts sound fresh sized made with timedOut | interrupts
    · exact .inl timedOut
    · exact .inr (interrupts.exists_raised timeout)
  skipped index line failure noted := by
    rw [execute_recorded] at noted
    change .skipped index line failure ∈
      (s.recorded.execute w.recorded program runId).2.session.journal at noted
    obtain ⟨i, dispatches, -⟩ := exists_dispatches_of_skipped noted
    exact ⟨i, dispatches⟩
  reported f told := by
    rw [execute_recorded] at told
    obtain ⟨i, dispatches, -⟩ := exists_dispatches_of_failure told
    exact ⟨i, dispatches⟩

end Runs

namespace Reel

def stocked (reel : Reel) (template : Template) : Surroundings Showing :=
  { reel.surroundings with template := fun _ => pure template }

theorem stocked_keepsTime (reel : Reel) (template : Template) :
    (reel.stocked template).KeepsTime fun s => s.clock.now :=
  { reel.surroundings_keepsTime with }

def bright : World Showing :=
  .onClock _ (stocked_keepsTime { late with frames := fun _ => late.frames 3 } squares)

theorem sizedInWords_bright : bright.SizedInWords := by
  rintro s capture t ⟨⟩
  have two : 2 < 2 ^ 32 := by decide
  exact ⟨two, two⟩

def clicks : Instruction :=
  .act ⟨0, 1⟩ (.click ⟨⟨[.literal "squares"]⟩, .standard⟩ false)

def clicking : Program where
  instructions := [clicks]
  size := 1

def idle : Session Showing where
  search := { world := {} }

def launched : Machine (Recorded Showing) :=
  idle.recorded.launch bright.recorded clicking

end Reel

namespace Session

open Reel (bright clicks launched squares)

theorem exists_step_bright :
    ∃ after, (step bright.recorded clicks).on (launched.dispatched clicks) = (.ok .next, after) := by
  let target : Target := ⟨⟨[.literal "squares"]⟩, .standard⟩
  let start := launched.dispatched clicks
  let loaded := start.inWorld (start.world.after (.template "squares") {})
  let before := loaded.changed .matching
  let first : Search (Recorded Reel.Showing) :=
    { before.search with world := before.world.after .now {} }
  have sees : ∃ outcome ∈ Search.outcome? bright.recorded.toSurroundings squares .standard 0 0 first,
      outcome.result.location ≠ none := by
    decide +kernel
  obtain ⟨outcome, seen, somewhere⟩ := sees
  obtain ⟨raw, location⟩ := Option.ne_none_iff_exists'.1 somewhere
  let last := ((Search.round bright.recorded.toSurroundings squares .standard 0 0).on first).2
  have ran : (Search.run bright.recorded squares .standard).on before.search = (.ok outcome, last) :=
    Search.pollUntil_of_outcome? seen
  let found : Session (Recorded Reel.Showing) := { before with search := last }
  have located : (locate bright.recorded target).on start =
      (.ok ("squares", outcome), found.changed .running) :=
    on_locate rfl rfl ran
  have acts : ((visit bright.recorded ⟨0, 1⟩ target false .click).on start).1 = .ok () := by
    rw [visit, Attempt.on_bind, located]
    simp only [location]
    rfl
  exact ⟨_, Attempt.on_map_eq_ok.2 ⟨(), Prod.ext acts rfl, rfl⟩⟩

theorem execute_visits_bright :
    ∃ after own position,
      (step bright.recorded clicks).on (launched.dispatched clicks) = (.ok .next, after) ∧
      after.world.calls = own ++ launched.session.world.calls ∧ inputs own = [.click position] := by
  obtain ⟨after, made⟩ := exists_step_bright
  have run := execute_visits Reel.sizedInWords_bright Reel.clicking Reel.idle none
  obtain ⟨own, calls, visited⟩ := run.visits _ _ _ _ _ rfl launched _ after .here made
  generalize ended : (.ok .next : Except Failure Flow) = result at visited
  cases visited with
  | missed => cases ended
  | interrupted => cases ended
  | @acted _ _ _ outcome _ raw size _ _ _ located _ _ _ _ own_eq =>
      refine ⟨after, own, raw.onScreen outcome.scale size, made, calls, ?_⟩
      rw [own_eq]
      exact congrArg (InputEvent.click (raw.onScreen outcome.scale size) :: ·) located.silent

end Session

end ScreenScript
