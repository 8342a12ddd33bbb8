import Mathlib.Algebra.Order.Floor.Div
import ScreenScript.Proofs.Search.Polling
import ScreenScript.Proofs.Search.Rounds

/-!
# Searches on a clock

On a clock that moves in sleeps by just what was asked for, and in attempts as it likes, every capture of a
search starts before the timeout, and each round but the first an interval or more after the one before
(`Search.Prompt`). From one round to the next this is kept (`Search.Prompt.round`), so a search stays
within its time (`Search.run_inTime`).
-/

namespace ScreenScript

open Recorded (captures)

variable {σ : Type}

/--
Whether a clock shows the time and sleeping takes as long as was asked for. The time of a state is when
the next call is made, so what a search does between two calls, such as looking for a template in a
capture, takes time in the call before.
-/
structure Surroundings.SleepsExactly (w : Surroundings σ) (time : σ → Nat) : Prop where
  now_eq : ∀ s, (w.now s).1 = time s
  time_now : ∀ s, time (w.now s).2 = time s
  le_capture : Attempt.Follows (fun s t => time s ≤ time t) w.capture
  le_logicalSize : Attempt.Follows (fun s t => time s ≤ time t) w.logicalSize
  time_sleep : ∀ nanoseconds s, (w.sleep nanoseconds s).1 = true →
    time (w.sleep nanoseconds s).2 = time s + nanoseconds

theorem Surroundings.SleepsExactly.keepsTime {w : Surroundings σ} {time : σ → Nat}
    (sleeps : w.SleepsExactly time) : w.KeepsTime time where
  now_eq s := (sleeps.now_eq s).trans (sleeps.time_now s).symm
  le_now s := (sleeps.time_now s).ge
  le_capture := sleeps.le_capture
  le_logicalSize := sleeps.le_logicalSize
  lt_sleep nanoseconds s positive complete := by
    rw [sleeps.time_sleep nanoseconds s complete]
    omega

structure Surroundings.SleepsFully (w : Surroundings σ) (time : σ → Nat) : Prop
    extends w.KeepsTime time where
  le_sleep : ∀ nanoseconds s, (w.sleep nanoseconds s).1 = true →
    time s + nanoseconds ≤ time (w.sleep nanoseconds s).2

theorem Surroundings.SleepsExactly.sleepsFully {w : Surroundings σ} {time : σ → Nat}
    (sleeps : w.SleepsExactly time) : w.SleepsFully time where
  toKeepsTime := sleeps.keepsTime
  le_sleep nanoseconds s complete := (sleeps.time_sleep nanoseconds s complete).ge

section

variable {w : Surroundings σ} {time : σ → Nat} {s t : σ}

theorem Surroundings.KeepsTime.read (keeps : w.KeepsTime time) {now : Nat} (read : w.now s = (now, t)) :
    now = time t ∧ time s ≤ time t := by
  have shown := keeps.now_eq s
  have later := keeps.le_now s
  rw [read] at shown later
  exact ⟨shown, later⟩

theorem Surroundings.SleepsFully.slept (sleeps : w.SleepsFully time) {nanoseconds : Nat}
    (slept : w.sleep nanoseconds s = (true, t)) : time s + nanoseconds ≤ time t := by
  have passed := sleeps.le_sleep nanoseconds s
  rw [slept] at passed
  exact passed rfl

end

section

variable {w : Surroundings σ} {time : σ → Nat} (sleeps : w.SleepsExactly time)
include sleeps

theorem Surroundings.SleepsExactly.read {now : Nat} {s t : σ} (read : w.now s = (now, t)) :
    now = time s ∧ time t = time s := by
  have shown := sleeps.now_eq s
  have still := sleeps.time_now s
  rw [read] at shown still
  exact ⟨shown, still⟩

theorem Surroundings.SleepsExactly.slept {nanoseconds : Nat} {s t : σ}
    (slept : w.sleep nanoseconds s = (true, t)) : time t = time s + nanoseconds := by
  have passed := sleeps.time_sleep nanoseconds s
  rw [slept] at passed
  exact passed rfl

end

namespace Reel

variable (reel : Reel) (length : Nat)

def slow : Surroundings Showing :=
  { reel.surroundings with
    capture := do
      let frame ← reel.surroundings.capture
      modify fun s => { s with clock := s.clock.advance length }
      return frame }

theorem slow_sleepsExactly : (reel.slow length).SleepsExactly fun s => s.clock.now where
  now_eq _ := rfl
  time_now _ := rfl
  le_capture s := s.clock.now_le_advance length
  le_logicalSize _ := Nat.le_refl _
  time_sleep _ _ complete := reel.now_sleep complete

def slowWorld : World Showing :=
  .onClock (reel.slow length) (reel.slow_sleepsExactly length).keepsTime

end Reel

def Surroundings.attempted (w : Surroundings σ) (world : σ) : σ :=
  (w.logicalSize.on (w.capture.on world).2).2

namespace Search

/--
How a search that has started at some time keeps to its policy, by the calls of the recorded search. It
may take longer than the timeout by less than an interval and the time that its last attempt takes.
-/
structure InTime (w : Surroundings σ) (time : σ → Nat) (policy : Policy) (started : Nat)
    (result : Except Failure Outcome) (t : Search (Recorded σ)) : Prop where
  captures_le : (captures t.world.calls).length ≤ policy.timeout ⌈/⌉ policy.interval
  early : ∀ world ∈ captures t.world.calls, time world < started + policy.timeout
  time_lt : result ≠ .error .aborted → ∃ last, (captures t.world.calls).head? = some last ∧
    time t.world.world <
      started + policy.timeout + policy.interval + (time (w.attempted last) - time last)
  elapsed_eq : ∀ outcome, result = .ok outcome → outcome.elapsed = time t.world.world - started
  timeout_le : ∀ outcome, result = .ok outcome → outcome.result.found = false →
    started + policy.timeout ≤ time t.world.world

structure Prompt (time : σ → Nat) (policy : Policy) (started : Nat) (s : Search (Recorded σ)) :
    Prop where
  early : ∀ world ∈ captures s.world.calls, time world < started + policy.timeout
  paced : started + (captures s.world.calls).length * policy.interval ≤ time s.world.world
  inTime : time s.world.world < started + policy.timeout

variable {w : Surroundings σ} {time : σ → Nat} {template : Template} {policy : Policy} {started : Nat}
  {attempts : UInt32} {s t u : Search (Recorded σ)}

theorem time_le_attempted (keeps : w.KeepsTime time) (world : σ) :
    time (w.capture.on world).2 ≤ time (w.attempted world) :=
  keeps.le_logicalSize _

theorem time_le_of_attempted (keeps : w.KeepsTime time) (world : σ) :
    time world ≤ time (w.attempted world) :=
  (keeps.le_capture world).trans (time_le_attempted keeps world)

theorem Polled.attempt {seen : Match × Scale} (h : Polled w template s u (.ok seen)) :
    u.world.world = w.attempted s.world.world ∧
      captures u.world.calls = s.world.world :: captures s.world.calls := by
  cases h with
  | looked capturing measuring left observed =>
      rw [Surroundings.attempted, capturing, measuring, left]
      exact ⟨rfl, rfl⟩

theorem Rounded.captures_eq {outcome? : Option Outcome}
    (h : Rounded w template policy started attempts s t (.ok outcome?)) :
    captures t.world.calls = s.world.world :: captures s.world.calls := by
  cases h with
  | found polled _ _ left | late polled _ _ _ left | again polled _ _ _ left =>
      obtain ⟨-, taken⟩ := polled.attempt
      rw [left]
      exact taken

theorem Rounded.interval_le (sleeps : w.SleepsFully time)
    (h : Rounded w template policy started attempts s t (.ok none)) :
    time s.world.world + policy.interval ≤ time t.world.world ∧
      time t.world.world - started < policy.timeout := by
  cases h with
  | @again result scale u now woken world polled missed slept read left early =>
      obtain ⟨attempted, -⟩ := polled.attempt
      obtain ⟨rfl, later⟩ := sleeps.read read
      have le := time_le_of_attempted sleeps.toKeepsTime s.world.world
      have passed := sleeps.slept slept
      have finished : time t.world.world = time world := by
        rw [left]
        rfl
      rw [attempted] at passed
      constructor <;> omega

theorem Polled.failed (sleeps : w.SleepsExactly time) {failure : Failure}
    (h : Polled w template s t (.error failure)) :
    (failure = .aborted ∧ t = s) ∨
      (captures t.world.calls = s.world.world :: captures s.world.calls ∧
        time t.world.world ≤ time (w.attempted s.world.world)) := by
  cases h with
  | aborted asked same => exact .inl ⟨rfl, same⟩
  | uncaptured capturing left =>
      have le := time_le_attempted sleeps.keepsTime s.world.world
      rw [capturing] at le
      rw [left]
      exact .inr ⟨rfl, le⟩
  | unmeasured capturing measuring left | unscaled capturing measuring left =>
      rw [Surroundings.attempted, capturing, measuring, left]
      exact .inr ⟨rfl, Nat.le_refl _⟩

namespace Prompt

variable (prompt : Prompt time policy started s)
include prompt

theorem captures_lt : (captures s.world.calls).length < policy.timeout ⌈/⌉ policy.interval := by
  have paced := prompt.paced
  have inTime := prompt.inTime
  exact (policy.lt_maxRounds_iff _).2 (by omega)

theorem early_capture (taken : captures t.world.calls = s.world.world :: captures s.world.calls)
    (world : σ) (member : world ∈ captures t.world.calls) : time world < started + policy.timeout := by
  rw [taken] at member
  rcases List.mem_cons.1 member with rfl | before
  · exact prompt.inTime
  · exact prompt.early world before

theorem captures_le (taken : captures t.world.calls = s.world.world :: captures s.world.calls) :
    (captures t.world.calls).length ≤ policy.timeout ⌈/⌉ policy.interval := by
  rw [taken]
  exact prompt.captures_lt

theorem inTime_of_ended {result : Except Failure Outcome}
    (taken : captures t.world.calls = s.world.world :: captures s.world.calls)
    (ended : result ≠ .error .aborted →
      time t.world.world ≤ time (w.attempted s.world.world) + policy.interval)
    (outcome : ∀ outcome, result = .ok outcome →
      outcome.elapsed = time t.world.world - started ∧
        (outcome.result.found = false → started + policy.timeout ≤ time t.world.world)) :
    InTime w time policy started result t where
  captures_le := prompt.captures_le taken
  early := prompt.early_capture taken
  time_lt other := by
    refine ⟨s.world.world, by rw [taken, List.head?_cons], ?_⟩
    have ended := ended other
    have inTime := prompt.inTime
    omega
  elapsed_eq found made := (outcome found made).1
  timeout_le found made := (outcome found made).2

theorem failed (sleeps : w.SleepsExactly time) {failure : Failure}
    (h : Rounded w template policy started attempts s t (.error failure)) :
    InTime w time policy started (.error failure) t := by
  cases h with
  | failed polled =>
      rcases polled.failed sleeps with ⟨rfl, rfl⟩ | ⟨taken, ended⟩
      · exact ⟨prompt.captures_lt.le, prompt.early, fun other => absurd rfl other, nofun, nofun⟩
      · exact prompt.inTime_of_ended taken (fun _ => ended.trans (Nat.le_add_right _ _)) nofun
  | cut polled missed slept left =>
      obtain ⟨-, taken⟩ := polled.attempt
      refine prompt.inTime_of_ended ?_ (fun other => absurd rfl other) nofun
      rw [left]
      exact taken

theorem ended (sleeps : w.SleepsExactly time) {outcome : Outcome}
    (h : Rounded w template policy started attempts s t (.ok (some outcome))) :
    InTime w time policy started (.ok outcome) t := by
  have positive := policy.interval_lt_timeout
  have taken := h.captures_eq
  cases h with
  | @found result scale u now world polled found read left =>
      obtain ⟨attempted, -⟩ := polled.attempt
      obtain ⟨rfl, still⟩ := sleeps.read read
      have finished : time t.world.world = time u.world.world := by rwa [left]
      refine prompt.inTime_of_ended taken (fun _ => ?_) ?_
      · rw [finished, attempted]
        exact Nat.le_add_right _ _
      · rintro _ ⟨⟩
        refine ⟨by rw [finished], fun missed => ?_⟩
        rw [found] at missed
        cases missed
  | @late result scale u now woken world polled missed slept read left late =>
      obtain ⟨attempted, -⟩ := polled.attempt
      obtain ⟨rfl, still⟩ := sleeps.read read
      have passed := sleeps.slept slept
      have finished : time t.world.world = time woken := by rwa [left]
      refine prompt.inTime_of_ended taken (fun _ => ?_) ?_
      · rw [finished, passed, attempted]
      · rintro _ ⟨⟩
        refine ⟨by rw [finished], fun _ => ?_⟩
        rw [finished]
        omega

theorem again (sleeps : w.SleepsExactly time)
    (h : Rounded w template policy started attempts s t (.ok none)) :
    Prompt time policy started t := by
  obtain ⟨slept, early⟩ := h.interval_le sleeps.sleepsFully
  have taken := h.captures_eq
  have paced := prompt.paced
  refine ⟨prompt.early_capture taken, ?_, by omega⟩
  rw [taken, List.length_cons, Nat.add_mul]
  omega

end Prompt

variable {w : World σ} {result : Except Failure Outcome}

theorem inTime_of_pollUntil (sleeps : w.SleepsExactly time) (prompt : Prompt time policy started s)
    (h : pollUntil w.recorded template policy started attempts s = (result, t)) :
    InTime w.toSurroundings time policy started result t := by
  fun_induction pollUntil w.recorded template policy started attempts s with
  | case1 attempts s failure after made =>
      cases h
      exact prompt.failed sleeps (rounded made)
  | case2 attempts s outcome after made =>
      cases h
      exact prompt.ended sleeps (rounded made)
  | case3 attempts s after made ih => exact ih (prompt.again sleeps (rounded made)) h

def recorded (s : Search σ) : Search (Recorded σ) where
  world := { world := s.world }
  cache := s.cache
  journal := s.journal

theorem run_recorded (made : (run w.recorded template policy).on s = (result, t)) :
    (run w template policy).on (s.project Recorded.world) = (result, t.project Recorded.world) := by
  have accord : Accord w.recorded.toSurroundings w.toSurroundings (Over Recorded.world) :=
    accord_over w.recorded_projects
  obtain ⟨same, seen⟩ := accord.agrees_run template policy s (s.project Recorded.world) rfl
  rw [made] at same seen
  exact Prod.ext same.symm seen.symm

/--
A search on a clock that sleeps as long as it is asked to is in time, however long captures and looking at
them take. It takes no more captures than intervals begin before the timeout, each of them before the
timeout, and it is over less than an interval and its last attempt after the timeout. It gives a miss only
when the timeout has passed.
-/
theorem run_inTime (sleeps : w.SleepsExactly time) {s : Search σ} {t : Search (Recorded σ)}
    (made : (run w.recorded template policy).on s.recorded = (result, t)) :
    (run w template policy).on s = (result, t.project Recorded.world) ∧
      InTime w.toSurroundings time policy (time s.world) result t := by
  refine ⟨run_recorded made, ?_⟩
  obtain ⟨_, _, read⟩ | ⟨started, first, read, made⟩ := Attempt.cases_of_on_bind made
  · cases read
  obtain ⟨world, reading, rfl⟩ := exists_of_recorded_clock read
  obtain ⟨rfl, still⟩ := sleeps.read reading
  change time world = time s.world at still
  have positive := policy.interval_lt_timeout
  refine inTime_of_pollUntil sleeps ⟨fun _ => List.not_mem_nil.elim, ?_, ?_⟩ made
  · change time s.world + 0 * policy.interval ≤ time world
    omega
  · change time world < time s.world + policy.timeout
    omega

theorem run_inTime_slow :
    let policy : Policy := ⟨10, 4, by decide, by decide⟩
    ∃ outcome t, (run (Reel.late.slowWorld 7).recorded Reel.squares policy).on
        (recorded { world := {} }) = (.ok outcome, t) ∧
      outcome.result.found = false ∧ outcome.elapsed = 11 ∧ t.world.world.clock.now = 11 ∧
      InTime (Reel.late.slowWorld 7).toSurroundings (fun s => s.clock.now) policy 0 (.ok outcome) t := by
  intro policy
  let w := Reel.late.slowWorld 7
  let first : Search (Recorded Reel.Showing) := { world := { world := {}, calls := [(.now, {})] } }
  let last := ((round w.recorded.toSurroundings Reel.squares policy 0 0).on first).2
  have ends : ∃ outcome ∈ outcome? w.recorded.toSurroundings Reel.squares policy 0 0 first,
      outcome.result.found = false ∧ outcome.elapsed = 11 := by
    decide +kernel
  have left : last.world.world.clock.now = 11 := by
    decide +kernel
  obtain ⟨outcome, ended, missed, elapsed⟩ := ends
  have whole : (run w.recorded Reel.squares policy).on (recorded { world := {} }) = (.ok outcome, last) :=
    pollUntil_of_outcome? ended
  obtain ⟨-, inTime⟩ := run_inTime (Reel.late.slow_sleepsExactly 7) whole
  exact ⟨outcome, last, whole, missed, elapsed, left, inTime⟩

end Search

end ScreenScript
