import ScreenScript.Proofs.Run.Protocol
import ScreenScript.Rehearsal
import ScreenScript.Rehearsal.Supplies

/-!
# Aborted runs

A wish to abort can show after any call of a run. From then on every call is late. A search looks for
the wish before each capture, so no capture is late (`Search.habit_heeds`). An instruction goes on
after a late call only up to its one input (`Session.habit_heeds`), and the run looks for the wish
before it dispatches the next (`Machine.heeds_of_made`). What is left of the run is then an end that is
not `completed` (`Session.execute_abortSafe`).
-/

namespace ScreenScript

open Attempt (Follows Keeps)

variable {σ α : Type}

def Surroundings.Persists (w : Surroundings σ) (s t : σ) : Prop :=
  w.aborted s = true → w.aborted t = true

/-- Surroundings that never take a wish to abort back. Looking at the clock is no such wish. -/
structure Surroundings.AbortStays (w : Surroundings σ) : Prop where
  capture : Follows w.Persists w.capture
  logicalSize : Follows w.Persists w.logicalSize
  input : ∀ event, Follows w.Persists (w.input event)
  sleep : ∀ nanoseconds s, w.Persists s (w.sleep nanoseconds s).2
  template : ∀ id, Follows w.Persists (w.template id)
  read : ∀ b ∈ w.backing, ∀ name, Follows w.Persists (b.read name)
  write : ∀ b ∈ w.backing, ∀ name value, Follows w.Persists (b.write name value)
  now : ∀ s, w.aborted (w.now s).2 = w.aborted s

namespace Rehearsal

variable {τ : Type}

theorem abortedAt_aborted (planned : Option Nat) (count : Nat) (r : Rehearsal τ)
    (asked : r.clock.aborted = true) : (r.abortedAt planned count).clock.aborted = true := by
  unfold abortedAt
  split
  · rfl
  · exact asked

theorem surroundings_abortStays (plan : Plan) (template : String → Attempt τ Template)
    (backing : Option (Backing τ)) : (surroundings plan template backing).AbortStays where
  capture r asked := by
    have after := abortedAt_aborted plan.captureAbort (r.captures + 1)
      { r with captures := r.captures + 1 } asked
    simp only [surroundings, capture, Attempt.of, Attempt.on]
    split <;> exact after
  logicalSize r asked := by
    simp only [surroundings, logicalSize, Attempt.of, Attempt.on]
    split <;> exact asked
  input event r asked := by
    have after := abortedAt_aborted plan.inputAbort (r.inputs + 1)
      { r with inputs := r.inputs + 1 } asked
    simp only [surroundings, input, Attempt.of, Attempt.on]
    split <;> exact after
  sleep nanoseconds r asked := by
    have still : r.clock.sleep nanoseconds = (false, r.clock) := if_pos asked
    simp only [surroundings, sleep, still]
    exact asked
  template id r asked := asked
  read b backed name r asked := by
    obtain ⟨b, -, rfl⟩ := Option.map_eq_some_iff.1 backed
    exact asked
  write b backed name value r asked := by
    obtain ⟨b, -, rfl⟩ := Option.map_eq_some_iff.1 backed
    exact asked
  now r := rfl

end Rehearsal

/-! ## Calls after the wish to abort -/

def Call.isInput : Call → Bool
  | input _ => true
  | _ => false

def Watched.lateInputs (t : Watched σ) : Nat :=
  t.moments.countP fun x => x.late && x.call.isInput

structure Watched.Heeds (w : Surroundings σ) (inputs : Nat) (t : Watched σ) : Prop where
  asked : ∀ x ∈ t.moments, x.late = true → w.aborted t.world = true
  captures : ∀ x ∈ t.moments, x.late = true → x.call ≠ .capture
  inputs_le : t.lateInputs ≤ inputs

namespace Watched.Heeds

variable {w : Surroundings σ} {n : Nat} {t : Watched σ} {world : σ}

theorem start (world : σ) : Heeds w n { world } :=
  ⟨nofun, nofun, Nat.zero_le n⟩

theorem weaken (h : t.Heeds w n) {k : Nat} (le : n ≤ k) : t.Heeds w k :=
  ⟨h.asked, h.captures, Nat.le_trans h.inputs_le le⟩

theorem after (h : t.Heeds w n) (call : Call) (stays : w.Persists t.world world)
    (capture : call = .capture → w.aborted t.world = false) :
    (t.after w call world).Heeds w (n + call.isInput.toNat) where
  asked := by
    intro x member late
    rcases List.mem_cons.1 member with rfl | before
    · exact stays late
    · exact stays (h.asked x before late)
  captures := by
    intro x member late taken
    rcases List.mem_cons.1 member with rfl | before
    · have calm := capture taken
      have asked : w.aborted t.world = true := late
      rw [calm] at asked
      cases asked
    · exact h.captures x before late taken
  inputs_le := by
    have counted : (t.after w call world).lateInputs =
        t.lateInputs + (w.aborted t.world && call.isInput).toNat := by
      rw [lateInputs, Watched.after, List.countP_cons]
      cases w.aborted t.world && call.isInput <;> rfl
    have := h.inputs_le
    rw [counted]
    cases w.aborted t.world <;> simp <;> omega

theorem after_other (h : t.Heeds w n) {call : Call} (stays : w.Persists t.world world)
    (other : call.isNoted = false) : (t.after w call world).Heeds w n := by
  have no_input : call.isInput = false := by
    cases call <;> first | rfl | cases other
  have heeds : (t.after w call world).Heeds w (n + call.isInput.toNat) := by
    refine h.after call stays ?_
    rintro rfl
    cases other
  rwa [no_input] at heeds

theorem of_calm (h : t.Heeds w n) (calm : w.aborted t.world = false) : t.Heeds w 0 where
  asked := h.asked
  captures := h.captures
  inputs_le := by
    refine Nat.le_of_eq (List.countP_eq_zero.2 ?_)
    intro x member
    have early : x.late = false := by
      refine Bool.eq_false_iff.2 fun late => ?_
      have asked := h.asked x member late
      rw [calm] at asked
      cases asked
    rw [early, Bool.false_and]
    exact Bool.false_ne_true

theorem asked_of_wish (h : t.Heeds w n)
    (wish : w.aborted t.world = true ∨ ∃ x ∈ t.moments, x.late = true) :
    w.aborted t.world = true := by
  rcases wish with asked | ⟨x, member, late⟩
  · exact asked
  · exact h.asked x member late

end Watched.Heeds

/-! ## Searches and instructions -/

variable {n : Nat}

namespace Search

theorem keeps_heeds_attempt {w : Surroundings σ} {a : Attempt σ α} (stays : Follows w.Persists a)
    {call : Call} (other : call.isNoted = false) :
    Keeps (fun t => t.world.Heeds w n) (fun t => t.world.Heeds w n)
      (onWorld (Watched.attempt w call a)) :=
  fun t heeds => heeds.after_other (stays t.world.world) other

theorem keeps_heeds_answer {w : Surroundings σ} {a : StateM σ α}
    (stays : ∀ s, w.Persists s (a s).2) {call : Call} (other : call.isNoted = false) :
    Keeps (fun t => t.world.Heeds w n) (fun t => t.world.Heeds w n)
      (onClock (Watched.answer w call a)) :=
  fun t heeds => heeds.after_other (stays t.world.world) other

theorem habit_heeds {w : Surroundings σ} (stays : w.AbortStays) :
    Habit w.watched fun t => t.world.Heeds w n where
  remember _ _ heeds _ := heeds
  note _ _ _ := id
  capture := by
    rintro t ⟨heeds, calm⟩
    exact heeds.after .capture (stays.capture t.world.world) fun _ => calm
  logicalSize := keeps_heeds_attempt stays.logicalSize rfl
  sleep nanoseconds := keeps_heeds_answer (stays.sleep nanoseconds) rfl
  now := keeps_heeds_answer (fun s asked => (stays.now s).trans asked) rfl

end Search

namespace Session

theorem habit_heeds {w : World σ} (stays : w.AbortStays) :
    Habit w.watched (fun t => t.world.Heeds w.toSurroundings 0)
      (fun t => t.world.Heeds w.toSurroundings 1) where
  weaken _ heeds := heeds.weaken (Nat.zero_le 1)
  note _ _ _ := id
  rebind _ _ := id
  read b backed name := by
    obtain ⟨b, kept, rfl⟩ := Option.map_eq_some_iff.1 backed
    exact keeps_world_onSearch (Search.keeps_heeds_attempt (stays.read b kept name) rfl)
  write b backed name value := by
    obtain ⟨b, kept, rfl⟩ := Option.map_eq_some_iff.1 backed
    exact keeps_world_onSearch (Search.keeps_heeds_attempt (stays.write b kept name value) rfl)
  template id := keeps_world_onSearch (Search.keeps_heeds_attempt (stays.template id) rfl)
  logicalSize := keeps_world_onSearch (Search.keeps_heeds_attempt stays.logicalSize rfl)
  sleep nanoseconds := keeps_world_onSearch (Search.keeps_heeds_answer (stays.sleep nanoseconds) rfl)
  search template policy := keeps_world_during .matching
    (keeps_world_onSearch ((Search.habit_heeds stays).keeps_run template policy))
  act event := by
    refine keeps_world_during .acting fun t heeds => ?_
    exact heeds.after (.input event) (stays.input event t.world.world) fun taken => nomatch taken

end Session

/-! ## Runs -/

section Runs

variable {w : World σ} {program : Program} {s : Session σ} {m : Machine (Watched σ)}

theorem Machine.heeds_of_made (stays : w.AbortStays)
    (heeds : m.session.world.Heeds w.toSurroundings 1)
    (calm : w.watched.aborted m.session.world = false) {i : Instruction}
    {result : Except Failure Flow} {after : Session (Watched σ)}
    (made : (Session.step w.watched i).on (m.dispatched i) = (result, after)) :
    after.world.Heeds w.toSurroundings 1 := by
  -- No call is late when the instruction starts, so whatever is late then is its own.
  have kept := (Session.habit_heeds stays).keeps_step i (m.dispatched i) (heeds.of_calm calm)
  rwa [made] at kept

theorem Machine.heeds_of_passes (stays : w.AbortStays)
    (passes : Passes w.watched (s.watched.launch w.watched program) m) :
    m.session.world.Heeds w.toSurroundings 1 := by
  refine passes.keeps_session (I := fun t => t.world.Heeds w.toSurroundings 1) ?_ ?_ ?_
  · exact (Watched.Heeds.start s.world).after_other (fun asked => (stays.now _).trans asked) rfl
  · intro k i result after heeds calm made
    exact heeds_of_made stays heeds calm made
  · exact fun t index line failure heeds => heeds

namespace Session

theorem heeds_of_finish (stays : w.AbortStays) {out : Session (Watched σ) × Option FailureReport}
    (passes : Machine.Passes w.watched (s.watched.launch w.watched program) m)
    (finish : Finish w.watched m out) : out.1.world.Heeds w.toSurroundings 1 := by
  have heeds := Machine.heeds_of_passes stays passes
  cases finish with
  | completed _ => rwa [world_changed]
  | aborted _ => rwa [world_noted, world_changed]
  | gaveUp calm _ _ made =>
      rw [world_noted, world_changed]
      exact Machine.heeds_of_made stays heeds calm made
  | failed calm _ _ made _ _ =>
      rw [world_noted, world_changed]
      exact Machine.heeds_of_made stays heeds calm made

theorem status_of_finish {out : Session (Watched σ) × Option FailureReport}
    (finish : Finish w.watched m out) (asked : w.watched.aborted out.1.world = true) :
    out.1.status = .aborted ∧ out.2 = none ∨
      out.1.status = .failed ∧ ∃ f, out.2 = some f ∧ f.failure ≠ .aborted := by
  cases finish with
  | completed calm =>
      rw [world_changed, calm] at asked
      cases asked
  | aborted _ => exact .inl ⟨status_changed _ _, rfl⟩
  | gaveUp _ _ _ _ => exact .inl ⟨status_changed _ _, rfl⟩
  | failed _ _ _ _ other _ => exact .inr ⟨status_changed _ _, _, rfl, other⟩

theorem execute_of_asked (runId : Option String)
    (reached : Machine.Passes w.watched (s.watched.launch w.watched program) m)
    (asked : w.watched.aborted m.session.world = true) :
    (s.execute w program runId).1.status = .aborted ∧
      (s.execute w program runId).1.executed = m.executed ∧
      (s.execute w program runId).2.session.journal =
        .runAborted none :: .status .running .aborted :: m.session.journal ∧
      (s.watched.execute w.watched program runId).2.session.world.moments =
        ⟨.now, true⟩ :: m.session.world.moments := by
  have run_eq := reached.run_eq.trans (Machine.run_of_aborted asked)
  have settled_eq : s.watched.settled w.watched program =
      ((m.session.changed .aborted).noted (.runAborted none), none) := by
    rw [settled, run_eq]
    rfl
  obtain ⟨last?, told⟩ := Machine.exists_told_of_passes reached
  have changed_eq : m.session.changed .aborted =
      { m.session.noted (.status .running .aborted) with status := .aborted } := by
    rw [changed, told.status_eq, if_neg (by decide)]
  rw [execute_watched, execute_eq, settled_eq, run_eq, changed_eq]
  refine ⟨rfl, rfl, rfl, ?_⟩
  exact congrArg (fun late => ⟨.now, late⟩ :: m.session.world.moments) asked

/-- How a run heeds a wish to abort, by its report and by the calls of the watched run. -/
structure AbortSafe (w : World σ) (program : Program) (s : Session σ) (runId : Option String) :
    Prop where
  watched_eq : s.execute w program runId = ((s.watched.execute w.watched program runId).1,
    (s.watched.execute w.watched program runId).2.unwatched)
  captures : ∀ x ∈ (s.watched.execute w.watched program runId).2.session.world.moments,
    x.late = true → x.call ≠ .capture
  inputs : (s.watched.execute w.watched program runId).2.session.world.lateInputs ≤ 1
  /-- Where the wish shows between two instructions, no other is dispatched and no call is made. -/
  stops : ∀ m, Machine.Passes w.watched (s.watched.launch w.watched program) m →
    w.watched.aborted m.session.world = true ∨ (∃ x ∈ m.session.world.moments, x.late = true) →
      (s.execute w program runId).1.status = .aborted ∧
        (s.execute w program runId).1.executed = m.executed ∧
        (s.execute w program runId).2.session.journal =
          .runAborted none :: .status .running .aborted :: m.session.journal ∧
        (s.watched.execute w.watched program runId).2.session.world.moments =
          ⟨.now, true⟩ :: m.session.world.moments
  outcome : w.watched.aborted (s.watched.execute w.watched program runId).2.session.world = true ∨
      (∃ x ∈ (s.watched.execute w.watched program runId).2.session.world.moments, x.late = true) →
    (s.execute w program runId).1.status = .aborted ∧
        (s.execute w program runId).1.failure = none ∨
      (s.execute w program runId).1.status = .failed ∧
        ∃ f, (s.execute w program runId).1.failure = some f ∧ f.failure ≠ .aborted ∧
          f.Names program (s.execute w program runId).2.session.journal

/--
No `try`, optional step, loop, search or wait keeps a run from heeding an abort: from then on it takes
no capture and dispatches no instruction, sends at most the input of the instruction in progress, and
ends aborted, unless this instruction fails for another reason that no `try` skips.
-/
theorem execute_abortSafe (w : World σ) (stays : w.AbortStays) (program : Program) (s : Session σ)
    (runId : Option String) : AbortSafe w program s runId := by
  obtain ⟨m, passes, finish⟩ := exists_finish w.watched program s.watched
  have heeds := heeds_of_finish stays passes finish
  have last_heeds : (s.watched.execute w.watched program runId).2.session.world.Heeds
      w.toSurroundings 1 :=
    heeds.after_other (fun asked => (stays.now _).trans asked) rfl
  exact {
    watched_eq := execute_watched w program s runId
    captures := last_heeds.captures
    inputs := last_heeds.inputs_le
    stops := fun n reached wish =>
      execute_of_asked runId reached ((Machine.heeds_of_passes stays reached).asked_of_wish wish)
    outcome := by
      intro wish
      have asked := last_heeds.asked_of_wish wish
      rw [execute_eq] at asked
      have before : w.watched.aborted (s.watched.settled w.watched program).1.world = true :=
        (stays.now _).symm.trans asked
      obtain ⟨-, -, -, -, -, names⟩ := exists_told_of_finish passes finish
      rw [execute_watched, execute_eq]
      rcases status_of_finish finish before with aborted | ⟨failed, f, reported, other⟩
      · exact .inl aborted
      · exact .inr ⟨failed, f, reported, other, names f reported⟩ }

end Session

end Runs

/-! ## An abort in a `try` -/

def guardedPress : Program where
  instructions :=
    [.guard ⟨0, 1⟩ [.act ⟨1, 2⟩ (.press ⟨[.literal "a"]⟩)], .act ⟨2, 4⟩ (.press ⟨[.literal "b"]⟩)]
  size := 3

def abortedInput : World (Rehearsal Supplies) :=
  Rehearsal.world { frames := #[], inputAbort := some 1 } Supplies.template none

theorem Session.execute_abortSafe_guardedPress :
    abortedInput.AbortStays ∧
      ((start { rest := {} } guardedPress).execute abortedInput guardedPress).1.status = .aborted ∧
      ((start { rest := {} } guardedPress).execute abortedInput guardedPress).1.executed = 2 := by
  have stays : abortedInput.AbortStays := Rehearsal.surroundings_abortStays _ _ _
  have safe := execute_abortSafe abortedInput stays guardedPress (start { rest := {} } guardedPress)
    none
  refine ⟨stays, ?_, by decide +kernel⟩
  rcases safe.outcome (.inl (by decide +kernel)) with aborted | ⟨failed, -⟩
  · exact aborted.1
  · exact absurd failed (by decide +kernel)

end ScreenScript
