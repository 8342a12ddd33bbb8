import ScreenScript.Proofs.Run.Refinement

namespace ScreenScript

namespace Machine

variable {σ : Type}

def dispatched (m : Machine σ) (i : Instruction) : Session σ :=
  m.session.noted (.dispatch i.index i.line i.keyword)

inductive Moves (w : World σ) (m : Machine σ) : Step σ → Prop where
  | aborted (asked : w.aborted m.session.world = true) :
    Moves w m (.ended (.stopped none .aborted) { m with frames := [] })
  | completed (calm : w.aborted m.session.world = false) (finished : m.frames = []) :
    Moves w m (.ended .completed m)
  | again {f : Frame} {below : List Frame} (calm : w.aborted m.session.world = false)
    (frames : m.frames = f :: below) (finished : f.body[f.done]? = none) (more : 1 < f.passes) :
    Moves w m (.goesOn { m with frames := { f with passes := f.passes - 1, done := 0 } :: below })
  | left {f : Frame} {below : List Frame} (calm : w.aborted m.session.world = false)
    (frames : m.frames = f :: below) (finished : f.body[f.done]? = none) (last : ¬ 1 < f.passes) :
    Moves w m (.goesOn { m with frames := below })
  | did {f : Frame} {below : List Frame} {i : Instruction} {flow : Flow} {session : Session σ}
    (calm : w.aborted m.session.world = false) (frames : m.frames = f :: below)
    (found : f.body[f.done]? = some i)
    (made : (Session.step w i).on (m.dispatched i) = (.ok flow, session)) :
    Moves w m (.goesOn ⟨session,
      (flow.frame? f.guarded).toList ++ { f with done := f.done + 1 } :: below, m.executed + 1⟩)
  | skipped {f : Frame} {below : List Frame} {i : Instruction} {failure : Failure}
    {session : Session σ}
    (calm : w.aborted m.session.world = false) (frames : m.frames = f :: below)
    (found : f.body[f.done]? = some i)
    (made : (Session.step w i).on (m.dispatched i) = (.error failure, session))
    (guarded : f.guarded = true) (recoverable : failure.isRecoverable = true) :
    Moves w m (.goesOn ⟨session.noted (.skipped i.index i.line failure),
      { f with done := f.done + 1 } :: below, m.executed + 1⟩)
  | failed {f : Frame} {below : List Frame} {i : Instruction} {failure : Failure}
    {session : Session σ}
    (calm : w.aborted m.session.world = false) (frames : m.frames = f :: below)
    (found : f.body[f.done]? = some i)
    (made : (Session.step w i).on (m.dispatched i) = (.error failure, session))
    (uncaught : failure.isRecoverable = true → f.guarded = false) :
    Moves w m (.ended (.stopped (some i) failure) ⟨session, [], m.executed + 1⟩)

theorem moves_next (w : World σ) (m : Machine σ) : Moves w m (m.next w) := by
  unfold next
  cases asked : w.aborted m.session.world with
  | true => exact .aborted asked
  | false =>
      simp only [Bool.false_eq_true, if_false]
      cases frames : m.frames with
      | nil => exact .completed asked frames
      | cons f below =>
          cases found : f.body[f.done]? with
          | none =>
              simp only [found]
              by_cases more : 1 < f.passes
              · rw [if_pos more]
                exact .again asked frames found more
              · rw [if_neg more]
                exact .left asked frames found more
          | some i =>
              simp only [found]
              rcases made : (Session.step w i).on (m.dispatched i) with ⟨result, session⟩
              rw [dispatched] at made
              cases result with
              | ok flow =>
                  simp only [made]
                  exact .did asked frames found made
              | error failure =>
                  simp only [made]
                  by_cases caught : (f.guarded && failure.isRecoverable) = true
                  · rw [if_pos caught]
                    obtain ⟨guarded, recoverable⟩ := Bool.and_eq_true_iff.1 caught
                    exact .skipped asked frames found made guarded recoverable
                  · rw [if_neg caught]
                    refine .failed asked frames found made fun recoverable => ?_
                    simpa [recoverable] using caught

theorem next_of_moves {w : World σ} {m : Machine σ} {step : Step σ} (h : Moves w m step) :
    m.next w = step := by
  cases h with
  | aborted asked => rw [next, if_pos asked]
  | completed calm finished => simp [next, calm, finished]
  | again calm frames finished more => simp [next, calm, frames, finished, more]
  | left calm frames finished last => simp [next, calm, frames, finished, last]
  | did calm frames found made =>
      rw [dispatched] at made
      simp [next, calm, frames, found, made]
  | skipped calm frames found made guarded recoverable =>
      rw [dispatched] at made
      simp [next, calm, frames, found, made, guarded, recoverable]
  | @failed f below i failure session calm frames found made uncaught =>
      rw [dispatched] at made
      have caught : (f.guarded && failure.isRecoverable) = false := by
        cases recoverable : failure.isRecoverable with
        | true => rw [uncaught recoverable, Bool.false_and]
        | false => exact Bool.and_false _
      simp [next, calm, frames, found, made, caught]

theorem next_eq_iff {w : World σ} {m : Machine σ} {step : Step σ} :
    m.next w = step ↔ Moves w m step :=
  ⟨fun h => h ▸ moves_next w m, next_of_moves⟩

/-! ## Runs -/

theorem run_eq (w : World σ) (m : Machine σ) :
    m.run w = match m.next w with
      | .ended ending last => (ending, last)
      | .goesOn n => n.run w := by
  rw [run]
  split <;> simp [*]

theorem run_of_aborted {w : World σ} {m : Machine σ} (asked : w.aborted m.session.world = true) :
    m.run w = (.stopped none .aborted, { m with frames := [] }) := by
  rw [run_eq, next_of_moves (.aborted asked)]

/-- The machines that a run passes through after one of them. -/
inductive Passes (w : World σ) (m : Machine σ) : Machine σ → Prop where
  | here : Passes w m m
  | on {n next : Machine σ} : Passes w m n → Moves w n (.goesOn next) → Passes w m next

variable {w : World σ} {m n : Machine σ}

theorem Passes.run_eq (h : Passes w m n) : m.run w = n.run w := by
  induction h with
  | here => rfl
  | on _ moves ih => rw [ih, Machine.run_eq, next_of_moves moves]

theorem Passes.keeps {P : Machine σ → Prop} (start : P m)
    (step : ∀ n next, P n → Moves w n (.goesOn next) → P next) (h : Passes w m n) : P n := by
  induction h with
  | here => exact start
  | on _ moves ih => exact step _ _ ih moves

theorem Passes.keeps_session {I : Session σ → Prop} (h : Passes w m n) (start : I m.session)
    (made : ∀ (k : Machine σ) i result after, I k.session → w.aborted k.session.world = false →
      (Session.step w i).on (k.dispatched i) = (result, after) → I after)
    (skipped : ∀ s index line failure, I s → I (s.noted (.skipped index line failure))) :
    I n.session := by
  refine h.keeps (P := fun m => I m.session) start ?_
  intro k next kept moves
  cases moves with
  | again | left => exact kept
  | did calm _ _ carriedOut => exact made k _ _ _ kept calm carriedOut
  | skipped calm _ _ carriedOut _ _ =>
      exact skipped _ _ _ _ (made k _ _ _ kept calm carriedOut)

theorem Passes.after {k : Machine σ} (first : Moves w m (.goesOn n)) (h : Passes w n k) :
    Passes w m k := by
  induction h with
  | here => exact .on .here first
  | on _ moves ih => exact .on ih moves

theorem exists_passes_run (w : World σ) (m : Machine σ) :
    ∃ n, Passes w m n ∧ Moves w n (.ended (m.run w).1 (m.run w).2) := by
  fun_induction Machine.run w m with
  | case1 m ending last ended => exact ⟨m, .here, next_eq_iff.1 ended⟩
  | case2 m n goesOn ih =>
      obtain ⟨k, passes, ended⟩ := ih
      exact ⟨k, passes.after (next_eq_iff.1 goesOn), ended⟩

end Machine

/-! ## Runs of programs -/

namespace Session

variable {σ : Type}

def launch (w : World σ) (program : Program) (s : Session σ) : Machine σ :=
  .start program (s.inWorld (w.now s.world).2).fresh

def settled (w : World σ) (program : Program) (s : Session σ) : Session σ × Option FailureReport :=
  settle ((s.launch w program).run w).1 ((s.launch w program).run w).2.session

inductive Finish (w : World σ) (m : Machine σ) : Session σ × Option FailureReport → Prop where
  | completed (calm : w.aborted m.session.world = false) :
    Finish w m (m.session.changed .completed, none)
  | aborted (asked : w.aborted m.session.world = true) :
    Finish w m ((m.session.changed .aborted).noted (.runAborted none), none)
  | gaveUp {f : Frame} {below : List Frame} {i : Instruction} {after : Session σ}
    (calm : w.aborted m.session.world = false) (frames : m.frames = f :: below)
    (found : f.body[f.done]? = some i)
    (made : (step w i).on (m.dispatched i) = (.error .aborted, after)) :
    Finish w m ((after.changed .aborted).noted (.runAborted (some (i.index, i.line))), none)
  | failed {f : Frame} {below : List Frame} {i : Instruction} {failure : Failure}
    {after : Session σ}
    (calm : w.aborted m.session.world = false) (frames : m.frames = f :: below)
    (found : f.body[f.done]? = some i)
    (made : (step w i).on (m.dispatched i) = (.error failure, after))
    (other : failure ≠ .aborted) (uncaught : failure.isRecoverable = true → f.guarded = false) :
    Finish w m ((after.changed .failed).noted (.runFailed i.index i.line failure),
      some ⟨i.index, i.line, i.keyword, failure⟩)

theorem settle_of_ne_aborted {failure : Failure} (other : failure ≠ .aborted) (i : Instruction)
    (s : Session σ) :
    settle (.stopped (some i) failure) s =
      ((s.changed .failed).noted (.runFailed i.index i.line failure),
        some ⟨i.index, i.line, i.keyword, failure⟩) := by
  cases failure <;> first | rfl | exact absurd rfl other

theorem exists_finish (w : World σ) (program : Program) (s : Session σ) :
    ∃ m, Machine.Passes w (s.launch w program) m ∧ Finish w m (s.settled w program) := by
  obtain ⟨m, passes, ended⟩ := Machine.exists_passes_run w (s.launch w program)
  refine ⟨m, passes, ?_⟩
  rw [settled]
  generalize (s.launch w program).run w = result at ended
  obtain ⟨ending, last⟩ := result
  cases ended with
  | aborted asked => exact .aborted asked
  | completed calm _ => exact .completed calm
  | @failed f below i failure after calm frames found made uncaught =>
      by_cases aborted : failure = .aborted
      · cases aborted
        exact .gaveUp calm frames found made
      · rw [settle_of_ne_aborted aborted]
        exact .failed calm frames found made aborted uncaught

theorem execute_eq (w : World σ) (program : Program) (s : Session σ) (runId : Option String) :
    s.execute w program runId =
      ({ runId, status := (s.settled w program).1.status
         executed := ((s.launch w program).run w).2.executed
         elapsedMs := Duration.milliseconds
          ((w.now (s.settled w program).1.world).1 - (w.now s.world).1)
         failure := (s.settled w program).2 },
        { ((s.launch w program).run w).2 with
          session := (s.settled w program).1.inWorld (w.now (s.settled w program).1.world).2 }) :=
  rfl

end Session

end ScreenScript
