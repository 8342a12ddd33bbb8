import ScreenScript.Proofs.Run.Interpreter

/-!
# The frames run the tree

The stack of frames is a record of what is left of the tree: of each frame, the instructions of this
pass and the passes after it, and then the frames below (`Frame.interpret`, `Machine.interpret`). A
step of the machine changes the record, but not what it means:

* `Instruction.interpret_eq_step`: what an instruction does in the recursive reading is one step, and
  then the frame that it opens;
* `Machine.interpret_next`: a step leaves the meaning of the machine as it is;
* `Session.execute_eq_interpret`: every run comes to an end, and it is the recursive reading.
-/

namespace ScreenScript

open Instruction (interpretAll)

variable {σ : Type}

/-! ## What frames stand for -/

namespace Frame

/-- The rest of a frame: this pass, and the passes after it. -/
def interpret (w : World σ) (f : Frame) : Course σ :=
  (interpretAll w f.guarded (f.body.drop f.done)).andThen
    ((interpretAll w f.guarded f.body).times (f.passes - 1))

def interpretStack (w : World σ) : List Frame → Course σ
  | [] => .done
  | f :: below => (f.interpret w).andThen (interpretStack w below)

theorem interpretStack_append (w : World σ) (above below : List Frame) :
    interpretStack w (above ++ below) =
      (interpretStack w above).andThen (interpretStack w below) := by
  induction above with
  | nil => rfl
  | cons f above ih => rw [List.cons_append, interpretStack, ih, interpretStack, Course.andThen_assoc]

theorem interpret_of_dispatch (w : World σ) {f : Frame} {i : Instruction}
    (h : f.body[f.done]? = some i) :
    f.interpret w =
      (i.interpret w f.guarded).andThen (({ f with done := f.done + 1 } : Frame).interpret w) := by
  obtain ⟨inside, rfl⟩ := List.getElem?_eq_some_iff.1 h
  rw [interpret, List.drop_eq_getElem_cons inside, interpretAll, Course.andThen_assoc]
  rfl

theorem interpret_of_over (w : World σ) {f : Frame} (h : f.body[f.done]? = none) :
    f.interpret w = (interpretAll w f.guarded f.body).times (f.passes - 1) := by
  rw [interpret, List.drop_eq_nil_of_le (List.getElem?_eq_none_iff.1 h), interpretAll,
    Course.done_andThen]

theorem interpret_again (w : World σ) {f : Frame} (ended : f.body[f.done]? = none)
    (more : 1 < f.passes) :
    f.interpret w = ({ f with passes := f.passes - 1, done := 0 } : Frame).interpret w := by
  obtain ⟨n, passes⟩ := Nat.exists_eq_add_of_lt more
  have left : f.passes - 1 = n + 1 := by omega
  rw [interpret_of_over w ended, interpret, left]
  rfl

theorem interpret_last (w : World σ) {f : Frame} (ended : f.body[f.done]? = none)
    (last : ¬ 1 < f.passes) : f.interpret w = .done := by
  have none_left : f.passes - 1 = 0 := by omega
  rw [interpret_of_over w ended, none_left]
  rfl

end Frame

theorem Flow.interpret_enter (w : World σ) (guarded : Bool) (body : List Instruction)
    (passes : UInt32) :
    Frame.interpretStack w ((Flow.enter body passes).frame? guarded).toList =
      (interpretAll w guarded body).times passes.toNat := by
  by_cases h : passes = 0 ∨ body = []
  · rw [frame?, if_pos h]
    rcases h with rfl | rfl
    · rfl
    · exact (Course.times_done _).symm
  · have positive : passes.toNat ≠ 0 := fun zero => h (.inl (UInt32.toNat_inj.1 zero))
    obtain ⟨n, hn⟩ := Nat.exists_eq_succ_of_ne_zero positive
    rw [frame?, if_neg h]
    simp only [Option.toList, Frame.interpretStack, Frame.interpret, List.drop_zero, hn,
      Course.andThen_done]
    rfl

theorem Flow.interpret_guard (w : World σ) (guarded : Bool) (body : List Instruction) :
    Frame.interpretStack w ((Flow.guard body).frame? guarded).toList = interpretAll w true body := by
  by_cases h : body = []
  · rw [frame?, if_pos h, h]
    rfl
  · rw [frame?, if_neg h]
    simp only [Option.toList, Frame.interpretStack, Frame.interpret, List.drop_zero,
      Course.andThen_done]
    exact Course.andThen_done _

/-! ## One instruction -/

theorem Session.step_branch (w : World σ) (place : Place) (target : Target)
    (found missed : List Instruction) :
    step w (.branch place target found missed) =
      (fun isFound => Flow.enter (if isFound then found else missed) 1) <$> seek w target := by
  simp only [step, seek, map_bind, map_pure]

theorem Instruction.interpret_eq_step (w : World σ) (guarded : Bool) (i : Instruction) :
    i.interpret w guarded = .dispatch w guarded i (Session.step w i) fun flow =>
      Frame.interpretStack w (flow.frame? guarded).toList := by
  cases i with
  | act place action =>
      rw [interpret, Session.step, Course.dispatch_map]
      rfl
  | loop place count body =>
      rw [interpret, Session.step, Course.dispatch_map]
      simp only [Flow.interpret_enter]
  | branch place target found missed =>
      rw [interpret, Session.step_branch, Course.dispatch_map]
      congr 1
      funext isFound
      rw [Flow.interpret_enter]
      cases isFound <;> exact (Course.andThen_done _).symm
  | guard place body =>
      have step : Session.step w (.guard place body) = (fun _ => Flow.guard body) <$> pure () := rfl
      rw [interpret, step, Course.dispatch_map]
      simp only [Flow.interpret_guard]

/-! ## Aborted runs -/

namespace Course

def Idle (k : Walk σ) (a : Course σ) : Prop :=
  a k = (.completed, k) ∨ a k = (.stopped none .aborted, k)

theorem Idle.andThen {k : Walk σ} {a b : Course σ} (ha : Idle k a) (hb : Idle k b) :
    Idle k (a.andThen b) := by
  rcases ha with ended | stopped
  · rwa [Idle, andThen_of_completed ended]
  · exact .inr (andThen_of_stopped stopped)

theorem Idle.times {k : Walk σ} {a : Course σ} (ha : Idle k a) (n : Nat) : Idle k (a.times n) := by
  induction n with
  | zero => exact .inl rfl
  | succ n ih => exact ha.andThen ih

variable {w : World σ} {k : Walk σ} (aborted : w.aborted k.session.world = true)
include aborted

theorem look_of_aborted : look w k = (.stopped none .aborted, k) := by
  rw [look, if_pos aborted]

theorem idle_interpretAll (guarded : Bool) (body : List Instruction) :
    Idle k (interpretAll w guarded body) := by
  cases body with
  | nil => exact .inl rfl
  | cons i rest =>
      rw [interpretAll, Instruction.interpret_eq_step, dispatch, andThen_assoc]
      exact .inr (andThen_of_stopped (look_of_aborted aborted))

theorem idle_interpretStack (frames : List Frame) : Idle k (Frame.interpretStack w frames) := by
  induction frames with
  | nil => exact .inl rfl
  | cons f below ih =>
      have pass := idle_interpretAll aborted f.guarded
      exact ((pass _).andThen ((pass f.body).times _)).andThen ih

end Course

/-! ## Steps of the machine -/

namespace Machine

def interpret (w : World σ) (m : Machine σ) : Ending × Walk σ :=
  (Frame.interpretStack w m.frames).andThen (.look w) ⟨m.session, m.executed⟩

def Step.interpret (w : World σ) : Step σ → Ending × Walk σ
  | .ended ending m => (ending, ⟨m.session, m.executed⟩)
  | .goesOn m => m.interpret w

theorem interpret_of_aborted {w : World σ} {m : Machine σ}
    (aborted : w.aborted m.session.world = true) :
    m.interpret w = (.stopped none .aborted, ⟨m.session, m.executed⟩) := by
  have idle := Course.idle_interpretStack (k := ⟨m.session, m.executed⟩) aborted m.frames
  have look := Course.look_of_aborted (k := ⟨m.session, m.executed⟩) aborted
  rcases idle with ended | stopped
  · rw [interpret, Course.andThen_of_completed ended, look]
  · exact Course.andThen_of_stopped stopped

theorem interpret_next (w : World σ) (m : Machine σ) : (m.next w).interpret w = m.interpret w := by
  obtain ⟨session, frames, executed⟩ := m
  by_cases aborted : w.aborted session.world = true
  · rw [next, if_pos aborted, interpret_of_aborted aborted]
    rfl
  have looked : Course.look w ⟨session, executed⟩ = (.completed, ⟨session, executed⟩) := by
    rw [Course.look, if_neg aborted]
  rw [next, if_neg aborted]
  cases frames with
  | nil => exact looked.symm
  | cons f below =>
      have whole : interpret w ⟨session, f :: below, executed⟩ =
          ((f.interpret w).andThen ((Frame.interpretStack w below).andThen (.look w)))
            ⟨session, executed⟩ := by
        rw [interpret, Frame.interpretStack, Course.andThen_assoc]
      rw [whole]
      cases found : f.body[f.done]? with
      | none =>
          simp only [found]
          by_cases more : 1 < f.passes
          · rw [if_pos more, Frame.interpret_again w found more]
            simp only [Step.interpret, interpret, Frame.interpretStack, Course.andThen_assoc]
          · rw [if_neg more, Frame.interpret_last w found more]
            rfl
      | some i =>
          simp only [found]
          rw [Frame.interpret_of_dispatch w found, Instruction.interpret_eq_step, Course.dispatch,
            Course.andThen_assoc, Course.andThen_assoc, Course.andThen_of_completed looked,
            Course.andThen, Course.carryOut]
          rcases (Session.step w i).on _ with ⟨result, session'⟩
          cases result with
          | ok flow =>
              simp only [Step.interpret, interpret, Frame.interpretStack_append,
                Course.andThen_assoc, Frame.interpretStack]
              rfl
          | error failure =>
              simp only
              split
              · simp only [Step.interpret, interpret, Frame.interpretStack, Course.andThen_assoc]
              · rfl

/-! ## Runs -/

/-- Finitely many steps lead from a machine to the end of its run. -/
inductive Ends (w : World σ) : Machine σ → Ending → Machine σ → Prop where
  | now {m last : Machine σ} {ending : Ending} : m.next w = .ended ending last → Ends w m ending last
  | later {m n last : Machine σ} {ending : Ending} :
      m.next w = .goesOn n → Ends w n ending last → Ends w m ending last

theorem ends_run (w : World σ) (m : Machine σ) : Ends w m (m.run w).1 (m.run w).2 := by
  fun_induction Machine.run w m with
  | case1 m ending last h => exact .now h
  | case2 m n h ih => exact .later h ih

theorem interpret_of_ends {w : World σ} {m last : Machine σ} {ending : Ending}
    (h : Ends w m ending last) : m.interpret w = (ending, ⟨last.session, last.executed⟩) := by
  induction h with
  | now ended => rw [← interpret_next, ended, Step.interpret]
  | later goesOn _ ih => rw [← interpret_next, goesOn, Step.interpret, ih]

theorem frames_of_ended {w : World σ} {m last : Machine σ} {ending : Ending}
    (h : m.next w = .ended ending last) : last.frames = [] := by
  unfold next at h
  split at h
  · cases h
    rfl
  · split at h
    · cases h
      assumption
    · split at h
      · split at h <;> cases h
      · dsimp only at h
        split at h
        · cases h
        · split at h <;> cases h
          rfl

theorem frames_of_ends {w : World σ} {m last : Machine σ} {ending : Ending}
    (h : Ends w m ending last) : last.frames = [] := by
  induction h with
  | now ended => exact frames_of_ended ended
  | later _ _ ih => exact ih

theorem interpret_start (w : World σ) (program : Program) (s : Session σ) :
    (start program s).interpret w = program.interpret w { session := s } := by
  rw [interpret, start, Program.interpret]
  simp only [Frame.interpretStack, Frame.interpret, List.drop_zero, Nat.sub_self, Course.times,
    Course.andThen_done]

theorem interpret_eq_run (w : World σ) (program : Program) (s : Session σ) :
    program.interpret w { session := s } =
      (((start program s).run w).1,
        ⟨((start program s).run w).2.session, ((start program s).run w).2.executed⟩) := by
  rw [← interpret_start]
  exact interpret_of_ends (ends_run w _)

end Machine

/--
A run comes to an end after finitely many steps, with no frame left, and it is the recursive reading
of the program: the same ending and the same number of instructions dispatched, in the same session,
which holds the journal (with every dispatch and every input, in order), the variables, the status and
the world. So the whole report is the same.
-/
theorem Session.execute_eq_interpret (w : World σ) (program : Program) (s : Session σ)
    (runId : Option String) :
    (∃ ending last,
      Machine.Ends w (.start program (s.inWorld (w.now s.world).2).fresh) ending last ∧
      program.interpret w { session := (s.inWorld (w.now s.world).2).fresh } =
        (ending, ⟨last.session, last.executed⟩) ∧
      last.frames = []) ∧
    ((s.execute w program runId).1, (s.execute w program runId).2.session) =
      s.interpret w program runId := by
  constructor
  · exact ⟨_, _, Machine.ends_run w _, Machine.interpret_eq_run w program _,
      Machine.frames_of_ends (Machine.ends_run w _)⟩
  · rw [execute, interpret]
    simp only [Machine.interpret_eq_run]
    rfl

end ScreenScript
