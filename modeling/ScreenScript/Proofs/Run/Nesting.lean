import ScreenScript.Proofs.Run.Frames
import ScreenScript.Rehearsal
import ScreenScript.Rehearsal.Supplies

/-!
# How deep the frames lie

The stacks of frames that a run comes to (`Session.HasFrames`) are those between two instructions, those
while an instruction is carried out, and what is left at the end. In all of them each frame lies in the
instruction that the frame below it took last (`Session.nested_of_hasFrames`), so no stack is deeper than
the program.
-/

namespace ScreenScript

def Program.depth (p : Program) : Nat :=
  (p.walk.map Prod.fst).max?.getD 0

theorem Program.length_le_depth {p : Program} {around : List Instruction} {i : Instruction}
    (h : (around, i) ∈ p.places) : around.length ≤ p.depth :=
  List.le_max?_getD_of_mem (List.mem_map_of_mem (mem_walk_of_mem_places h))

namespace Frame

def Took (f : Frame) (i : Instruction) : Prop :=
  0 < f.done ∧ f.body[f.done - 1]? = some i

/--
Whether the frames of a stack, the top one first, lie in each other as the bodies of a program do, and
are guarded exactly inside a `try`.
-/
structure Nested (program : Program) (frames : List Frame) : Prop where
  bottom : ∀ f, [f] <:+ frames → f.body = program.instructions
  child : ∀ f g below, f :: g :: below <:+ frames →
    ∃ i, g.Took i ∧ f.body ∈ i.children ∧ f.body ≠ []
  sound : ∀ f ∈ frames, f.done ≤ f.body.length ∧ 1 ≤ f.passes
  guarded_iff : ∀ f below, f :: below <:+ frames →
    (f.guarded = true ↔ ∃ g ∈ below, ∃ i, g.Took i ∧ i.isGuard = true)
  length_le : frames.length ≤ program.depth + 1

theorem nested_nil (program : Program) : Nested program [] where
  bottom _ suffix := nomatch List.suffix_nil.1 suffix
  child _ _ _ suffix := nomatch List.suffix_nil.1 suffix
  sound := nofun
  guarded_iff _ _ suffix := nomatch List.suffix_nil.1 suffix
  length_le := Nat.zero_le _

namespace Stack

variable {top around : List Instruction} {frames : List Frame} {f : Frame} {below : List Frame}

theorem exists_of_suffix (h : Stack top around frames) (suffix : f :: below <:+ frames) :
    ∃ outer, Stack top outer (f :: below) := by
  induction h with
  | bottom body unguarded sound =>
      rcases List.suffix_cons_iff.1 suffix with same | inside
      · cases same
        exact ⟨[], .bottom body unguarded sound⟩
      · cases List.suffix_nil.1 inside
  | above lower started taken body filled guarded sound ih =>
      rcases List.suffix_cons_iff.1 suffix with same | inside
      · cases same
        exact ⟨_, .above lower started taken body filled guarded sound⟩
      · exact ih inside

theorem length_eq (h : Stack top around frames) : frames.length = around.length + 1 := by
  induction h with
  | bottom => rfl
  | above _ _ _ _ _ _ _ ih => rw [List.length_cons, ih, List.length_cons]

theorem mem_around_iff (h : Stack top around (f :: below)) {j : Instruction} :
    j ∈ around ↔ ∃ g ∈ below, g.Took j := by
  generalize frames : f :: below = stack at h
  induction h generalizing f below with
  | bottom =>
      cases frames
      simp
  | @above around f g below i lower started taken _ _ _ _ ih =>
      cases frames
      have took : g.Took j ↔ j = i := by
        rw [Took, taken, Option.some_inj, eq_comm]
        exact and_iff_right started
      simp only [List.mem_cons, exists_eq_or_imp, took, ih rfl]

theorem guarded_iff (h : Stack top around (f :: below)) :
    f.guarded = true ↔ ∃ g ∈ below, ∃ i, g.Took i ∧ i.isGuard = true := by
  rw [h.guarded_eq, List.any_eq_true]
  constructor
  · rintro ⟨i, member, guards⟩
    obtain ⟨g, lower, took⟩ := h.mem_around_iff.1 member
    exact ⟨g, lower, i, took, guards⟩
  · rintro ⟨g, lower, i, took, guards⟩
    exact ⟨i, h.mem_around_iff.2 ⟨g, lower, took⟩, guards⟩

variable {program : Program}

theorem length_le_depth (h : Stack program.instructions around frames) :
    frames.length ≤ program.depth + 1 := by
  cases h with
  | bottom => exact Nat.succ_le_succ (Nat.zero_le _)
  | above lower started taken body filled guarded sound =>
      -- The body of the top frame is not empty, and what is in it stands as deep as the stack is high.
      have stack := Stack.above lower started taken body filled guarded sound
      obtain ⟨i, member⟩ := List.exists_mem_of_ne_nil _ filled
      rw [stack.length_eq]
      exact Nat.succ_le_succ (Program.length_le_depth (stack.mem_placesAll member))

theorem nested (h : Stack program.instructions around frames) : Nested program frames where
  bottom f suffix := by
    obtain ⟨outer, stack⟩ := h.exists_of_suffix suffix
    cases stack with
    | bottom body => exact body
  child f g below suffix := by
    obtain ⟨outer, stack⟩ := h.exists_of_suffix suffix
    cases stack with
    | above _ started taken body filled => exact ⟨_, ⟨started, taken⟩, body, filled⟩
  sound f member := by
    obtain ⟨above, below, rfl⟩ := List.append_of_mem member
    obtain ⟨outer, stack⟩ := h.exists_of_suffix (List.suffix_append above (f :: below))
    exact ⟨stack.sound.done_le, stack.sound.passes_pos⟩
  guarded_iff f below suffix := by
    obtain ⟨outer, stack⟩ := h.exists_of_suffix suffix
    exact stack.guarded_iff
  length_le := h.length_le_depth

end Stack

end Frame

namespace Session

variable {σ : Type} {w : World σ} {program : Program} {s : Session σ} {frames : List Frame}

/-- The stacks of frames that there are in a run. -/
inductive HasFrames (w : World σ) (program : Program) (s : Session σ) : List Frame → Prop where
  | between {m : Machine σ} (passes : Machine.Passes w (s.launch w program) m) :
    HasFrames w program s m.frames
  /-- While an instruction is carried out, its frame is already at the next one. -/
  | during {m : Machine σ} {f : Frame} {below : List Frame} {i : Instruction}
    (passes : Machine.Passes w (s.launch w program) m)
    (calm : w.aborted m.session.world = false) (frames : m.frames = f :: below)
    (found : f.body[f.done]? = some i) :
    HasFrames w program s ({ f with done := f.done + 1 } :: below)
  | after (runId : Option String) : HasFrames w program s (s.execute w program runId).2.frames

/-- In every run the frames lie in each other as the bodies of the program do. -/
theorem nested_of_hasFrames (h : HasFrames w program s frames) : Frame.Nested program frames := by
  cases h with
  | between passes =>
      rcases Machine.stacked_of_passes passes with empty | ⟨around, stack⟩
      · exact empty ▸ Frame.nested_nil program
      · exact stack.nested
  | during passes _ frames found =>
      obtain ⟨around, stack⟩ := (Machine.stacked_of_passes passes).exists_stack frames
      exact (stack.took found).nested
  | after runId =>
      have empty : ((s.launch w program).run w).2.frames = [] :=
        Machine.frames_of_ends (Machine.ends_run w _)
      rw [execute_eq, empty]
      exact Frame.nested_nil program

end Session

/-! ## A loop in a `try` -/

def guardedLoop : Program where
  instructions :=
    [.guard ⟨0, 1⟩ [.loop ⟨1, 2⟩ (.number 2.0) [.act ⟨2, 3⟩ (.press ⟨[.literal "a"]⟩)]]]
  size := 3

def stillScreen : World (Rehearsal Supplies) :=
  Rehearsal.world { frames := #[] } Supplies.template none

theorem Session.nested_of_hasFrames_guardedLoop :
    ∃ frames, HasFrames stillScreen guardedLoop (.start { rest := {} } guardedLoop) frames ∧
      Frame.Nested guardedLoop frames ∧ frames.length = guardedLoop.depth + 1 ∧
      frames.map Frame.guarded = [true, true, false] := by
  let m := launch stillScreen guardedLoop (.start { rest := {} } guardedLoop)
  have entered : Machine.Passes stillScreen m _ := .on .here (Machine.next_eq_iff.1 rfl)
  have looped := entered.on (Machine.next_eq_iff.1 rfl)
  exact ⟨_, .between looped, nested_of_hasFrames (.between looped), by decide +kernel, rfl⟩

end ScreenScript
