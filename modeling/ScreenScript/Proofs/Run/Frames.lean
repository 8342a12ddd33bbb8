import ScreenScript.Proofs.Attempt
import ScreenScript.Proofs.Run.Steps
import ScreenScript.Proofs.Script.Places

namespace ScreenScript

def Instruction.isGuard : Instruction → Bool
  | guard .. => true
  | _ => false

namespace Frame

/-- A frame in some pass, somewhere in its body. -/
structure Sound (f : Frame) : Prop where
  done_le : f.done ≤ f.body.length
  passes_pos : 0 < f.passes

theorem Sound.took {f : Frame} {i : Instruction} (sound : f.Sound)
    (found : f.body[f.done]? = some i) : Sound { f with done := f.done + 1 } where
  done_le := by
    obtain ⟨inside, -⟩ := List.getElem?_eq_some_iff.1 found
    exact inside
  passes_pos := sound.passes_pos

inductive Stack (top : List Instruction) : List Instruction → List Frame → Prop where
  | bottom {f : Frame} (body : f.body = top) (unguarded : f.guarded = false) (sound : f.Sound) :
    Stack top [] [f]
  | above {around : List Instruction} {f g : Frame} {below : List Frame} {i : Instruction}
    (lower : Stack top around (g :: below)) (started : 0 < g.done)
    (taken : g.body[g.done - 1]? = some i) (body : f.body ∈ i.children) (filled : f.body ≠ [])
    (guarded : f.guarded = (g.guarded || i.isGuard)) (sound : f.Sound) :
    Stack top (i :: around) (f :: g :: below)

namespace Stack

variable {top around : List Instruction} {f g : Frame} {below : List Frame} {i : Instruction}

theorem sound (h : Stack top around (f :: below)) : f.Sound := by
  cases h with
  | bottom _ _ sound => exact sound
  | above _ _ _ _ _ _ sound => exact sound

theorem replace (h : Stack top around (f :: below)) (body : g.body = f.body)
    (guarded : g.guarded = f.guarded) (sound : g.Sound) : Stack top around (g :: below) := by
  cases h with
  | bottom same unguarded _ => exact .bottom (body.trans same) (guarded.trans unguarded) sound
  | above lower started taken child filled same _ =>
      rw [← body] at child filled
      exact .above lower started taken child filled (guarded.trans same) sound

theorem took (h : Stack top around (f :: below)) (found : f.body[f.done]? = some i) :
    Stack top around ({ f with done := f.done + 1 } :: below) :=
  h.replace rfl rfl (h.sound.took found)

theorem again (h : Stack top around (f :: below)) (more : 1 < f.passes) :
    Stack top around ({ f with passes := f.passes - 1, done := 0 } :: below) :=
  h.replace rfl rfl ⟨Nat.zero_le _, Nat.sub_pos_of_lt more⟩

theorem left (h : Stack top around (f :: below)) :
    below = [] ∨ ∃ outer, Stack top outer below := by
  cases h with
  | bottom => exact .inl rfl
  | above lower => exact .inr ⟨_, lower⟩

theorem guarded_eq (h : Stack top around (f :: below)) :
    f.guarded = around.any Instruction.isGuard := by
  generalize frames : f :: below = stack at h
  induction h generalizing f below with
  | bottom _ unguarded _ =>
      cases frames
      exact unguarded
  | above lower _ _ _ _ guarded _ ih =>
      cases frames
      rw [guarded, ih rfl, List.any_cons, Bool.or_comm]

theorem mem_placesAll (h : Stack top around (f :: below)) (member : i ∈ f.body) :
    (around, i) ∈ Instruction.placesAll [] top := by
  generalize frames : f :: below = stack at h
  induction h generalizing f below i with
  | bottom body _ _ =>
      cases frames
      rw [body] at member
      exact Instruction.mem_placesAll_of_mem member []
  | above lower _ taken child _ _ _ ih =>
      cases frames
      -- By induction the instruction that was taken below stands under `around`.
      exact Instruction.mem_placesAll_child child member (ih (List.mem_of_getElem? taken) rfl)

end Stack

end Frame

theorem Flow.frame?_enter {guarded : Bool} {body : List Instruction} {passes : UInt32} {g : Frame}
    (opened : (enter body passes).frame? guarded = some g) :
    g.body = body ∧ body ≠ [] ∧ g.guarded = guarded ∧ g.Sound := by
  by_cases empty : passes = 0 ∨ body = []
  · rw [frame?, if_pos empty] at opened
    cases opened
  · rw [frame?, if_neg empty] at opened
    cases opened
    obtain ⟨some_pass, filled⟩ := not_or.1 empty
    refine ⟨rfl, filled, rfl, Nat.zero_le _, Nat.pos_of_ne_zero fun zero => ?_⟩
    exact some_pass (UInt32.toNat_inj.1 zero)

theorem Flow.frame?_guard {guarded : Bool} {body : List Instruction} {g : Frame}
    (opened : (guard body).frame? guarded = some g) :
    g.body = body ∧ body ≠ [] ∧ g.guarded = true ∧ g.Sound := by
  by_cases empty : body = []
  · rw [frame?, if_pos empty] at opened
    cases opened
  · rw [frame?, if_neg empty] at opened
    cases opened
    exact ⟨rfl, empty, rfl, Nat.zero_le _, Nat.one_pos⟩

theorem Session.frame?_of_step {σ : Type} {w : World σ} {i : Instruction} {s t : Session σ}
    {flow : Flow} {guarded : Bool} {g : Frame} (made : (step w i).on s = (.ok flow, t))
    (opened : flow.frame? guarded = some g) :
    g.body ∈ i.children ∧ g.body ≠ [] ∧ g.guarded = (guarded || i.isGuard) ∧ g.Sound := by
  cases i with
  | act place action =>
      obtain ⟨-, -, rfl⟩ := Attempt.on_map_eq_ok.1 made
      cases opened
  | loop place count body =>
      obtain ⟨passes, -, rfl⟩ := Attempt.on_map_eq_ok.1 made
      obtain ⟨rfl, filled, same, sound⟩ := Flow.frame?_enter opened
      exact ⟨List.mem_singleton_self _, filled, same.trans (Bool.or_false _).symm, sound⟩
  | branch place target found missed =>
      rw [step_branch] at made
      obtain ⟨isFound, -, rfl⟩ := Attempt.on_map_eq_ok.1 made
      obtain ⟨body, filled, same, sound⟩ := Flow.frame?_enter opened
      refine ⟨?_, body ▸ filled, same.trans (Bool.or_false _).symm, sound⟩
      rw [body, Instruction.children]
      cases isFound <;> simp
  | guard place body =>
      cases made
      obtain ⟨rfl, filled, same, sound⟩ := Flow.frame?_guard opened
      exact ⟨List.mem_singleton_self _, filled, same.trans (Bool.or_true _).symm, sound⟩

namespace Machine

variable {σ : Type} {w : World σ} {program : Program}

def Stacked (program : Program) (m : Machine σ) : Prop :=
  m.frames = [] ∨ ∃ around, Frame.Stack program.instructions around m.frames

theorem stacked_start (program : Program) (s : Session σ) : Stacked program (start program s) :=
  .inr ⟨[], .bottom rfl rfl ⟨Nat.zero_le _, Nat.one_pos⟩⟩

theorem Stacked.exists_stack {m : Machine σ} {f : Frame} {below : List Frame}
    (h : Stacked program m) (frames : m.frames = f :: below) :
    ∃ around, Frame.Stack program.instructions around (f :: below) := by
  rw [Stacked, frames] at h
  rcases h with empty | stack
  · cases empty
  · exact stack

theorem Stacked.next {m n : Machine σ} (h : Stacked program m) (moves : Moves w m (.goesOn n)) :
    Stacked program n := by
  cases moves with
  | again _ frames _ more =>
      obtain ⟨around, stack⟩ := h.exists_stack frames
      exact .inr ⟨around, stack.again more⟩
  | left _ frames _ _ =>
      obtain ⟨around, stack⟩ := h.exists_stack frames
      exact stack.left
  | skipped _ frames found _ _ _ =>
      obtain ⟨around, stack⟩ := h.exists_stack frames
      exact .inr ⟨around, stack.took found⟩
  | @did f below i flow session _ frames found made =>
      obtain ⟨around, stack⟩ := h.exists_stack frames
      have took := stack.took found
      cases opened : flow.frame? f.guarded with
      | none => exact .inr ⟨around, took⟩
      | some g =>
          obtain ⟨child, filled, guarded, sound⟩ := Session.frame?_of_step made opened
          exact .inr ⟨i :: around, .above took (Nat.succ_pos _) found child filled guarded sound⟩

theorem stacked_of_passes {s : Session σ} {m : Machine σ} (h : Passes w (start program s) m) :
    Stacked program m :=
  h.keeps (stacked_start program s) fun _ _ stacked moves => stacked.next moves

/--
What a run takes from the top frame stands in the tree of the program, and the frame is guarded if one
of the instructions around it is a `try`.
-/
theorem exists_place_of_passes {s : Session σ} {m : Machine σ} {f : Frame} {below : List Frame}
    {i : Instruction} (h : Passes w (start program s) m) (frames : m.frames = f :: below)
    (found : f.body[f.done]? = some i) :
    ∃ around, (around, i) ∈ program.places ∧ f.guarded = around.any Instruction.isGuard := by
  obtain ⟨around, stack⟩ := (stacked_of_passes h).exists_stack frames
  exact ⟨around, stack.mem_placesAll (List.mem_of_getElem? found), stack.guarded_eq⟩

end Machine

end ScreenScript
