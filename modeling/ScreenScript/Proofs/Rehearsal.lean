import ScreenScript.Proofs.Search.Failures
import ScreenScript.Rehearsal

namespace ScreenScript.Rehearsal

variable {τ : Type}

theorem rest_abortedAt (planned : Option Nat) (count : Nat) (r : Rehearsal τ) :
    (r.abortedAt planned count).rest = r.rest := by
  unfold abortedAt
  split <;> rfl

theorem rest_capture (plan : Plan) (r : Rehearsal τ) : ((capture plan).on r).2.rest = r.rest := by
  simp only [capture, Attempt.of, Attempt.on]
  split <;> exact rest_abortedAt ..

theorem rest_logicalSize (plan : Plan) (r : Rehearsal τ) :
    ((logicalSize plan).on r).2.rest = r.rest := by
  simp only [logicalSize, Attempt.of, Attempt.on]
  split <;> rfl

theorem rest_input (plan : Plan) (event : InputEvent) (r : Rehearsal τ) :
    ((input plan event).on r).2.rest = r.rest := by
  simp only [input, Attempt.of, Attempt.on]
  split <;> exact rest_abortedAt ..

theorem surroundings_failsWith (plan : Plan) (template : String → Attempt τ Template)
    (backing : Option (Backing τ)) :
    (surroundings plan template backing).FailsWith fun failure => failure.code ≠ .templateNotFound where
  capture r failure t made := by
    simp only [surroundings, capture, Attempt.of, Attempt.on] at made
    split at made <;> cases made
    exact Failure.Code.noConfusion
  logicalSize r failure t made := by
    simp only [surroundings, logicalSize, Attempt.of, Attempt.on] at made
    split at made <;> cases made
    exact Failure.Code.noConfusion
  input event r failure t made := by
    simp only [surroundings, input, Attempt.of, Attempt.on] at made
    split at made <;> cases made
    exact Failure.Code.noConfusion
  aborted := Failure.Code.noConfusion
  unscaled _ := Failure.Code.noConfusion
  timedOut _ _ _ _ _ := Failure.Code.noConfusion

end ScreenScript.Rehearsal
