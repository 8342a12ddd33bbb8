import ScreenScript.Proofs.Search.Accord

namespace ScreenScript

open Attempt (Fails fails_bind fails_get_bind fails_modify fails_onPart fails_pure fails_throw)

variable {σ α : Type} {P : Failure → Prop}

structure Surroundings.FailsWith (w : Surroundings σ) (P : Failure → Prop) : Prop where
  capture : Fails P w.capture
  logicalSize : Fails P w.logicalSize
  input : ∀ event, Fails P (w.input event)
  aborted : P .aborted
  unscaled : ∀ message, P (.scaleResolution message)
  timedOut : ∀ template lastScore threshold attempts timeoutMs,
    P (.matchTimeout template lastScore threshold attempts timeoutMs)

namespace Search

theorem fails_onClock (a : StateM σ α) : Fails P (onClock a) :=
  nofun

theorem fails_observe {w : Surroundings σ} (fails : w.FailsWith P) (capture logical : Size) :
    Fails P (observe capture logical : Attempt (Search σ) Scale) := by
  refine fails_get_bind fun s => ?_
  cases s.cache.observe capture logical with
  | error fault => exact fails_throw (fails.unscaled _)
  | ok found =>
      obtain ⟨scale, cache, notice⟩ := found
      refine fails_bind (fails_modify _) fun _ => ?_
      cases notice with
      | none => exact fails_pure scale
      | some notice => exact fails_bind (fails_modify _) fun _ => fails_pure scale

theorem fails_poll {w : Surroundings σ} (fails : w.FailsWith P) (template : Template)
    (attempt : UInt32) : Fails P (poll w template attempt) := by
  refine fails_get_bind fun s => ?_
  split
  · exact fails_throw fails.aborted
  · refine fails_bind (fails_modify _) fun _ => ?_
    refine fails_bind (fails_onPart fails.capture) fun capture => ?_
    refine fails_bind (fails_onPart fails.logicalSize) fun logical => ?_
    refine fails_bind (fails_observe fails _ _) fun scale => ?_
    exact fails_bind (fails_modify _) fun _ => fails_pure _

theorem fails_round {w : Surroundings σ} (fails : w.FailsWith P) (template : Template)
    (policy : Policy) (started : Nat) (attempts : UInt32) :
    Fails P (round w template policy started attempts) := by
  refine fails_bind (fails_poll fails template _) fun polled => ?_
  obtain ⟨result, scale⟩ := polled
  cases found : result.found with
  | true =>
      simp only [found, if_true]
      exact fails_bind (fails_onClock _) fun now => fails_pure _
  | false =>
      simp only [found, Bool.false_eq_true, if_false]
      refine fails_bind (fails_onClock _) fun complete => ?_
      cases complete with
      | false => exact fails_throw fails.aborted
      | true => exact fails_bind (fails_onClock _) fun now => fails_pure _

theorem fails_pollUntil {w : World σ} (fails : w.FailsWith P) (template : Template) (policy : Policy)
    (started : Nat) (attempts : UInt32) :
    Fails P (.of (pollUntil w template policy started attempts)) := by
  intro s failure t made
  change pollUntil w template policy started attempts s = _ at made
  fun_induction pollUntil w template policy started attempts s with
  | case1 attempts s _ after last =>
      cases made
      exact fails_round fails template policy started attempts s failure t last
  | case2 => cases made
  | case3 attempts s after missed ih => exact ih made

theorem fails_run {w : World σ} (fails : w.FailsWith P) (template : Template) (policy : Policy) :
    Fails P (run w template policy) :=
  fails_bind (fails_onClock _) fun started => fails_pollUntil fails template policy started 0

end Search

end ScreenScript
