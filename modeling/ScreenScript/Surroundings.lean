import ScreenScript.Image.Raster
import ScreenScript.Input
import ScreenScript.Template.Basic
import ScreenScript.Variables

/-!
# Surroundings

A run sees the screen, sends input, waits, loads templates and keeps variables through its
surroundings. They answer as they like: every call is told their whole state, and may change it.
Whether an abort is asked for shows in the state, so it can only change in a call.
-/

namespace ScreenScript

structure Surroundings (σ : Type) where
  capture : Attempt σ Picture
  logicalSize : Attempt σ Size
  input : InputEvent → Attempt σ Unit
  /-- Waits; the result is false if the wait was cut short by an abort. -/
  sleep : Nat → StateM σ Bool
  template : String → Attempt σ Template
  backing : Option (Backing σ)
  now : StateM σ Nat
  aborted : σ → Bool

/--
Whether the clock of some surroundings shows a time that never runs backwards, and has moved on
whenever someone has slept to the end.
-/
structure Surroundings.KeepsTime {σ : Type} (w : Surroundings σ) (time : σ → Nat) : Prop where
  now_eq : ∀ s, (w.now s).1 = time (w.now s).2
  le_now : ∀ s, time s ≤ time (w.now s).2
  le_capture : Attempt.Follows (fun s t => time s ≤ time t) w.capture
  le_logicalSize : Attempt.Follows (fun s t => time s ≤ time t) w.logicalSize
  lt_sleep : ∀ d s, 0 < d → (w.sleep d s).1 = true → time s < time (w.sleep d s).2

end ScreenScript
