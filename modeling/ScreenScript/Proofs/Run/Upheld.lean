import ScreenScript.Proofs.Run.Accord
import ScreenScript.Proofs.Run.Steps

namespace ScreenScript

open Attempt (Keeps)

variable {σ α : Type} {I : σ → Prop}

structure Surroundings.Upholds (w : Surroundings σ) (I : σ → Prop) : Prop where
  capture : Keeps I I w.capture
  logicalSize : Keeps I I w.logicalSize
  input : ∀ event, Keeps I I (w.input event)
  sleep : ∀ nanoseconds s, I s → I (w.sleep nanoseconds s).2
  template : ∀ id, Keeps I I (w.template id)
  read : ∀ b ∈ w.backing, ∀ name, Keeps I I (b.read name)
  write : ∀ b ∈ w.backing, ∀ name value, Keeps I I (b.write name value)
  now : ∀ s, I s → I (w.now s).2

namespace Search

theorem keeps_upheld {a : Attempt σ α} (h : Keeps I I a) :
    Keeps (fun s => I s.world) (fun s => I s.world) (onWorld a) :=
  fun s upheld => h s.world upheld

theorem habit_upheld {w : Surroundings σ} (upholds : w.Upholds I) : Habit w fun s => I s.world where
  remember _ _ upheld _ := upheld
  note _ _ _ := id
  capture s upheld := upholds.capture s.world upheld.1
  logicalSize := keeps_upheld upholds.logicalSize
  sleep nanoseconds s := upholds.sleep nanoseconds s.world
  now s := upholds.now s.world

end Search

namespace Session

theorem keeps_upheld {a : Attempt σ α} (h : Keeps I I a) :
    Keeps (fun s => I s.world) (fun s => I s.world) (onWorld a) :=
  fun s upheld => h s.world upheld

theorem habit_upheld {w : World σ} (upholds : w.Upholds I) :
    Habit w (fun s => I s.world) (fun s => I s.world) where
  weaken _ := id
  note _ _ _ := id
  rebind _ _ := id
  read b backed name := keeps_upheld (upholds.read b backed name)
  write b backed name value := keeps_upheld (upholds.write b backed name value)
  template id := keeps_upheld (upholds.template id)
  logicalSize := keeps_upheld upholds.logicalSize
  sleep nanoseconds s := upholds.sleep nanoseconds s.world
  search template policy := by
    apply keeps_world_during
    exact keeps_world_onSearch ((Search.habit_upheld upholds).keeps_run template policy)
  act event := keeps_world_during .acting fun s upheld => upholds.input event s.world upheld

end Session

theorem Machine.upheld_of_passes {w : World σ} {program : Program} {s : Session σ} {m : Machine σ}
    (upholds : w.Upholds I) (start : I s.world) (passes : Passes w (s.launch w program) m) :
    I m.session.world := by
  refine passes.keeps_session (I := fun s => I s.world) (upholds.now s.world start) ?_ ?_
  · intro k i result after upheld _ made
    have kept := (Session.habit_upheld upholds).keeps_step i (k.dispatched i) upheld
    rwa [made] at kept
  · exact fun t index line failure upheld => upheld

end ScreenScript
