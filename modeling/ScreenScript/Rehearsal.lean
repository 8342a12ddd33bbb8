import ScreenScript.Clock
import ScreenScript.Search.Basic

/-!
# Rehearsals

A rehearsal is a world in which nothing is left to chance: the screen shows planned frames, input is
written down instead of sent, and a clock stands still between sleeps. Failures and aborts happen at
planned captures and inputs, which are counted from one.
-/

namespace ScreenScript

/-- What the screen shows in a rehearsal, and what goes wrong. -/
structure Rehearsal.Plan where
  /-- The captures in turn; the last one is repeated. -/
  frames : Array Picture
  /-- The logical sizes with the captures, if they differ from those of the frames. -/
  logical : Array Size := #[]
  /-- Why the logical size is not known. -/
  logicalFault : Option String := none
  captureFailure : Option Nat := none
  captureAbort : Option Nat := none
  inputFailure : Option Nat := none
  inputAbort : Option Nat := none

/-- The state of a rehearsal, with the state `τ` of what templates and variables come from. -/
structure Rehearsal (τ : Type) where
  clock : ManualClock := {}
  captures : Nat := 0
  inputs : Nat := 0
  /-- The inputs with their times, the last one first. -/
  events : List (InputEvent × Nat) := []
  rest : τ

namespace Rehearsal

def Plan.latest? {α : Type} (entries : Array α) (captures : Nat) : Option α :=
  entries[min (captures - 1) (entries.size - 1)]?

def Plan.frame (plan : Plan) (captures : Nat) : Picture :=
  (latest? plan.frames captures).getD (Raster.generate 0 0 fun _ _ => default)

def Plan.logicalSize (plan : Plan) (captures : Nat) : Size :=
  (latest? plan.logical captures).getD (plan.frame captures).size

variable {τ : Type}

def abortedAt (planned : Option Nat) (count : Nat) (r : Rehearsal τ) : Rehearsal τ :=
  if planned = some count then { r with clock := r.clock.trigger } else r

@[simp]
theorem abortedAt_now (planned : Option Nat) (count : Nat) (r : Rehearsal τ) :
    (r.abortedAt planned count).clock.now = r.clock.now := by
  unfold abortedAt
  split <;> rfl

def capture (plan : Plan) : Attempt (Rehearsal τ) Picture :=
  Attempt.of fun r =>
    let count := r.captures + 1
    let after := { r with captures := count }.abortedAt plan.captureAbort count
    if plan.captureFailure = some count then (.error (.capture "scripted capture failure"), after)
    else (.ok (plan.frame count), after)

def input (plan : Plan) (event : InputEvent) : Attempt (Rehearsal τ) Unit :=
  Attempt.of fun r =>
    let count := r.inputs + 1
    let after := { r with inputs := count }.abortedAt plan.inputAbort count
    if plan.inputFailure = some count then
      (.error (.inputSimulation "scripted input failure"), after)
    else (.ok (), { after with events := (event, after.clock.now) :: after.events })

def logicalSize (plan : Plan) : Attempt (Rehearsal τ) Size :=
  Attempt.of fun r =>
    match plan.logicalFault with
    | some fault => (.error (.scaleResolution fault), r)
    | none => (.ok (plan.logicalSize r.captures), r)

def sleep (nanoseconds : Nat) : StateM (Rehearsal τ) Bool := fun r =>
  let (complete, clock) := r.clock.sleep nanoseconds
  (complete, { r with clock })

def onRest {α : Type} (a : Attempt τ α) : Attempt (Rehearsal τ) α :=
  a.onPart Rehearsal.rest fun rest r => { r with rest }

def surroundings (plan : Plan) (template : String → Attempt τ Template)
    (backing : Option (Backing τ)) : Surroundings (Rehearsal τ) where
  capture := capture plan
  logicalSize := logicalSize plan
  input := input plan
  sleep
  template id := onRest (template id)
  backing := backing.map (Backing.onPart Rehearsal.rest fun rest r => { r with rest })
  now r := (r.clock.now, r)
  aborted r := r.clock.aborted

theorem surroundings_keepsTime (plan : Plan) (template : String → Attempt τ Template)
    (backing : Option (Backing τ)) :
    (surroundings plan template backing).KeepsTime fun r => r.clock.now where
  now_eq _ := rfl
  le_now _ := Nat.le_refl _
  le_capture r := by
    simp only [surroundings, capture, Attempt.of, Attempt.on]
    split <;> simp
  le_logicalSize r := by
    simp only [surroundings, logicalSize, Attempt.of, Attempt.on]
    split <;> simp
  lt_sleep nanoseconds r positive complete :=
    (ManualClock.now_sleep complete).symm ▸ Nat.lt_add_of_pos_right positive

def world (plan : Plan) (template : String → Attempt τ Template) (backing : Option (Backing τ)) :
    World (Rehearsal τ) :=
  .onClock (surroundings plan template backing) (surroundings_keepsTime plan template backing)

end Rehearsal

end ScreenScript
