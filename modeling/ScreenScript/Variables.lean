import ScreenScript.Attempt
import ScreenScript.NameMap
import ScreenScript.Value

/-!
# Variables

The variables of a run are looked up in three layers: what was bound during the run, what a backing
store outside the run holds, and the defaults that the script declares. Assignments are written
through to the backing store before they are bound.
-/

namespace ScreenScript

/-- A store of variables that outlives a run, in a world `σ`. -/
structure Backing (σ : Type) where
  read : String → Attempt σ (Option Value)
  write : String → Value → Attempt σ Unit

def Backing.onPart {σ τ : Type} (part : τ → σ) (update : σ → τ → τ) (b : Backing σ) : Backing τ where
  read name := (b.read name).onPart part update
  write name value := (b.write name value).onPart part update

structure Variables where
  bound : NameMap Value := ∅
  defaults : NameMap Value := ∅

namespace Variables

variable {σ : Type}

def preset (v : Variables) (name : String) (value : Value) : Variables :=
  { v with bound := v.bound.insert name value }

def setDefaults (v : Variables) (defaults : NameMap Value) : Variables :=
  { v with defaults }

def default? (v : Variables) (name : String) : Except Failure Value :=
  match v.defaults.get? name with
  | some value => .ok value
  | none => .error (.undefinedVariable name)

def get (backing : Option (Backing σ)) (v : Variables) (name : String) : Attempt σ Value :=
  match v.bound.get? name, backing with
  | some value, _ => pure value
  | none, none => ofExcept (v.default? name)
  | none, some backing => do
    match ← backing.read name with
    | some value => return value
    | none => ofExcept (v.default? name)

def set (backing : Option (Backing σ)) (v : Variables) (name : String) (value : Value) :
    Attempt σ Variables := do
  if let some backing := backing then
    backing.write name value
  return v.preset name value

end Variables

end ScreenScript
