import ScreenScript.Geometry
import ScreenScript.Number.Reading
import ScreenScript.Text.Characters
import ScreenScript.Text.Lines

namespace ScreenScript.CommandLine

/-- Why a command line is not run. Two of the causes are a wish of the user's. -/
inductive Fault where
  | help
  | version
  | missingCommand
  | unknownCommand
  | unknownArgument
  | missingArgument
  | repeatedArgument
  | needlessValue
  | missingValue
  | invalidValue (reason : String)

namespace Fault

def reason? : Fault → Option String
  | invalidValue reason => some reason
  | _ => none

def exitCode : Fault → Nat
  | help | version => 0
  | _ => 2

end Fault

inductive Argument where
  | script
  | inlineText
  | templates
  | screen
  | logical
  | preset
  | persist
  | json
  | name
  | value
  deriving DecidableEq, Repr

structure Given where
  script : Option String := none
  inlineText : Bool := false
  templates : Option String := none
  screen : Option String := none
  logical : Option Size := none
  presets : List (String × String) := []
  persist : Bool := false
  json : Bool := false
  name : Option String := none
  value : Option String := none

/-! ## Values -/

def readName (raw : String) : Except Fault String :=
  if isName raw then .ok raw
  else .error (.invalidValue (s!"invalid variable name '{raw}' " ++
    "(letters, digits and '_', not starting with a digit)"))

def readPreset (raw : String) : Except Fault (String × String) :=
  match Text.splitFirst (· = '=') raw.toList with
  | none => .error (.invalidValue s!"expected NAME=VALUE, got '{raw}'")
  | some (name, value) => do
    return (← readName (String.ofList (Text.trim name)), String.ofList value)

def readSide? (raw : List Char) : Option Nat :=
  let ds := match Text.trim raw with
    | '+' :: ds => ds
    | ds => ds
  if ds.isEmpty || !ds.all Char.isDigit then none
  else
    let n := Number.ofDigits 0 ds
    if n < 4294967296 then some n else none

def readSize (raw : String) : Except Fault Size := do
  let some (width, height) := Text.splitFirst (fun c => c = 'x' || c = 'X') raw.toList
    | throw (.invalidValue s!"expected WIDTHxHEIGHT, got '{raw}'")
  let some w := readSide? width
    | throw (.invalidValue s!"invalid width '{String.ofList width}'")
  let some h := readSide? height
    | throw (.invalidValue s!"invalid height '{String.ofList height}'")
  if (Size.mk w h).isEmpty then throw (.invalidValue "logical size must be non-zero")
  return ⟨w, h⟩

def readPath (raw : String) : Except Fault String :=
  if raw.isEmpty then .error .missingValue else .ok raw

namespace Argument

def label? : Argument → Option String
  | inlineText => some "inline"
  | templates => some "templates"
  | screen => some "screen"
  | logical => some "logical"
  | preset => some "var"
  | persist => some "persist"
  | json => some "json"
  | script | name | value => none

def isFlag : Argument → Bool
  | inlineText | persist | json => true
  | _ => false

def once {α : Type} (old : Option α) (read : Except Fault α) : Except Fault (Option α) :=
  if old.isSome then .error .repeatedArgument else some <$> read

def flagOnce (old : Bool) : Except Fault Bool :=
  if old then .error .repeatedArgument else .ok true

def give (g : Given) (raw : String) : Argument → Except Fault Given
  | script => do return { g with script := ← once g.script (.ok raw) }
  | inlineText => do return { g with inlineText := ← flagOnce g.inlineText }
  | templates => do return { g with templates := ← once g.templates (readPath raw) }
  | screen => do return { g with screen := ← once g.screen (readPath raw) }
  | logical => do return { g with logical := ← once g.logical (readSize raw) }
  | preset => do return { g with presets := g.presets ++ [← readPreset raw] }
  | persist => do return { g with persist := ← flagOnce g.persist }
  | json => do return { g with json := ← flagOnce g.json }
  | name => do return { g with name := ← once g.name (readName raw) }
  | value => do return { g with value := ← once g.value (.ok raw) }

end Argument

end ScreenScript.CommandLine
