import ScreenScript.Expr.Parse
import ScreenScript.Script.Duration
import ScreenScript.Script.Instruction
import ScreenScript.Script.Word

namespace ScreenScript

structure Argument where
  text : String
  quoted : Bool := false
  deriving DecidableEq, Repr

def Argument.shown (a : Argument) : String :=
  if a.quoted then "\"" ++ a.text ++ "\"" else a.text

/-- The arguments that a command has not taken yet. -/
structure Arguments where
  command : String
  positional : List Argument
  named : List (String × String)

inductive Arguments.Fault where
  | missing (command what : String)
  | quoted (command what : String)
  | notBoolean (key raw : String)
  | unknownName (key command : String)
  | surplus (shown command : String)
  | phrase (fault : Phrase.Fault)
  | expr (fault : Expr.Fault)
  | duration (fault : Duration.Fault)
  | policy (fault : Policy.Fault)

namespace Arguments

def Fault.message : Arguments.Fault → String
  | missing command what => s!"'{command}' expects {what}"
  | quoted command what => s!"'{command}' expects {what}, not a quoted string"
  | notBoolean key raw => s!"{key}= expects true or false, got '{raw}'"
  | unknownName key command => s!"unknown argument '{key}=' for '{command}'"
  | surplus shown command => s!"unexpected argument '{shown}' for '{command}'"
  | phrase fault => fault.message
  | expr fault => fault.message
  | duration fault => fault.message
  | policy fault => fault.message

/-- The positional argument that a word is, with `keepsNames` also if it names an argument. -/
def positional? (keepsNames : Bool) : Word → Option Argument
  | .bare text => some { text }
  | .quoted text => some { text, quoted := true }
  | .named key value => if keepsNames then some { text := key ++ "=" ++ value } else none
  | .opening | .closing => none

def named? : Word → Option (String × String)
  | .named key value => some (key, value)
  | _ => none

def ofWords (command : String) (keepsNames : Bool) (words : List Word) : Arguments where
  command
  positional := words.filterMap (positional? keepsNames)
  named := if keepsNames then [] else words.filterMap named?

abbrev Taking := StateT Arguments (Except Arguments.Fault)

def orFault {ε α : Type} (wrap : ε → Arguments.Fault) : Except ε α → Taking α
  | .ok a => pure a
  | .error e => throw (wrap e)

def next? : Taking (Option Argument) := fun args =>
  match args.positional with
  | [] => .ok (none, args)
  | first :: rest => .ok (some first, { args with positional := rest })

def next (what : String) : Taking Argument := do
  match ← next? with
  | some argument => return argument
  | none => throw (.missing (← get).command what)

def word (what : String) : Taking String := do
  let argument ← next what
  if argument.quoted then throw (.quoted (← get).command what)
  return argument.text

def phrase (what : String) : Taking Phrase := do
  orFault .phrase (Phrase.parse (← next what).text)

def joined? : Taking (Option Phrase) := do
  match (← get).positional with
  | [] => return none
  | arguments =>
    modify fun args => { args with positional := [] }
    some <$> orFault .phrase (Phrase.parse (" ".intercalate (arguments.map Argument.text)))

def joined (what : String) : Taking Phrase := do
  match ← joined? with
  | some p => return p
  | none => throw (.missing (← get).command what)

def expr? : Taking (Option Expr) := do
  match ← next? with
  | none => return none
  | some ⟨text, false⟩ => some <$> orFault .expr (Expr.parse text.toList)
  | some ⟨text, true⟩ => return some (.phrase (← orFault .phrase (Phrase.parse text)))

def expr (what : String) : Taking Expr := do
  match ← expr? with
  | some e => return e
  | none => throw (.missing (← get).command what)

def removeNamed? (key : String) : List (String × String) → Option (String × List (String × String))
  | [] => none
  | (other, value) :: rest =>
    if other = key then some (value, rest)
    else (removeNamed? key rest).map fun (found, rest) => (found, (other, value) :: rest)

def takeNamed (key : String) : Taking (Option String) := fun args =>
  match removeNamed? key args.named with
  | some (value, rest) => .ok (some value, { args with named := rest })
  | none => .ok (none, args)

def duration (key : String) : Taking (Option Nat) := do
  match ← takeNamed key with
  | none => return none
  | some raw => some <$> orFault .duration (Duration.parse raw)

def boolean? (raw : String) : Option Bool :=
  let lower := String.ofList (raw.toList.map Char.toLower)
  if lower = "true" ∨ lower = "yes" ∨ lower = "1" then some true
  else if lower = "false" ∨ lower = "no" ∨ lower = "0" then some false
  else none

def flag (key : String) : Taking Bool := do
  match ← takeNamed key with
  | none => return false
  | some raw =>
    match boolean? raw with
    | some b => return b
    | none => throw (.notBoolean key raw)

def target (base : Policy) (template : Phrase) : Taking Target := do
  let timeout ← duration "timeout"
  let interval ← duration "interval"
  return ⟨template, ← orFault .policy (base.adjust timeout interval)⟩

def finish : Taking Unit := do
  let args ← get
  match args.named, args.positional with
  | (key, _) :: _, _ => throw (.unknownName key args.command)
  | [], argument :: _ => throw (.surplus argument.shown args.command)
  | [], [] => return

end Arguments

end ScreenScript
