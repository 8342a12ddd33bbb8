import ScreenScript.CommandLine.Argument

namespace ScreenScript.CommandLine

/-- The arguments that a command takes: those given by name, and the operands in order. -/
structure Form where
  named : List Argument
  operands : List Argument

structure Progress where
  given : Given := {}
  operands : Nat := 0
  /-- The argument met last, with its value once there is one. -/
  pending : Option (Argument × Option String) := none
  operandsOnly : Bool := false

inductive Word where
  | dashes
  | long (label : String) (attached : Option String)
  | short (first : Char)
  | plain

def Word.ofString (word : String) : Word :=
  match word.toList with
  | ['-', '-'] => dashes
  | '-' :: '-' :: rest =>
    match Text.splitFirst (· = '=') rest with
    | some (label, value) => long (String.ofList label) (some (String.ofList value))
    | none => long (String.ofList rest) none
  | '-' :: c :: _ => short c
  | _ => plain

namespace Progress

def settle (p : Progress) : Except Fault Progress :=
  match p.pending with
  | none => .ok p
  | some (_, none) => .error .missingValue
  | some (argument, some raw) => do
    return { p with given := ← argument.give p.given raw, pending := none }

def askHelp (p : Progress) : Except Fault Progress := do
  let _ ← p.settle
  throw .help

def readNamed (form : Form) (p : Progress) (label : String) (attached : Option String) :
    Except Fault Progress :=
  if label = "help" then if attached.isSome then .error .needlessValue else p.askHelp
  else match form.named.find? (·.label? = some label) with
    | none => .error .unknownArgument
    | some argument =>
      if argument.isFlag && attached.isSome then .error .needlessValue
      else do
        let p ← p.settle
        match attached with
        | some raw => return { p with given := ← argument.give p.given raw }
        | none =>
          if argument.isFlag then return { p with given := ← argument.give p.given "" }
          else return { p with pending := some (argument, none) }

def readOperand (form : Form) (p : Progress) (word : String) : Except Fault Progress :=
  match form.operands[p.operands]? with
  | none => .error .unknownArgument
  | some argument => do
    let p ← p.settle
    return { p with pending := some (argument, some word), operands := p.operands + 1 }

def read (form : Form) (p : Progress) (word : String) : Except Fault Progress :=
  if p.operandsOnly then p.readOperand form word
  else match Word.ofString word with
    | .dashes => .ok { p with operandsOnly := true }
    | .long label attached => p.readNamed form label attached
    | .short first => if first = 'h' then p.askHelp else .error .unknownArgument
    | .plain =>
      match p.pending with
      | some (argument, none) => .ok { p with pending := some (argument, some word) }
      | _ => p.readOperand form word

end Progress

def Form.read (form : Form) (words : List String) : Except Fault Given := do
  let p ← words.foldlM (Progress.read form) {}
  return (← p.settle).given

end ScreenScript.CommandLine
