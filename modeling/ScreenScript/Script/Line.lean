import ScreenScript.Expr.Evaluation
import ScreenScript.Script.Arguments
import ScreenScript.Script.Command

/-!
# Lines of scripts

A line that is neither blank nor a comment is an action, a declaration, or a part of a block. What a
line is (`Reading.role`) shows in its first word; whether the rest of it is right (`Reading.content`)
is a separate question, because a line out of place is reported before a fault in it.
-/

namespace ScreenScript

inductive Opening where
  | loop (count : Expr)
  | branch (target : Target)
  | guard

inductive Line where
  | act (action : Action)
  | declare (name : String) (value : Value)
  | opens (opening : Opening)
  | closes
  /-- Closes the first body of a branch and opens the second. -/
  | closesElse
  | opensElse

/-- What kind of line a line is, as its first word shows. -/
inductive Line.Role where
  | ordinary
  | declaration
  | closing
  | otherwise
  deriving DecidableEq, Repr

/-- Why a line has no meaning. -/
inductive Line.Fault where
  | word (fault : Word.Fault)
  | expr (fault : Expr.Fault)
  | arguments (fault : Arguments.Fault)
  | blockNotTaken (command : String)
  | blockExpected (command : String)
  | innerBrace
  | unknownDirection (word : String)
  | foundExpected (word : String)
  | unknownCommand (word : String)
  | strayOpening
  | commandAssigned (word : String)
  | noCommand
  | textAfterClosing
  | openingExpected
  | notDeclaration
  | commandDeclared (name : String)
  | variableDefault (name : String)
  | defaultFails (failure : Failure)

namespace Line

def Fault.message : Line.Fault → String
  | word fault => fault.message
  | expr fault => fault.message
  | arguments fault => fault.message
  | blockNotTaken command => s!"'{command}' does not take a block"
  | blockExpected command => s!"expected '\x7b' at the end of the '{command}' line"
  | innerBrace => "braces must end a line or start it"
  | unknownDirection first => s!"unknown scroll direction '{first}'"
  | foundExpected first => s!"expected 'if found TARGET \x7b', got 'if {first}'"
  | unknownCommand first => s!"unknown command '{first}'"
  | strayOpening =>
    "unexpected '\x7b' (blocks open at the end of 'repeat', 'if' or 'try' lines)"
  | commandAssigned first =>
    s!"'{first}' is a command and cannot be assigned (separate its arguments with a space)"
  | noCommand => "expected a command at the start of the line"
  | textAfterClosing => "unexpected text after '\x7d'"
  | openingExpected => "expected '\x7b' after 'else'"
  | notDeclaration => "expected 'var NAME = VALUE'"
  | commandDeclared name => s!"'{name}' is a command and cannot name a variable"
  | variableDefault name => s!"default for '{name}' must not reference variables"
  | defaultFails failure => failure.message

structure Reading where
  role : Role
  content : Except Line.Fault Line

def orFault {ε α : Type} (wrap : ε → Line.Fault) : Except ε α → Except Line.Fault α :=
  Except.mapError wrap

/--
The name and the right-hand side of `NAME = ...`. A line with `==` for its first `=` is no
assignment.
-/
def splitAssignment (cs : List Char) : Option (String × List Char) := do
  let (before, after) ← Text.splitFirst (· = '=') cs
  let name := Text.trim before
  if isNameChars name && after.head? ≠ some '=' then
    return (String.ofList name, Text.trim after)
  else none

def standardScroll : Expr := .number 3.0

def ofCommand (base : Policy) : Command → Arguments.Taking (Except Line.Fault Line)
  | .click => do
    let target ← Arguments.target base (← Arguments.phrase "a template id")
    return .ok (.act (.click target (← Arguments.flag "best_effort")))
  | .hover => do
    let target ← Arguments.target base (← Arguments.phrase "a template id")
    return .ok (.act (.hover target (← Arguments.flag "best_effort")))
  | .clickAt => do
    let x ← Arguments.expr "an x coordinate"
    let y ← Arguments.expr "a y coordinate"
    return .ok (.act (.clickAt x y))
  | .scroll => do
    let word ← Arguments.word "a direction (up, down, left, right)"
    match Direction.parse? word with
    | none => return .error (.unknownDirection word)
    | some direction =>
      return .ok (.act (.scroll direction ((← Arguments.expr?).getD standardScroll)))
  | .wait => do
    let raw ← Arguments.word "a duration such as 500ms or 2s"
    return .ok (.act (.wait (← Arguments.orFault .duration (Duration.parse raw))))
  | .type => do return .ok (.act (.type (← Arguments.phrase "the text to type")))
  | .press => do return .ok (.act (.press (← Arguments.phrase "a key such as enter or cmd+c")))
  | .log => do return .ok (.act (.log (← Arguments.joined "a message")))
  | .launch => do
    return .ok (.act (.launch (← Arguments.joined "an application, file or URL")))
  | .abort => do return .ok (.act (.abort (← Arguments.joined?)))
  | .loop => do return .ok (.opens (.loop (← Arguments.expr "a repeat count")))
  | .guard => return .ok (.opens .guard)
  | .branch => do
    let word ← Arguments.word "'found'"
    if word ≠ "found" then return .error (.foundExpected word)
    return .ok (.opens (.branch (← Arguments.target base (← Arguments.phrase "a template id"))))

def takeAll (command : Arguments.Taking (Except Line.Fault Line)) (args : Arguments) :
    Except Line.Fault Line := do
  match ← orFault .arguments (command.run args) with
  | (.error fault, _) => throw fault
  | (.ok line, rest) =>
    let _ ← orFault .arguments (Arguments.finish.run rest)
    return line

def splitOpening (words : List Word) : List Word × Bool :=
  match words.getLast? with
  | some .opening => (words.dropLast, true)
  | _ => (words, false)

def ofWords (base : Policy) (first : String) (rest : List Word) : Except Line.Fault Line := do
  let command? := Command.ofWord? first
  let (words, opened) := splitOpening rest
  let takesBlock := command?.any Command.takesBlock
  if opened && !takesBlock then throw (.blockNotTaken first)
  if takesBlock && !opened then throw (.blockExpected first)
  if words.any fun w => w = .opening || w = .closing then throw .innerBrace
  match command? with
  | none => throw (.unknownCommand first)
  | some command =>
    takeAll (ofCommand base command) (Arguments.ofWords first command.takesText words)

def readDeclaration (cs : List Char) : Except Line.Fault Line := do
  match splitAssignment (Text.trimStart cs) with
  | none => throw .notDeclaration
  | some (name, source) =>
    if Command.isReserved name then throw (.commandDeclared name)
    let e ← orFault .expr (Expr.parse source)
    if !e.isConstant then throw (.variableDefault name)
    let value ← orFault .defaultFails (e.evaluate fun name => .error (.undefinedVariable name))
    return .declare name value

def assignment? (cs : List Char) : Option (String × List Char) :=
  (splitAssignment cs).filter fun (name, _) => !Command.isReserved name

def isWordless (cs : List Char) : Bool :=
  (assignment? cs).isNone && Word.ofLine cs matches .ok []

def read (base : Policy) (cs : List Char) : Reading :=
  match assignment? cs with
  | some (name, source) =>
    { role := .ordinary
      content := (orFault .expr (Expr.parse source)).map fun e => .act (.assign name e) }
  | none =>
    match Word.ofLine cs with
    | .error fault => { role := .ordinary, content := .error (.word fault) }
    -- Nobody asks for this: a line without words is not read.
    | .ok [] => { role := .ordinary, content := .error .noCommand }
    | .ok (.closing :: rest) =>
      { role := .closing
        content :=
          if rest = [] then .ok .closes
          else if rest = [.bare Command.otherwise, .opening] then .ok .closesElse
          else .error .textAfterClosing }
    | .ok (.bare first :: rest) =>
      if first = Command.otherwise then
        { role := .otherwise
          content := if rest = [.opening] then .ok .opensElse else .error .openingExpected }
      else if first = Command.declare then
        { role := .declaration, content := readDeclaration (cs.drop Command.declare.length) }
      else { role := .ordinary, content := ofWords base first rest }
    | .ok (.opening :: _) => { role := .ordinary, content := .error .strayOpening }
    | .ok (.named key _ :: _) =>
      { role := .ordinary
        content := .error (if Command.isReserved key then .commandAssigned key else .noCommand) }
    | .ok (.quoted _ :: _) => { role := .ordinary, content := .error .noCommand }

end Line

end ScreenScript
