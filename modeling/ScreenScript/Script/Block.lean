import ScreenScript.Script.Line
import ScreenScript.Text.Lines

namespace ScreenScript

/-- A block that is not closed yet. -/
inductive Block where
  | loop (count : Expr)
  | guard
  | found (target : Target)
  /-- The second body of a branch, with the first. -/
  | missed (target : Target) (found : List Instruction)

namespace Block

def keyword : Block → String
  | loop _ => "repeat"
  | guard => "try"
  | found _ => "if"
  | missed .. => "else"

/-- An open block and the instructions before it, last first. -/
structure Level where
  place : Place
  block : Block
  before : List Instruction

/-- Why a line does not fit where it stands. -/
inductive Fault where
  | line (fault : Line.Fault)
  | unmatchedClosing
  | strayElse
  | elseWithoutBranch
  | secondElse
  | nestedDeclaration
  | neverClosed (keyword : String)

def Fault.message : Block.Fault → String
  | line fault => fault.message
  | unmatchedClosing => "unmatched '\x7d' (no open block)"
  | strayElse => "'else' without a preceding 'if found' block"
  | elseWithoutBranch => "'else' can only follow an 'if found' block"
  | secondElse => "an 'if found' block may only have one 'else'"
  | nestedDeclaration => "'var' declarations must be at the top level"
  | neverClosed keyword => s!"'{keyword}' block is never closed (missing '\x7d')"

/-- A branch whose first body has just been closed. -/
structure Waiting where
  place : Place
  target : Target
  found : List Instruction

def Waiting.instruction (w : Waiting) : Instruction :=
  .branch w.place w.target w.found []

structure State where
  /-- The instructions of the innermost open block, last first. -/
  current : List Instruction := []
  /-- The open blocks, innermost first. -/
  levels : List Level := []
  waiting : Option Waiting := none
  nextIndex : Nat := 0
  defaults : NameMap Value := ∅
  title : Option String := none
  description : Option String := none

namespace State

def settle (s : State) : State :=
  match s.waiting with
  | some w => { s with current := w.instruction :: s.current, waiting := none }
  | none => s

def act (s : State) (line : Nat) (action : Action) : State :=
  { s with
    current := .act ⟨s.nextIndex, line⟩ action :: s.current
    nextIndex := s.nextIndex + 1 }

def enter (s : State) (place : Place) (block : Block) : State :=
  { s with current := [], levels := ⟨place, block, s.current⟩ :: s.levels }

def opens (s : State) (line : Nat) (opening : Opening) : State :=
  let block := match opening with
    | .loop count => loop count
    | .guard => guard
    | .branch target => found target
  { s.enter ⟨s.nextIndex, line⟩ block with nextIndex := s.nextIndex + 1 }

def leave (s : State) (level : Level) (rest : List Level) : State :=
  { s with current := level.before, levels := rest }

def closes (s : State) : Except Block.Fault State :=
  match s.levels with
  | [] => .error .unmatchedClosing
  | level :: rest =>
    let body := s.current.reverse
    let outer := s.leave level rest
    match level.block with
    | loop count => .ok { outer with current := .loop level.place count body :: outer.current }
    | guard => .ok { outer with current := .guard level.place body :: outer.current }
    | found target => .ok { outer with waiting := some ⟨level.place, target, body⟩ }
    | missed target first =>
      .ok { outer with current := .branch level.place target first body :: outer.current }

def closesElse (s : State) : Except Block.Fault State :=
  match s.levels with
  | [] => .error .unmatchedClosing
  | level :: rest =>
    match level.block with
    | loop _ | guard => .error .elseWithoutBranch
    | missed .. => .error .secondElse
    | found target =>
      .ok ((s.leave level rest).enter level.place (missed target s.current.reverse))

def opensElse (s : State) : Except Block.Fault State :=
  match s.waiting with
  | none => .error .strayElse
  | some w => .ok ({ s with waiting := none }.enter w.place (missed w.target w.found))

def admits (s : State) : Line.Role → Except Block.Fault Unit
  | .ordinary => .ok ()
  | .declaration => if s.levels.isEmpty then .ok () else .error .nestedDeclaration
  | .closing => if s.levels.isEmpty then .error .unmatchedClosing else .ok ()
  | .otherwise => if s.waiting.isNone then .error .strayElse else .ok ()

def apply (s : State) (line : Nat) : Line → Except Block.Fault State
  | .act action => .ok (s.settle.act line action)
  | .declare name value =>
    .ok { s.settle with defaults := s.settle.defaults.insert name value }
  | .opens opening => .ok (s.settle.opens line opening)
  | .closes => s.settle.closes
  | .closesElse => s.settle.closesElse
  | .opensElse => s.opensElse

def comment (s : State) (cs : List Char) : State :=
  match Text.splitFirst (· = ':') cs with
  | none => s
  | some (key, value) =>
    let key := String.ofList ((Text.trim key).map Char.toLower)
    let value := String.ofList (Text.trim value)
    if key = "title" then { s with title := s.title <|> some value }
    else if key = "description" then { s with description := s.description <|> some value }
    else s

def step (base : Policy) (s : State) (line : Nat) (cs : List Char) : Except Block.Fault State :=
  match Text.trim cs with
  | [] => .ok s
  | '#' :: text => .ok (s.comment (Text.trim text))
  | cs =>
    if Line.isWordless cs then .ok s.settle
    else
      let reading := Line.read base cs
      match s.admits reading.role, reading.content with
      | .error fault, _ => .error fault
      | .ok _, .error fault => .error (.line fault)
      | .ok _, .ok meaning => s.apply line meaning

def steps (base : Policy) (s : State) (line : Nat) :
    List (List Char) → Except (Nat × Block.Fault) State
  | [] => .ok s
  | cs :: rest =>
    match s.step base line cs with
    | .ok after => after.steps base (line + 1) rest
    | .error fault => .error (line, fault)

def finish (s : State) : Except (Nat × Block.Fault) Program :=
  match s.levels with
  | level :: _ => .error (level.place.line, .neverClosed level.block.keyword)
  | [] =>
    .ok {
      instructions := s.settle.current.reverse
      defaults := s.defaults
      title := s.title
      description := s.description
      size := s.nextIndex }

end State

end Block

namespace Program

def ofLines (base : Policy) (lines : List (List Char)) : Except (Nat × Block.Fault) Program := do
  (← ({} : Block.State).steps base 1 lines).finish

def parse (source : String) (base : Policy := Policy.standard) : Except Failure Program :=
  (ofLines base (Text.lines source.toList)).mapError fun (line, fault) =>
    .parse line fault.message

end Program

end ScreenScript
