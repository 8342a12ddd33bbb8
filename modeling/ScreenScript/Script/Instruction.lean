import ScreenScript.Expr.Basic
import ScreenScript.Input
import ScreenScript.NameMap
import ScreenScript.Search.Policy
import ScreenScript.Value

namespace ScreenScript

/-- What to look for on the screen, and for how long. -/
structure Target where
  template : Phrase
  policy : Policy

/-- What an instruction without nested instructions does. -/
inductive Action where
  | click (target : Target) (bestEffort : Bool)
  | hover (target : Target) (bestEffort : Bool)
  | clickAt (x y : Expr)
  | scroll (direction : Direction) (amount : Expr)
  | wait (nanoseconds : Nat)
  | type (text : Phrase)
  | press (key : Phrase)
  | log (message : Phrase)
  | launch (target : Phrase)
  | assign (name : String) (value : Expr)
  | abort (reason : Option Phrase)

def Action.keyword : Action → String
  | click .. => "click"
  | hover .. => "hover"
  | clickAt .. => "click_at"
  | scroll .. => "scroll"
  | wait _ => "wait"
  | type _ => "type"
  | press _ => "press"
  | log _ => "log"
  | launch _ => "open"
  | assign .. => "set"
  | abort _ => "abort"

structure Place where
  index : Nat
  line : Nat
  deriving DecidableEq, Repr

/-- An instruction: a single action, or a construct around lists of instructions. -/
inductive Instruction where
  | act (place : Place) (action : Action)
  | loop (place : Place) (count : Expr) (body : List Instruction)
  /-- Runs one of two bodies, the first if the target was found. -/
  | branch (place : Place) (target : Target) (found missed : List Instruction)
  | guard (place : Place) (body : List Instruction)

namespace Instruction

def place : Instruction → Place
  | act place _ | loop place .. | branch place .. | guard place _ => place

def index (i : Instruction) : Nat := i.place.index

def line (i : Instruction) : Nat := i.place.line

def keyword : Instruction → String
  | act _ action => action.keyword
  | loop .. => "repeat"
  | branch .. => "if found"
  | guard .. => "try"

def target? : Instruction → Option Target
  | act _ (.click target _) | act _ (.hover target _) | branch _ target _ _ => some target
  | _ => none

def children : Instruction → List (List Instruction)
  | act .. => []
  | loop _ _ body => [body]
  | branch _ _ found missed => [found, missed]
  | guard _ body => [body]

mutual

def size : Instruction → Nat
  | act .. => 1
  | loop _ _ body => sizeAll body + 1
  | branch _ _ found missed => sizeAll found + sizeAll missed + 1
  | guard _ body => sizeAll body + 1

def sizeAll : List Instruction → Nat
  | [] => 0
  | i :: rest => i.size + sizeAll rest

end

def pending : List (Nat × List Instruction) → Nat
  | [] => 0
  | (_, list) :: rest => 3 * sizeAll list + 1 + pending rest

/--
The instructions of some lists with their depths, each before those in it. The lists that are still
to be visited are kept with their depths, innermost first.
-/
def walkLists : List (Nat × List Instruction) → List (Nat × Instruction)
  | [] => []
  | (_, []) :: rest => walkLists rest
  | (depth, i :: list) :: rest =>
    (depth, i) :: walkLists (i.children.map (depth + 1, ·) ++ (depth, list) :: rest)
  termination_by lists => pending lists
  decreasing_by
    · simp [pending]
    · cases i <;>
        simp +arith only [children, pending, List.map_cons, List.map_nil, List.nil_append,
          List.cons_append, sizeAll, size]

end Instruction

structure Program where
  instructions : List Instruction
  defaults : NameMap Value := ∅
  title : Option String := none
  description : Option String := none
  /-- How many instructions there are, nested ones included. -/
  size : Nat

namespace Program

def walk (p : Program) : List (Nat × Instruction) :=
  Instruction.walkLists [(0, p.instructions)]

end Program

end ScreenScript
