import ScreenScript.Geometry

namespace ScreenScript

inductive Direction where
  | up
  | down
  | left
  | right
  deriving DecidableEq, Repr

namespace Direction

def all : List Direction := [up, down, left, right]

def name : Direction → String
  | up => "up"
  | down => "down"
  | left => "left"
  | right => "right"

def ofName? (s : String) : Option Direction :=
  all.find? fun d => d.name = s

def parse? (word : String) : Option Direction :=
  ofName? (String.ofList (word.toList.map Char.toLower))

def delta (d : Direction) (amount : Int) : Int × Int :=
  match d with
  | up => (0, -amount)
  | down => (0, amount)
  | left => (-amount, 0)
  | right => (amount, 0)

end Direction

inductive InputEvent where
  | click (position : Point)
  | scroll (dx dy : Int)
  | move (position : Point)
  | type (text : String)
  | press (key : String)
  /-- Opens an application, a file or a URL. -/
  | launch (target : String)

def InputEvent.position? : InputEvent → Option Point
  | click position | move position => some position
  | _ => none

end ScreenScript
