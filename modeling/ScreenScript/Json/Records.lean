import ScreenScript.Input
import ScreenScript.Json.Basic
import ScreenScript.Screen.Scale
import ScreenScript.Value

namespace ScreenScript

open Json

def pixelBound : Nat := 4294967296

def Json.pixels? (field : Option Json) : Option Nat :=
  required? (natBelow? pixelBound) field

def Json.number? (field : Option Json) : Option Float :=
  required? float? field

def Json.text? (field : Option Json) : Option String :=
  required? string? field

namespace Size

def toJson (s : Size) : Json :=
  .object [("width", .integer s.width), ("height", .integer s.height)]

def ofJson? (j : Json) : Option Size := do
  match ← record? ["width", "height"] false j with
  | [width, height] => return ⟨← pixels? width, ← pixels? height⟩
  | _ => none

end Size

namespace Point

def toJson (p : Point) : Json :=
  .object [("x", .real p.x), ("y", .real p.y)]

def ofJson? (j : Json) : Option Point := do
  match ← record? ["x", "y"] false j with
  | [x, y] => return ⟨← number? x, ← number? y⟩
  | _ => none

end Point

namespace Region

def toJson (r : Region) : Json :=
  .object [("x", .integer r.x), ("y", .integer r.y), ("width", .integer r.width),
    ("height", .integer r.height)]

def ofJson? (j : Json) : Option Region := do
  match ← record? ["x", "y", "width", "height"] false j with
  | [x, y, width, height] =>
    return ⟨← pixels? x, ← pixels? y, ← pixels? width, ← pixels? height⟩
  | _ => none

end Region

namespace Value

def toJson : Value → Json
  | number n => .real n
  | text s => .string s

def ofJson? (j : Json) : Option Value :=
  match j.float?, j.string? with
  | some n, _ => some (number n)
  | none, some s => some (text s)
  | none, none => none

end Value

namespace Scale

def toJson (s : Scale) : Json :=
  .real s.value

def ofJson? (j : Json) : Option Scale :=
  j.float?.bind ofFloat?

end Scale

namespace Direction

def toJson (d : Direction) : Json :=
  .string d.name

def ofJson? (j : Json) : Option Direction :=
  constant? ofName? j

end Direction

namespace Failure.Code

def toJson (code : Failure.Code) : Json :=
  .string code.name

def ofJson? (j : Json) : Option Failure.Code :=
  constant? ofName? j

end Failure.Code

namespace InputEvent

def action : InputEvent → String
  | click _ => "click"
  | scroll _ _ => "scroll"
  | move _ => "move"
  | type _ => "type"
  | press _ => "press"
  | launch _ => "open"

def toJson (e : InputEvent) : Json :=
  let fields := match e with
    | click p | move p => [("x", Json.real p.x), ("y", .real p.y)]
    | scroll dx dy => [("dx", .integer dx), ("dy", .integer dy)]
    | type s => [("text", .string s)]
    | press s => [("key", .string s)]
    | launch s => [("target", .string s)]
  .object (("action", .string e.action) :: fields)

def steps? (j : Json) : Option (Int × Int) := do
  match ← record? ["dx", "dy"] false j with
  | [dx, dy] => return (← required? int32? dx, ← required? int32? dy)
  | _ => none

def only? (name : String) (j : Json) : Option String := do
  match ← record? [name] false j with
  | [s] => text? s
  | _ => none

def ofFields? (action : String) (fields : Json) : Option InputEvent :=
  match action with
  | "click" => (Point.ofJson? fields).map click
  | "move" => (Point.ofJson? fields).map move
  | "scroll" => (steps? fields).map fun (dx, dy) => scroll dx dy
  | "type" => (only? "text" fields).map type
  | "press" => (only? "key" fields).map press
  | "open" => (only? "target" fields).map launch
  | _ => none

/--
The event that a JSON value writes: an object, or an array that starts with the action. The whole
value is kept until the action is known.
-/
def ofJson? (j : Json) : Option InputEvent := do
  if !j.isKeepable then none
  else match j with
    | .object members =>
      let action ← text? (← single? "action" members)
      ofFields? action (.object (members.filter (·.1 ≠ "action")))
    | .array (first :: rest) => ofFields? (← first.string?) (.array rest)
    | _ => none

end InputEvent

end ScreenScript
