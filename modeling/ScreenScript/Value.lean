import ScreenScript.Number.Layout
import ScreenScript.Number.Reading
import ScreenScript.Text.Characters

namespace ScreenScript

inductive Value where
  | number (n : Float)
  | text (s : String)

namespace Value

/-- The magnitude up to which a whole number is displayed as an integer, without the sign of zero. -/
def integerLimit : Float := 1e15

def display : Value → String
  | number n =>
    if n.abs < integerLimit && Number.isWhole n then
      match Number.truncate? n with
      | some i => toString i
      | none => Number.plain n
    else Number.plain n
  | text s => s

def finite? (s : String) : Option Float :=
  (Number.read? (Text.trim s.toList)).filter Number.isFinite

def asNumber? : Value → Option Float
  | number n => some n
  | text s => finite? s

/-- The value that a user means by `raw`: a number if it displays as written between the blanks. -/
def infer (raw : String) : Value :=
  match finite? raw with
  | some n => if (number n).display = Text.trimmed raw then number n else text raw
  | none => text raw

end Value

end ScreenScript
