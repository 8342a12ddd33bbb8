import ScreenScript.Number.Reading
import ScreenScript.Text.Characters

namespace ScreenScript.Duration

/-- Why a text is no duration. -/
inductive Fault where
  | notNumber (raw : String)
  | outOfRange (raw : String)

def Fault.message : Fault → String
  | notNumber raw => s!"invalid duration '{raw}' (use e.g. 500ms, 2s or 1.5)"
  | outOfRange raw => s!"duration '{raw}' is out of range"

def ofSeconds (seconds : Float) : Nat :=
  match Binary64.ofFloat seconds with
  | .finite _ significand exponent =>
    let (num, den) := Number.binaryFraction significand exponent
    Number.roundHalfEven (num * 1000000000) den
  | _ => 0

def limit : Float := 1e12

def splitUnit (cs : List Char) : List Char × Float :=
  match cs.reverse with
  | 's' :: 'm' :: rest => (rest.reverse, 1.0)
  | 's' :: rest => (rest.reverse, 1000.0)
  | _ => (cs, 1000.0)

def parse (raw : String) : Except Fault Nat :=
  let cs := Text.trim raw.toList
  let (number, unit) := splitUnit cs
  match Number.read? (Text.trim number) with
  | none => .error (.notNumber (String.ofList cs))
  | some value =>
    let millis := value * unit
    if !Number.isFinite millis || millis < 0.0 || limit < millis then
      .error (.outOfRange (String.ofList cs))
    else .ok (ofSeconds (millis / 1000.0))

end ScreenScript.Duration
