import ScreenScript.Number.Shortest

namespace ScreenScript.Number

def digits (n : Nat) : List Char :=
  Nat.toDigits 10 n

/-- The characters of `d` in positional notation, with a point only before places that are there. -/
def positional (d : Decimal) : List Char :=
  let ds := digits d.digits
  if 0 ≤ d.exponent then ds ++ List.replicate d.exponent.toNat '0'
  else
    let places := (-d.exponent).toNat
    if places < ds.length then
      ds.take (ds.length - places) ++ '.' :: ds.drop (ds.length - places)
    else '0' :: '.' :: (List.replicate (places - ds.length) '0' ++ ds)

def sign (negative : Bool) : List Char :=
  if negative then ['-'] else []

/--
The shortest digits of a double, positional. Of two equally near decimals the one farther from zero
is written. A whole number has no point, and zero has a sign.
-/
def plain (x : Float) : String :=
  match Binary64.ofFloat x with
  | .nan => "NaN"
  | .infinite negative => if negative then "-inf" else "inf"
  | .finite negative 0 _ => String.ofList (sign negative ++ ['0'])
  | .finite negative significand exponent =>
    String.ofList (sign negative ++ positional (Decimal.shortest .upper significand exponent))

/-- How `scientific` writes a number. -/
structure ScientificLayout where
  /-- The power of ten of the first digit, from which on an exponent is written. -/
  upper : Int
  /-- The power of ten of the first digit, below which an exponent is written. -/
  lower : Int
  plus : Bool
  tie : Decimal.Tie

/--
Data files write a point from `1e-5` up to below `1e16`, and `e+` from there on. Of two equally near
decimals the one with an even last digit is written.
-/
def dataLayout : ScientificLayout :=
  ⟨16, -5, true, .even⟩

def ScientificLayout.write (layout : ScientificLayout) (d : Decimal) : List Char :=
  let ds := digits d.digits
  let lead := d.exponent + ds.length - 1
  if layout.lower ≤ lead ∧ lead < layout.upper then
    positional d ++ if 0 ≤ d.exponent then ['.', '0'] else []
  else
    let body := match ds with
      | [] => []
      | [c] => [c]
      | c :: rest => c :: '.' :: rest
    let mark := if lead < 0 then ['-'] else if layout.plus then ['+'] else []
    body ++ 'e' :: mark ++ digits lead.natAbs

def scientific? (x : Float) : Option String :=
  match Binary64.ofFloat x with
  | .finite negative 0 _ => some (String.ofList (sign negative ++ ['0', '.', '0']))
  | .finite negative significand exponent =>
    let d := Decimal.shortest dataLayout.tie significand exponent
    some (String.ofList (sign negative ++ dataLayout.write d))
  | _ => none

def fixed (places : Nat) (x : Float) : String :=
  match Binary64.ofFloat x with
  | .nan => "NaN"
  | .infinite negative => if negative then "-inf" else "inf"
  | .finite negative significand exponent =>
    let (num, den) := binaryFraction significand exponent
    let units := roundHalfEven (num * Nat.pow 10 places) den
    let ds := digits units
    let padded := List.replicate (places + 1 - ds.length) '0' ++ ds
    let whole := padded.take (padded.length - places)
    let rest := padded.drop (padded.length - places)
    String.ofList (sign negative ++ whole ++ if places = 0 then [] else '.' :: rest)

end ScreenScript.Number
