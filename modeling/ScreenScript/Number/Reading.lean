import ScreenScript.Number.Binary64

namespace ScreenScript.Number

def ofDigits (acc : Nat) (ds : List Char) : Nat :=
  ds.foldl (fun n c => 10 * n + (c.toNat - '0'.toNat)) acc

def nearest (significand : Nat) (exponent : Int) : Float :=
  -- Far beyond the range of doubles the result is infinite or zero whatever the digits.
  let bits : Int := Nat.log2 significand
  if significand = 0 then 0.0
  else if 400 < exponent + bits / 4 then 1.0 / 0.0
  else if exponent + bits < -800 then 0.0
  else Float.ofScientific significand (exponent < 0) exponent.natAbs

def exponent? : List Char → Option Int
  | [] => some 0
  | c :: cs =>
    if c = 'e' ∨ c = 'E' then
      let (negative, ds) := match cs with
        | '-' :: ds => (true, ds)
        | '+' :: ds => (false, ds)
        | ds => (false, ds)
      if ds.isEmpty || !ds.all Char.isDigit then none
      else some (if negative then -(ofDigits 0 ds : Nat) else ofDigits 0 ds)
    else none

def magnitude? (cs : List Char) : Option Float :=
  let word := String.ofList (cs.map Char.toLower)
  if word = "inf" ∨ word = "infinity" then some (1.0 / 0.0)
  else if word = "nan" then some (0.0 / 0.0)
  else
    let whole := cs.takeWhile Char.isDigit
    let rest := cs.dropWhile Char.isDigit
    let (places, rest) := match rest with
      | '.' :: rest => (rest.takeWhile Char.isDigit, rest.dropWhile Char.isDigit)
      | _ => ([], rest)
    if whole.isEmpty && places.isEmpty then none
    else (exponent? rest).map fun e =>
      nearest (ofDigits (ofDigits 0 whole) places) (e - places.length)

def read? (cs : List Char) : Option Float :=
  match cs with
  | '-' :: rest => (magnitude? rest).map (-·)
  | '+' :: rest => magnitude? rest
  | _ => magnitude? cs

end ScreenScript.Number
