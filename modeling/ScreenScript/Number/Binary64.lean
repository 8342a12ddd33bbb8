namespace ScreenScript

inductive Binary64 where
  | nan
  | infinite (negative : Bool)
  | finite (negative : Bool) (significand : Nat) (exponent : Int)
  deriving Repr, DecidableEq

namespace Binary64

def ofFloat (x : Float) : Binary64 :=
  let bits := x.toBits.toNat
  let negative := decide (Nat.pow 2 63 ≤ bits)
  let field : Nat := bits / Nat.pow 2 52 % Nat.pow 2 11
  let fraction : Nat := bits % Nat.pow 2 52
  if field = 2047 then
    if fraction = 0 then .infinite negative else .nan
  else if field = 0 then .finite negative fraction (-1074)
  else .finite negative (Nat.pow 2 52 + fraction) (field - 1075)

def powerOfTwo (exponent : Int) : Float :=
  if exponent < -1022 then Float.ofBits (UInt64.ofNat (Nat.pow 2 (exponent + 1074).toNat))
  else Float.ofBits (UInt64.ofNat ((exponent + 1023).toNat * Nat.pow 2 52))

def toFloat (negative : Bool) (significand : Nat) (exponent : Int) : Float :=
  let magnitude := Float.ofNat significand * powerOfTwo exponent
  if negative then -magnitude else magnitude

end Binary64

namespace Number

def roundHalfEven (num den : Nat) : Nat :=
  let below := num / den
  let rest := num % den
  if 2 * rest < den ∨ (2 * rest = den ∧ below % 2 = 0) then below else below + 1

def binaryFraction (significand : Nat) (exponent : Int) : Nat × Nat :=
  (significand * Nat.pow 2 exponent.toNat, Nat.pow 2 (-exponent).toNat)

def isFinite (x : Float) : Bool :=
  match Binary64.ofFloat x with
  | .finite .. => true
  | _ => false

def truncate? (x : Float) : Option Int :=
  match Binary64.ofFloat x with
  | .finite negative significand exponent =>
    let (num, den) := binaryFraction significand exponent
    let whole : Nat := num / den
    some (if negative then -whole else whole)
  | _ => none

def isWhole (x : Float) : Bool :=
  match Binary64.ofFloat x with
  | .finite _ significand exponent =>
    let (num, den) := binaryFraction significand exponent
    decide (num % den = 0)
  | _ => false

/--
The remainder of a division cut toward zero. It has the sign of the dividend, and it is exact: with
both operands on the grid of the smaller exponent it is a remainder of natural numbers.
-/
def remainder (dividend divisor : Float) : Float :=
  match Binary64.ofFloat dividend, Binary64.ofFloat divisor with
  | .finite negative a p, .finite _ b q =>
    if b = 0 then 0.0 / 0.0
    else
      let exponent := min p q
      let a := a * Nat.pow 2 (p - exponent).toNat
      let b := b * Nat.pow 2 (q - exponent).toNat
      Binary64.toFloat negative (a % b) exponent
  | .finite .., .infinite _ => dividend
  | _, _ => 0.0 / 0.0

end Number

end ScreenScript
