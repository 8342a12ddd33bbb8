import ScreenScript.Number.Binary64

namespace ScreenScript

/-- The decimal number `digits * 10 ^ exponent`. -/
structure Decimal where
  digits : Nat
  exponent : Int
  deriving Repr, DecidableEq

namespace Decimal

/--
The reals that round to `value / scale`: those from `low / scale` to `high / scale`, with the ends
when `closed`.
-/
structure Interval where
  low : Nat
  value : Nat
  high : Nat
  scale : Nat
  closed : Bool

/--
The interval of `significand * 2 ^ exponent`. Its ends are half way to the neighbouring doubles; the
one below a power of two is nearer. They round to an even significand.
-/
def Interval.ofBinary (significand : Nat) (exponent : Int) : Interval :=
  let below := if significand = Nat.pow 2 52 ∧ exponent ≠ -1074 then 1 else 2
  let factor := Nat.pow 2 (exponent - 2).toNat
  { low := (4 * significand - below) * factor
    value := 4 * significand * factor
    high := (4 * significand + 2) * factor
    scale := Nat.pow 2 (2 - exponent).toNat
    closed := significand % 2 = 0 }

def width (n : Nat) : Nat :=
  (Nat.toDigits 10 n).length

/-- The exponent `e` with `10 ^ (e - 1) ≤ num / den < 10 ^ e`, for a positive fraction. -/
def magnitude (num den : Nat) : Int :=
  if den ≤ num then width (num / den)
  else
    let inverse := (den + num - 1) / num
    1 - width (inverse - 1)

/-- Which of two neighbours on a grid stands for a value half way between them. -/
inductive Tie where
  | even
  | upper

/-- Whether the lower of two neighbours, `n` and `n + 1`, stands for what is half way. -/
def Tie.isLower : Tie → Nat → Bool
  | even, n => n % 2 = 0
  | upper, _ => false

/--
The multiple of `10 ^ exponent` that lies in the interval, given as its factor: of the value's two
neighbours on that grid the one inside, of two inside the nearer, and at equal distance the one that
`tie` says.
-/
def Interval.onGrid (i : Interval) (tie : Tie) (exponent : Int) : Option Nat :=
  let stretch := Nat.pow 10 (-exponent).toNat
  let unit := i.scale * Nat.pow 10 exponent.toNat
  let value := i.value * stretch
  let inside (k : Nat) : Bool :=
    if i.closed then i.low * stretch ≤ k * unit && k * unit ≤ i.high * stretch
    else i.low * stretch < k * unit && k * unit < i.high * stretch
  let below := value / unit
  let above := below + 1
  match inside below, inside above with
  | true, true =>
    let down := value - below * unit
    let up := above * unit - value
    some (if down < up ∨ (down = up ∧ tie.isLower below) then below else above)
  | true, false => some below
  | false, true => some above
  | false, false => none

def maxDigits : Nat := 17

def shortest (tie : Tie) (significand : Nat) (exponent : Int) : Decimal :=
  let i := Interval.ofBinary significand exponent
  let top := magnitude i.value i.scale
  let found := (List.range maxDigits).findSome? fun (k : Nat) =>
    let grid := top - (k + 1 : Nat)
    (i.onGrid tie grid).map fun digits => Decimal.mk digits grid
  match found with
  | some d => if d.digits % 10 = 0 then ⟨d.digits / 10, d.exponent + 1⟩ else d
  | none => ⟨0, 0⟩

end Decimal

end ScreenScript
