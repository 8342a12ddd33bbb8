namespace ScreenScript

/-- The place in the total order of the double with these bits: below 0, a larger magnitude is less. -/
def Number.rank (bits : UInt64) : Int64 :=
  if bits.toInt64 < 0 then bits.toInt64 ^^^ Int64.maxValue else bits.toInt64

/-- Infinities, ones, zeros and a NaN of each sign. -/
example : ([0xFFF8000000000000, 0xFFF0000000000000, 0xBFF0000000000000, 0x8000000000000000, 0,
    0x3FF0000000000000, 0x7FF0000000000000, 0x7FF8000000000000] : List UInt64).Pairwise
      fun a b => Number.rank a < Number.rank b := by decide

namespace Peaks

structure Placement where
  x : Nat
  y : Nat
  deriving DecidableEq, Repr

def near (radius : Nat) (p q : Placement) : Bool :=
  (p.x - q.x) + (q.x - p.x) ≤ radius && (p.y - q.y) + (q.y - p.y) ≤ radius

def placement (columns index : Nat) : Placement :=
  ⟨index % columns, index / columns⟩

/-- The indices of a map from the highest score to the lowest, with equal scores as in the map. -/
def order (scores : Array UInt64) : List Nat :=
  (List.range scores.size).mergeSort fun i j =>
    Number.rank (scores.getD j 0) ≤ Number.rank (scores.getD i 0)

/--
Goes through indices and picks those that are not near a peak picked before, the last one first, until
there are `count` peaks.
-/
def pick (columns radius count : Nat) : List Nat → List Placement → List Placement
  | [], picked => picked
  | i :: rest, picked =>
    let p := placement columns i
    if picked.all fun q => !near radius q p then
      if picked.length + 1 = count then p :: picked
      else pick columns radius count rest (p :: picked)
    else pick columns radius count rest picked

end Peaks

/-- Up to `count` peaks of a map with so many columns, best first; all of them if `count` is 0. -/
def peaks (scores : Array UInt64) (columns radius count : Nat) : List Peaks.Placement :=
  (Peaks.pick columns radius count (Peaks.order scores) []).reverse

end ScreenScript
