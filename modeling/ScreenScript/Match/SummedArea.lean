import ScreenScript.Image.Raster

namespace ScreenScript

/-- The sums over rectangles: row `y`, column `x` holds the sum over the first `x` columns and the
first `y` rows. -/
structure SummedArea where
  rows : Array (Array Nat)

namespace SummedArea

def nextRow (above : Array Nat) (width : Nat) (value : Nat → Nat) : Array Nat :=
  (width.fold (fun x _ (row, sum) =>
    let sum := sum + value x
    (row.push (above.getD (x + 1) 0 + sum), sum)) (#[0], 0)).1

def ofFunction (width height : Nat) (value : Nat → Nat → Nat) : SummedArea where
  rows := (height.fold (fun y _ (rows, above) =>
    let row := nextRow above width fun x => value x y
    (rows.push row, row)) (#[Array.replicate (width + 1) 0], Array.replicate (width + 1) 0)).1

def corner (t : SummedArea) (x y : Nat) : Nat :=
  (t.rows.getD y #[]).getD x 0

def window (t : SummedArea) (x y w h : Nat) : Nat :=
  (t.corner (x + w) (y + h) + t.corner x y) - (t.corner x (y + h) + t.corner (x + w) y)

end SummedArea

/-- The sums of the pixels and of their squares. -/
structure Moments where
  values : SummedArea
  squares : SummedArea

def Moments.ofImage (image : Gray) : Moments where
  values := SummedArea.ofFunction image.width image.height fun x y => (image.get x y).toNat
  squares := SummedArea.ofFunction image.width image.height fun x y =>
    (image.get x y).toNat * (image.get x y).toNat

end ScreenScript
