import ScreenScript.Match.Scalar
import ScreenScript.Match.SummedArea

namespace ScreenScript

/-- A template prepared for scoring: its pixels less their mean, and the sum of their squares. -/
structure Needle (α : Type) where
  width : Nat
  height : Nat
  mean : α
  centred : Array α
  energy : α

namespace Needle

section Scoring

variable {α : Type} [Scalar α]

@[specialize]
def sumTo (n : Nat) (f : Nat → α) : α :=
  n.fold (fun i _ sum => sum + f i) (Scalar.ofNat 0)

@[specialize]
def ofImage (image : Gray) : Needle α :=
  let count : α := Scalar.ofNat (max image.pixels.size 1)
  let total := image.pixels.foldl (fun sum p => sum + p.toNat) 0
  let mean := Scalar.ofNat total / count
  let centred := image.pixels.map fun p => Scalar.ofNat p.toNat - mean
  let energy := centred.foldl (fun sum v => sum + v * v) (Scalar.ofNat 0)
  { width := image.width, height := image.height, mean, centred, energy }

@[inline]
def flatness : α :=
  Scalar.ofNat 1 / Scalar.ofNat 1000000

/-- The sum of the products of window pixels and centred template pixels, row by row. -/
@[specialize]
def cross (n : Needle α) (image : Gray) (x y : Nat) : α :=
  sumTo n.height fun j => sumTo n.width fun i =>
    Scalar.ofNat (image.get (x + i) (y + j)).toNat *
      n.centred.getD (j * n.width + i) (Scalar.ofNat 0)

/-- The sum of the squared deviations in a window, from the sums of its values and squares. -/
@[inline]
def variance (n : Needle α) (sum squares : Nat) : α :=
  let sum : α := Scalar.ofNat sum
  let v := Scalar.ofNat squares - sum * sum / Scalar.ofNat (n.width * n.height)
  if v < Scalar.ofNat 0 then Scalar.ofNat 0 else v

/-- The correlation of the template with the window at `(x, y)`, before it is limited. -/
@[specialize]
def correlation (n : Needle α) (image : Gray) (x y : Nat) (sum squares : Nat) : α :=
  let count : α := Scalar.ofNat (n.width * n.height)
  let variance := n.variance sum squares
  let flat := variance < flatness * count
  if n.energy < flatness then
    if flat then
      Scalar.ofNat 1 - Scalar.distance (Scalar.ofNat sum / count) n.mean / Scalar.ofNat 255
    else Scalar.ofNat 0
  else if flat then Scalar.ofNat 0
  else n.cross image x y / Scalar.sqrt (variance * n.energy)

@[specialize]
def score (n : Needle α) (image : Gray) (x y : Nat) (sum squares : Nat) : α :=
  Scalar.clamp (Scalar.ofNat 0) (Scalar.ofNat 1) (n.correlation image x y sum squares)

@[specialize]
def windowSum (n : Needle α) (image : Gray) (x y : Nat) (f : Nat → Nat) : Nat :=
  n.height.fold (fun j _ sum =>
    n.width.fold (fun i _ sum => sum + f (image.get (x + i) (y + j)).toNat) sum) 0

@[specialize]
def scoreAt (n : Needle α) (image : Gray) (x y : Nat) : α :=
  n.score image x y (n.windowSum image x y id) (n.windowSum image x y fun v => v * v)

def columns (n : Needle α) (image : Gray) : Nat :=
  image.width - n.width + 1

def rows (n : Needle α) (image : Gray) : Nat :=
  image.height - n.height + 1

@[specialize]
def scoreMap (n : Needle α) (image : Gray) : Array α :=
  let moments := Moments.ofImage image
  let columns := n.columns image
  Array.ofFn fun i : Fin (columns * n.rows image) =>
    let x := i % columns
    let y := i / columns
    n.score image x y (moments.values.window x y n.width n.height)
      (moments.squares.window x y n.width n.height)

end Scoring

end Needle

end ScreenScript
