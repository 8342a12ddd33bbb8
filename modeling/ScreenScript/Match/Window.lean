import ScreenScript.Image.Pyramid
import ScreenScript.Match.Needle
import ScreenScript.Match.Peaks

/-!
# The best window

A small search scores every placement of the template. A large one scores a reduced image with a
reduced template, and follows the strongest peaks back to full resolution, looking a few pixels
around each at every finer level.
-/

namespace ScreenScript

open Peaks (Placement placement)

structure Window where
  corner : Placement
  score : Float

namespace Window

def scanBudget : Nat := 4194304

def minSide : Nat := 4

def maxLevel : Nat := 4

def maxSeeds : Nat := 12

def refineRadius : Nat := 2

/-- The multiplications in a scan of every placement, with all sides halved `level` times. -/
def scanCost (image template : Size) (level : Nat) : Nat :=
  (image.width >>> level - template.width >>> level + 1) *
    (image.height >>> level - template.height >>> level + 1) *
    (template.width >>> level * template.height >>> level)

/-- The first level, of so many from `level` on, at which a scan is cheap or a template minimal. -/
def levelFrom (image template : Size) (level : Nat) : Nat → Nat
  | 0 => level
  | n + 1 =>
    if scanCost image template level ≤ scanBudget then level
    else if template.width >>> (level + 1) < minSide ∨ template.height >>> (level + 1) < minSide then
      level
    else levelFrom image template (level + 1) n

def searchLevel (image template : Size) : Nat :=
  levelFrom image template 0 maxLevel

@[specialize]
def firstBest (n : Nat) (score : Nat → Float) : Option (Nat × Float) :=
  n.fold (fun i _ best =>
    let s := score i
    match best with
    | some (_, top) => if top < s then some (i, s) else best
    | none => some (i, s)) none

def scan (scores : Array Float) (columns : Nat) : Option Window :=
  (firstBest scores.size fun i => scores.getD i 0.0).map fun (i, score) =>
    ⟨placement columns i, score⟩

/-- The last placement of a template of length `n` on an axis of length `m` that is not beyond `k`. -/
def latest (m n k : Nat) : Nat :=
  min k (m - n)

def lowest : Float := -1.0 / 0.0

def refine (image : Gray) (needle : Needle Float) (position : Placement) : Window :=
  let x := latest image.width needle.width position.x
  let y := latest image.height needle.height position.y
  let left := x - refineRadius
  let top := y - refineRadius
  let columns := latest image.width needle.width (x + refineRadius) - left + 1
  let rows := latest image.height needle.height (y + refineRadius) - top + 1
  (columns * rows).fold (fun i _ best =>
    let corner : Placement := ⟨left + i % columns, top + i / columns⟩
    let score := needle.scoreAt image corner.x corner.y
    if best.score < score then ⟨corner, score⟩ else best) ⟨⟨x, y⟩, lowest⟩

def doubled (w : Window) : Placement :=
  ⟨2 * w.corner.x, 2 * w.corner.y⟩

def descend (pyramid : Pyramid) (needle : Nat → Needle Float) :
    (n : Nat) → n ≤ pyramid.made.length → List Window → List Window
  | 0, _, windows => windows
  | n + 1, made, windows =>
    let finer := pyramid.level n made
    let template := needle n
    descend pyramid needle n (Nat.le_of_lt made) (windows.map fun w => refine finer template w.doubled)

/-- Whether `w` is to be preferred to `best`: a higher score, or the same further up or left. -/
def better (w best : Window) : Bool :=
  best.score < w.score ||
    (w.score == best.score &&
      (w.corner.y < best.corner.y || (w.corner.y == best.corner.y && w.corner.x < best.corner.x)))

def preferred : List Window → Option Window
  | [] => none
  | first :: rest => some (rest.foldl (fun best w => if better w best then w else best) first)

end Window

structure CoarseSearch where
  level : Nat
  seeds : Nat

/-- The best window of a search, with what the search did. -/
structure BestWindow where
  window : Window
  coarse? : Option CoarseSearch

def Gray.fits (template image : Gray) : Bool :=
  0 < template.width && 0 < template.height && template.width ≤ image.width &&
    template.height ≤ image.height

open Window in
/-- The window of the pyramid's image that looks most like a template, if the template fits. -/
def bestWindow (pyramid : Pyramid) (template : Gray) : Option BestWindow × Pyramid :=
  if !Gray.fits template pyramid.base then (none, pyramid)
  else
    let top := searchLevel pyramid.base.size template.size
    let grown := pyramid.upTo top
    let made := pyramid.lt_length_upTo top
    let needle (n : Nat) : Needle Float := Needle.ofImage (Image.reduce template n)
    let coarse := needle top
    let image := grown.level top made
    let scores := coarse.scoreMap image
    let columns := coarse.columns image
    if top = 0 then
      ((scan scores columns).map fun window => ⟨window, none⟩, grown)
    else
      let radius := max (min coarse.width coarse.height / 2) 1
      let seeds := (peaks (scores.map Float.toBits) columns radius maxSeeds).map fun p =>
        Window.mk p (scores.getD (p.y * columns + p.x) 0.0)
      let found := preferred (descend grown needle top (Nat.le_of_lt made) seeds)
      (found.map fun window => ⟨window, some ⟨top, seeds.length⟩⟩, grown)

end ScreenScript
