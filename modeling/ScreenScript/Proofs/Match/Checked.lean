import ScreenScript.Proofs.Match.Placements

/-!
# Searching with checks

The search once more, with every difference of sizes and every read of a pixel or of a table checked: it
gives nothing as soon as a difference would be negative or a read would leave its image. Each checked
function gives what the function itself gives (`cross?_eq`, `scoreMap?_eq`, `refine?_eq`), as long as the
template fits where it is compared.
-/

namespace ScreenScript

open Peaks (Placement placement)

/-! ## Loops -/

def loop? {σ : Type} : Nat → (Nat → σ → Option σ) → σ → Option σ
  | 0, _, s => some s
  | n + 1, step, s => do step n (← loop? n step s)

section Loops

variable {σ : Type} {n : Nat} {step? : Nat → σ → Option σ} {step : Nat → σ → σ} {init : σ}

theorem loop?_eq_of_invariant (invariant : Nat → σ → Prop) (start : invariant 0 init)
    (next : ∀ i s, i < n → invariant i s →
      step? i s = some (step i s) ∧ invariant (i + 1) (step i s)) :
    loop? n step? init = some (n.fold (fun i _ s => step i s) init) ∧
      invariant n (n.fold (fun i _ s => step i s) init) := by
  induction n with
  | zero => exact ⟨rfl, start⟩
  | succ n ih =>
      obtain ⟨same, holds⟩ := ih fun i s less => next i s (Nat.lt_succ_of_lt less)
      obtain ⟨last, kept⟩ := next n _ (Nat.lt_succ_self n) holds
      rw [Nat.fold_succ, loop?, same]
      exact ⟨last, kept⟩

theorem loop?_eq (h : ∀ i s, i < n → step? i s = some (step i s)) :
    loop? n step? init = some (n.fold (fun i _ s => step i s) init) :=
  (loop?_eq_of_invariant (fun _ _ => True) trivial fun i s less _ => ⟨h i s less, trivial⟩).1

end Loops

/-! ## Reads and differences -/

def difference? (m n : Nat) : Option Nat :=
  if n ≤ m then some (m - n) else none

theorem difference?_eq {m n : Nat} (h : n ≤ m) : difference? m n = some (m - n) :=
  if_pos h

def Raster.get? {α : Type} (r : Raster α) (x y : Nat) : Option α :=
  if x < r.width ∧ y < r.height then r.pixels[y * r.width + x]? else none

theorem Raster.get?_eq {α : Type} [Inhabited α] (r : Raster α) {x y : Nat} (hx : x < r.width)
    (hy : y < r.height) : r.get? x y = some (r.get x y) := by
  have inside : y * r.width + x < r.pixels.size := r.size_pixels ▸ Raster.index_lt hx hy
  rw [Raster.get?, if_pos ⟨hx, hy⟩, Array.getElem?_eq_getElem inside, Raster.get,
    Array.getD_eq_getD_getElem?, Array.getElem?_eq_getElem inside]
  rfl

theorem getElem?_eq_getD {α : Type} {xs : Array α} {i : Nat} (h : i < xs.size) (d : α) :
    xs[i]? = some (xs.getD i d) := by
  rw [Array.getD_eq_getD_getElem?, Array.getElem?_eq_getElem h]
  rfl

/-- A level of a pyramid, unless it has not been made. -/
def Pyramid.level? (p : Pyramid) (n : Nat) : Option Gray := do
  p.made[← difference? p.made.length (n + 1)]?

theorem Pyramid.level?_eq {p : Pyramid} {n : Nat} (made : n < p.made.length) :
    p.level? n = some (p.level n made) := by
  have index : p.made.length - (n + 1) = p.made.length - 1 - n := by omega
  rw [level?, difference?_eq made, Option.bind_eq_bind, Option.bind_some, index]
  exact List.getElem?_eq_getElem _

theorem mapM_eq_some_map {α β : Type} {f? : α → Option β} {f : α → β} {as : List α}
    (h : ∀ a ∈ as, f? a = some (f a)) : as.mapM f? = some (as.map f) := by
  induction as with
  | nil => rfl
  | cons a as ih =>
      rw [List.mapM_cons, h a List.mem_cons_self, ih fun b mem => h b (List.mem_cons_of_mem a mem)]
      rfl

/-! ## Tables -/

namespace SummedArea

def nextRow? (above : Array Nat) (width : Nat) (value : Nat → Option Nat) : Option (Array Nat) := do
  let (row, _) ← loop? width (fun x (row, sum) => do
    let sum := sum + (← value x)
    pure (row.push ((← above[x + 1]?) + sum), sum)) (#[0], 0)
  pure row

def ofFunction? (width height : Nat) (value : Nat → Nat → Option Nat) : Option SummedArea := do
  let (rows, _) ← loop? height (fun y (rows, above) => do
    let row ← nextRow? above width fun x => value x y
    pure (rows.push row, row)) (#[Array.replicate (width + 1) 0], Array.replicate (width + 1) 0)
  pure ⟨rows⟩

def corner? (t : SummedArea) (x y : Nat) : Option Nat := do
  (← t.rows[y]?)[x]?

def window? (t : SummedArea) (x y w h : Nat) : Option Nat := do
  let inner := (← t.corner? (x + w) (y + h)) + (← t.corner? x y)
  pure (inner - ((← t.corner? x (y + h)) + (← t.corner? (x + w) y)))

section Tables

variable {width height : Nat} {value : Nat → Nat → Nat} {value? : Nat → Nat → Option Nat}

theorem nextRow?_eq {above : Array Nat} (size : above.size = width + 1) {value : Nat → Nat}
    {value? : Nat → Option Nat} (values : ∀ x < width, value? x = some (value x)) :
    nextRow? above width value? = some (nextRow above width value) := by
  have steps := @loop?_eq (Array Nat × Nat) width
    (fun x (row, sum) => do
      let sum := sum + (← value? x)
      pure (row.push ((← above[x + 1]?) + sum), sum))
    (fun x (row, sum) =>
      let sum := sum + value x
      (row.push (above.getD (x + 1) 0 + sum), sum)) (#[0], 0) fun x (row, sum) less => by
    have read : above[x + 1]? = some (above.getD (x + 1) 0) := getElem?_eq_getD (by omega) 0
    simp only [values x less, read]
    rfl
  rw [nextRow?, steps]
  rfl

theorem ofFunction?_eq (values : ∀ x < width, ∀ y < height, value? x y = some (value x y)) :
    ofFunction? width height value? = some (ofFunction width height value) := by
  -- The row above is read one column to the right, so its size has to be known in every round.
  have steps := (@loop?_eq_of_invariant (Array (Array Nat) × Array Nat) height
    (fun y (rows, above) => do
      let row ← nextRow? above width fun x => value? x y
      pure (rows.push row, row))
    (fun y (rows, above) =>
      let row := nextRow above width fun x => value x y
      (rows.push row, row)) (#[Array.replicate (width + 1) 0], Array.replicate (width + 1) 0)
    (fun y (_, above) => above = row width value y) row_zero.symm
    fun y (rows, above) less holds => by
      subst holds
      have next : nextRow? (row width value y) width (fun x => value? x y) =
          some (nextRow (row width value y) width fun x => value x y) :=
        nextRow?_eq Array.size_ofFn fun x inside => values x inside y less
      refine ⟨?_, nextRow_row y⟩
      simp only [next]
      rfl).1
  rw [ofFunction?, steps]
  rfl

theorem corner?_eq {x y : Nat} (hx : x ≤ width) (hy : y ≤ height) :
    (ofFunction width height value).corner? x y =
      some ((ofFunction width height value).corner x y) := by
  have line : (ofFunction width height value).rows[y]? = some (row width value y) := by
    rw [rows_ofFunction, Array.getElem?_ofFn, dif_pos (by omega)]
  have read : (row width value y)[x]? = some ((row width value y).getD x 0) :=
    getElem?_eq_getD (by rw [row, Array.size_ofFn]; omega) 0
  rw [corner_ofFunction hx hy, corner?, line, ← getD_row hx]
  exact read

theorem window?_eq {x y w h : Nat} (hx : x + w ≤ width) (hy : y + h ≤ height) :
    (ofFunction width height value).window? x y w h =
      some ((ofFunction width height value).window x y w h) := by
  rw [window?, corner?_eq hx hy, corner?_eq (by omega) (by omega), corner?_eq (by omega) hy,
    corner?_eq hx (by omega)]
  rfl

end Tables

end SummedArea

def Moments.ofImage? (image : Gray) : Option Moments := do
  let values ← SummedArea.ofFunction? image.width image.height fun x y => do
    pure (← image.get? x y).toNat
  let squares ← SummedArea.ofFunction? image.width image.height fun x y => do
    pure ((← image.get? x y).toNat * (← image.get? x y).toNat)
  pure { values, squares }

theorem Moments.ofImage?_eq (image : Gray) : Moments.ofImage? image = some (Moments.ofImage image) := by
  have values := @SummedArea.ofFunction?_eq image.width image.height
    (fun x y => (image.get x y).toNat) (fun x y => do pure (← image.get? x y).toNat)
    fun x hx y hy => by
      rw [image.get?_eq hx hy]
      rfl
  have squares := @SummedArea.ofFunction?_eq image.width image.height
    (fun x y => (image.get x y).toNat * (image.get x y).toNat)
    (fun x y => do pure ((← image.get? x y).toNat * (← image.get? x y).toNat))
    fun x hx y hy => by
      rw [image.get?_eq hx hy]
      rfl
  rw [Moments.ofImage?, values, squares]
  rfl

/-! ## Scores -/

namespace Needle

section Scores

variable {α : Type}

theorem FitsAt.get?_eq {n : Needle α} {image : Gray} {x y i j : Nat} (fits : n.FitsAt image ⟨x, y⟩)
    (before : i < n.width) (below : j < n.height) :
    image.get? (x + i) (y + j) = some (image.get (x + i) (y + j)) := by
  obtain ⟨right, bottom⟩ := fits
  dsimp only at right bottom
  exact image.get?_eq (by omega) (by omega)

def windowSum? (n : Needle α) (image : Gray) (x y : Nat) (f : Nat → Nat) : Option Nat :=
  loop? n.height (fun j sum =>
    loop? n.width (fun i sum => do pure (sum + f (← image.get? (x + i) (y + j)).toNat)) sum) 0

theorem windowSum?_eq {n : Needle α} {image : Gray} {x y : Nat} (fits : n.FitsAt image ⟨x, y⟩)
    (f : Nat → Nat) : n.windowSum? image x y f = some (n.windowSum image x y f) := by
  refine loop?_eq fun j sum below => loop?_eq fun i sum before => ?_
  rw [fits.get?_eq before below]
  rfl

variable [Scalar α]

def cross? (n : Needle α) (image : Gray) (x y : Nat) : Option α :=
  loop? n.height (fun j sum => do
    let row ← loop? n.width (fun i sum => do
      let pixel ← image.get? (x + i) (y + j)
      let weight ← n.centred[j * n.width + i]?
      pure (sum + Scalar.ofNat pixel.toNat * weight)) (Scalar.ofNat 0)
    pure (sum + row)) (Scalar.ofNat 0)

def correlation? (n : Needle α) (image : Gray) (x y sum squares : Nat) : Option α :=
  let count : α := Scalar.ofNat (n.width * n.height)
  let variance := n.variance sum squares
  let flat := variance < flatness * count
  if n.energy < flatness then
    if flat then
      some (Scalar.ofNat 1 - Scalar.distance (Scalar.ofNat sum / count) n.mean / Scalar.ofNat 255)
    else some (Scalar.ofNat 0)
  else if flat then some (Scalar.ofNat 0)
  else do pure ((← n.cross? image x y) / Scalar.sqrt (variance * n.energy))

def score? (n : Needle α) (image : Gray) (x y sum squares : Nat) : Option α := do
  pure (Scalar.clamp (Scalar.ofNat 0) (Scalar.ofNat 1) (← n.correlation? image x y sum squares))

def scoreAt? (n : Needle α) (image : Gray) (x y : Nat) : Option α := do
  n.score? image x y (← n.windowSum? image x y id) (← n.windowSum? image x y fun v => v * v)

def scoreMap? (n : Needle α) (image : Gray) : Option (Array α) := do
  let moments ← Moments.ofImage? image
  let columns := (← difference? image.width n.width) + 1
  let rows := (← difference? image.height n.height) + 1
  Array.ofFnM fun i : Fin (columns * rows) => do
    let x := i % columns
    let y := i / columns
    n.score? image x y (← moments.values.window? x y n.width n.height)
      (← moments.squares.window? x y n.width n.height)

def Complete (n : Needle α) : Prop :=
  n.centred.size = n.width * n.height

theorem complete_ofImage (t : Gray) : (ofImage t : Needle α).Complete :=
  Array.size_map.trans t.size_pixels

variable {n : Needle α} {image : Gray} {x y : Nat} (complete : n.Complete)
  (fits : n.FitsAt image ⟨x, y⟩)

include complete fits

theorem cross?_eq : n.cross? image x y = some (n.cross image x y) := by
  refine loop?_eq fun j sum below => ?_
  have row : loop? n.width (fun i sum => do
      let pixel ← image.get? (x + i) (y + j)
      let weight ← n.centred[j * n.width + i]?
      pure (sum + Scalar.ofNat pixel.toNat * weight)) (Scalar.ofNat 0) =
      some (sumTo n.width fun i => Scalar.ofNat (image.get (x + i) (y + j)).toNat *
        n.centred.getD (j * n.width + i) (Scalar.ofNat 0)) := by
    refine loop?_eq fun i sum before => ?_
    have inside : j * n.width + i < n.centred.size := complete.symm ▸ Raster.index_lt before below
    rw [fits.get?_eq before below, getElem?_eq_getD inside (Scalar.ofNat 0)]
    rfl
  rw [row]
  rfl

theorem score?_eq (sum squares : Nat) :
    n.score? image x y sum squares = some (n.score image x y sum squares) := by
  have correlated : n.correlation? image x y sum squares =
      some (n.correlation image x y sum squares) := by
    unfold correlation? correlation
    rw [cross?_eq complete fits]
    simp only [apply_ite some]
    rfl
  rw [score?, correlated]
  rfl

theorem scoreAt?_eq : n.scoreAt? image x y = some (n.scoreAt image x y) := by
  rw [scoreAt?, windowSum?_eq fits, windowSum?_eq fits]
  exact score?_eq complete fits _ _

omit fits

theorem scoreMap?_eq (width : n.width ≤ image.width) (height : n.height ≤ image.height) :
    n.scoreMap? image = some (n.scoreMap image) := by
  rw [scoreMap?, Moments.ofImage?_eq, difference?_eq width, difference?_eq height]
  have entries (i : Fin (n.columns image * n.rows image)) :
      (do
        n.score? image (i % n.columns image) (i / n.columns image)
          (← (Moments.ofImage image).values.window? (i % n.columns image) (i / n.columns image)
            n.width n.height)
          (← (Moments.ofImage image).squares.window? (i % n.columns image) (i / n.columns image)
            n.width n.height)) =
      some (n.score image (i % n.columns image) (i / n.columns image)
        ((Moments.ofImage image).values.window (i % n.columns image) (i / n.columns image)
          n.width n.height)
        ((Moments.ofImage image).squares.window (i % n.columns image) (i / n.columns image)
          n.width n.height)) := by
    have fits : n.FitsAt image ⟨i % n.columns image, i / n.columns image⟩ :=
      fitsAt_placement width height i.isLt
    have right : i % n.columns image + n.width ≤ image.width := fits.1
    have bottom : i / n.columns image + n.height ≤ image.height := fits.2
    rw [Moments.ofImage, SummedArea.window?_eq right bottom, SummedArea.window?_eq right bottom]
    exact score?_eq complete fits _ _
  exact (congrArg Array.ofFnM (funext entries)).trans Array.ofFnM_pure

end Scores

end Needle

/-! ## Searches -/

namespace Window

def scanCost? (image template : Size) (level : Nat) : Option Nat := do
  let columns := (← difference? (image.width >>> level) (template.width >>> level)) + 1
  let rows := (← difference? (image.height >>> level) (template.height >>> level)) + 1
  pure (columns * rows * (template.width >>> level * template.height >>> level))

def levelFrom? (image template : Size) (level : Nat) : Nat → Option Nat
  | 0 => some level
  | n + 1 => do
    if (← scanCost? image template level) ≤ scanBudget then pure level
    else if template.width >>> (level + 1) < minSide ∨ template.height >>> (level + 1) < minSide then
      pure level
    else levelFrom? image template (level + 1) n

def searchLevel? (image template : Size) : Option Nat :=
  levelFrom? image template 0 maxLevel

def latest? (m n k : Nat) : Option Nat := do
  pure (min k (← difference? m n))

def refine? (image : Gray) (needle : Needle Float) (position : Placement) : Option Window := do
  let x ← latest? image.width needle.width position.x
  let y ← latest? image.height needle.height position.y
  let left := x - refineRadius
  let top := y - refineRadius
  let columns := (← latest? image.width needle.width (x + refineRadius)) - left + 1
  let rows := (← latest? image.height needle.height (y + refineRadius)) - top + 1
  loop? (columns * rows) (fun i best => do
    let corner : Placement := ⟨left + i % columns, top + i / columns⟩
    let score ← needle.scoreAt? image corner.x corner.y
    pure (if best.score < score then ⟨corner, score⟩ else best)) ⟨⟨x, y⟩, lowest⟩

def descend? (pyramid : Pyramid) (needle : Nat → Needle Float) :
    Nat → List Window → Option (List Window)
  | 0, windows => some windows
  | n + 1, windows => do
    let finer ← pyramid.level? n
    descend? pyramid needle n (← windows.mapM fun w => refine? finer (needle n) w.doubled)

section Sizes

variable {image template : Size} (width : template.width ≤ image.width)
  (height : template.height ≤ image.height)

include width height

theorem scanCost?_eq (level : Nat) :
    scanCost? image template level = some (scanCost image template level) := by
  have columns : template.width >>> level ≤ image.width >>> level := by
    simp only [Nat.shiftRight_eq_div_pow]
    exact Nat.div_le_div_right width
  have rows : template.height >>> level ≤ image.height >>> level := by
    simp only [Nat.shiftRight_eq_div_pow]
    exact Nat.div_le_div_right height
  rw [scanCost?, difference?_eq columns, difference?_eq rows]
  rfl

theorem levelFrom?_eq (level n : Nat) :
    levelFrom? image template level n = some (levelFrom image template level n) := by
  induction n generalizing level with
  | zero => rfl
  | succ n ih =>
      rw [levelFrom?, levelFrom, scanCost?_eq width height, ih]
      simp only [apply_ite some]
      rfl

theorem searchLevel?_eq : searchLevel? image template = some (searchLevel image template) :=
  levelFrom?_eq width height 0 maxLevel

end Sizes

section Refinements

theorem latest?_eq {m n : Nat} (h : n ≤ m) (k : Nat) : latest? m n k = some (latest m n k) := by
  rw [latest?, difference?_eq h]
  rfl

theorem refine?_eq {image : Gray} {n : Needle Float} (complete : n.Complete)
    (width : n.width ≤ image.width) (height : n.height ≤ image.height) (p : Placement) :
    refine? image n p = some (refine image n p) := by
  have steps := @loop?_eq Window (around image n p).count
    (fun i best => do
      let corner := (around image n p).corner i
      let score ← n.scoreAt? image corner.x corner.y
      pure (if best.score < score then ⟨corner, score⟩ else best))
    (fun i best =>
      let corner := (around image n p).corner i
      let score := n.scoreAt image corner.x corner.y
      if best.score < score then ⟨corner, score⟩ else best) ⟨centre image n p, lowest⟩
    fun i best less => by
      have scored : n.scoreAt? image ((around image n p).corner i).x ((around image n p).corner i).y =
          some (n.scoreAt image ((around image n p).corner i).x ((around image n p).corner i).y) :=
        Needle.scoreAt?_eq complete (fitsAt_corner width height less)
      dsimp only
      rw [scored]
      rfl
  rw [refine?, latest?_eq width, latest?_eq height]
  simp only [Option.bind_eq_bind, Option.bind_some]
  rw [latest?_eq width, latest?_eq height]
  exact steps

theorem descend?_eq {p : Pyramid} {needle : Nat → Needle Float} (complete : ∀ n, (needle n).Complete)
    (width : ∀ n, (needle n).width ≤ (Image.reduce p.base n).width)
    (height : ∀ n, (needle n).height ≤ (Image.reduce p.base n).height) (n : Nat)
    (made : n ≤ p.made.length) (windows : List Window) :
    descend? p needle n windows = some (descend p needle n made windows) := by
  induction n generalizing windows with
  | zero => rfl
  | succ n ih =>
      have refined (w : Window) : refine? (p.level n made) (needle n) w.doubled =
          some (refine (p.level n made) (needle n) w.doubled) := by
        rw [p.level_eq]
        exact refine?_eq (complete n) (width n) (height n) _
      rw [descend?, Pyramid.level?_eq made, Option.bind_eq_bind, Option.bind_some,
        mapM_eq_some_map fun w _ => refined w]
      exact ih _ _

end Refinements

end Window

open Window in
/-- The search for the best window with checks. -/
def bestWindow? (pyramid : Pyramid) (template : Gray) : Option (Option BestWindow × Pyramid) := do
  if !Gray.fits template pyramid.base then return (none, pyramid)
  let top ← searchLevel? pyramid.base.size template.size
  let grown := pyramid.upTo top
  let needle (n : Nat) : Needle Float := Needle.ofImage (Image.reduce template n)
  let coarse := needle top
  let image ← grown.level? top
  let scores ← coarse.scoreMap? image
  let columns := (← difference? image.width coarse.width) + 1
  if top = 0 then
    return ((scan scores columns).map fun window => ⟨window, none⟩, grown)
  let radius := max (min coarse.width coarse.height / 2) 1
  let seeds ← (peaks (scores.map Float.toBits) columns radius maxSeeds).mapM fun p => do
    pure (Window.mk p (← scores[p.y * columns + p.x]?))
  let found := preferred (← descend? grown needle top seeds)
  return (found.map fun window => ⟨window, some ⟨top, seeds.length⟩⟩, grown)

end ScreenScript
