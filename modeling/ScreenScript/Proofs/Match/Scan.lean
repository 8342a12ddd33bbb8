import ScreenScript.Proofs.Match.BestWindow
import ScreenScript.Proofs.Match.FirstBest

namespace ScreenScript

open Double (IsNumber)
open Peaks (Placement placement)

/-! ## The order of placements -/

namespace Peaks

def Placement.Before (p q : Placement) : Prop :=
  p.y < q.y ∨ p.y = q.y ∧ p.x < q.x

theorem Placement.Before.asymm {p q : Placement} (h : p.Before q) : ¬ q.Before p := by
  unfold Before at *
  omega

theorem placement_before {columns i j : Nat} (less : i < j) :
    (placement columns i).Before (placement columns j) := by
  have row : i / columns ≤ j / columns := Nat.div_le_div_right less.le
  rcases row.lt_or_eq with above | same
  · exact .inl above
  · refine .inr ⟨same, ?_⟩
    have first : columns * (i / columns) + i % columns = i := Nat.div_add_mod i columns
    have second : columns * (j / columns) + j % columns = j := Nat.div_add_mod j columns
    rw [same] at first
    change i % columns < j % columns
    omega

theorem placement_index {columns : Nat} {p : Placement} (column : p.x < columns) :
    placement columns (p.y * columns + p.x) = p := by
  have positive : 0 < columns := Nat.zero_lt_of_lt column
  rw [placement, Nat.mul_add_mod', Nat.mod_eq_of_lt column, Nat.mul_comm,
    Nat.mul_add_div positive, Nat.div_eq_of_lt column, Nat.add_zero]

end Peaks

/-! ## The placements of a template -/

namespace Needle

def placements {α : Type} (n : Needle α) (image : Gray) : List Placement :=
  (List.range (n.columns image * n.rows image)).map (placement (n.columns image))

section Placements

variable {α : Type} {n : Needle α} {image : Gray}

theorem pairwise_placements (n : Needle α) (image : Gray) :
    (n.placements image).Pairwise Placement.Before :=
  List.pairwise_lt_range.map _ fun _ _ => Peaks.placement_before

theorem mem_placements_iff (width : n.width ≤ image.width) (height : n.height ≤ image.height)
    {p : Placement} : p ∈ n.placements image ↔ n.FitsAt image p := by
  constructor
  · intro mem
    obtain ⟨i, inside, rfl⟩ := List.mem_map.1 mem
    exact fitsAt_placement width height (List.mem_range.1 inside)
  · rintro ⟨right, bottom⟩
    have column : p.x < n.columns image := by
      unfold columns
      omega
    have row : p.y < n.rows image := by
      unfold rows
      omega
    exact List.mem_map.2 ⟨_, List.mem_range.2 (Raster.index_lt column row),
      Peaks.placement_index column⟩

theorem toList_scoreMap [Scalar α] (width : n.width ≤ image.width) (height : n.height ≤ image.height) :
    (n.scoreMap image).toList = (n.placements image).map fun p => n.scoreAt image p.x p.y := by
  refine List.ext_getElem ?_ fun i inside _ => ?_
  · rw [Array.length_toList, size_scoreMap, placements, List.length_map, List.length_map,
      List.length_range]
  · rw [Array.length_toList] at inside
    have entry := getD_scoreMap width height (size_scoreMap (n := n) ▸ inside) (Scalar.ofNat 0)
    rw [Array.getD_eq_getD_getElem?, Array.getElem?_eq_getElem inside] at entry
    simpa [placements] using entry

end Placements

end Needle

/-! ## Scans -/

/-- Whether a window is the first, row by row, of those that look most like a template. -/
structure Window.IsBest (w : Window) (n : Needle Float) (image : Gray) : Prop
    extends w.IsAt n image where
  le : ∀ p, n.FitsAt image p → n.scoreAt image p.x p.y ≤ w.score
  lt : ∀ p, n.FitsAt image p → p.Before w.corner → n.scoreAt image p.x p.y < w.score

/-- Whether a score map scores each placement of a template in an image, and each of them once. -/
structure Needle.Covers (n : Needle Float) (image : Gray) : Prop where
  scores : (n.scoreMap image).toList = (n.placements image).map fun p => n.scoreAt image p.x p.y
  sorted : (n.placements image).Pairwise Placement.Before
  mem_iff : ∀ p, p ∈ n.placements image ↔
    p.x ≤ image.width - n.width ∧ p.y ≤ image.height - n.height

section Scans

variable {n : Needle Float} {image : Gray} (width : n.width ≤ image.width)
  (height : n.height ≤ image.height)

include width height

theorem Needle.covers : n.Covers image where
  scores := toList_scoreMap width height
  sorted := n.pairwise_placements image
  mem_iff p := by
    rw [mem_placements_iff width height, FitsAt]
    omega

theorem Window.isBest_of_scan (numbers : ∀ x y, IsNumber (n.scoreAt image x y)) {w : Window}
    (h : scan (n.scoreMap image) (n.columns image) = some w) : w.IsBest n image := by
  have located := isAt_of_scan width height h
  obtain ⟨⟨i, s⟩, best, rfl⟩ := Option.map_eq_some_iff.1 h
  rw [Needle.size_scoreMap] at best
  have same : ∀ j < n.columns image * n.rows image, (n.scoreMap image).getD j 0.0 =
      n.scoreAt image (placement (n.columns image) j).x (placement (n.columns image) j).y :=
    fun j inside => Needle.getD_scoreMap width height inside _
  -- Along the indices of the map this is a loop over numbers; the placements are its indices.
  have first := isFirstBest_of_firstBest best fun j inside => (same j inside).symm ▸ numbers _ _
  have first : IsFirstBest (fun p => n.scoreAt image p.x p.y) (n.placements image)
      (placement (n.columns image) i) :=
    first.map fun j inside => (same j (List.mem_range.1 inside)).symm
  refine ⟨located, fun p fits => ?_, fun p fits before => ?_⟩
  · rw [located.score]
    exact first.le (numbers _ _) ((Needle.mem_placements_iff width height).2 fits)
  · rw [located.score]
    exact first.lt (n.pairwise_placements image) (fun _ _ => Placement.Before.asymm)
      ((Needle.mem_placements_iff width height).2 fits) before

end Scans

/--
A search at full resolution compares all placements of the template, each of them once, and finds the
first of the best ones, row by row.
-/
theorem bestWindow_exhaustive (p : Pyramid) (t : Gray) (fits : Gray.fits t p.base = true)
    (level : Window.searchLevel p.base.size t.size = 0) (width : p.base.width < 2 ^ 32)
    (height : p.base.height < 2 ^ 32) :
    (Needle.ofImage t : Needle Float).Covers p.base ∧
      ∃ w : Window, (bestWindow p t).1 = some ⟨w, none⟩ ∧ w.IsBest (Needle.ofImage t) p.base := by
  obtain ⟨wide, high, right, bottom⟩ := Image.fits_iff.1 fits
  refine ⟨Needle.covers right bottom, ?_⟩
  have numbers (x y : Nat) : IsNumber ((Needle.ofImage t : Needle Float).scoreAt p.base x y) :=
    Needle.isNumber_scoreAt ⟨wide, high⟩ (by omega) (by omega) p.base x y
  obtain ⟨w, found⟩ := Option.isSome_iff_exists.1 (@Window.isSome_scan p.base (Needle.ofImage t))
  refine ⟨w, ?_, Window.isBest_of_scan right bottom numbers found⟩
  rw [bestWindow_of_level_zero fits level, found]
  rfl

theorem bestWindow_exhaustive_stripes :
    let image : Gray := Raster.generate 5 1 fun x _ => if x % 2 = 0 then 0 else 255
    let stripe : Gray := Raster.generate 2 1 fun x _ => if x = 0 then 0 else 255
    ∃ w : Window, (bestWindow (.ofImage image) stripe).1 = some ⟨w, none⟩ ∧
      w.IsBest (Needle.ofImage stripe) image ∧ w.corner = ⟨0, 0⟩ := by
  intro image stripe
  obtain ⟨-, w, found, first⟩ :=
    bestWindow_exhaustive (.ofImage image) stripe (by decide) (by decide) (by decide) (by decide)
  have corner : ((bestWindow (.ofImage image) stripe).1.map fun b => b.window.corner) = some ⟨0, 0⟩ := by
    decide +kernel
  rw [found] at corner
  exact ⟨w, found, first, Option.some_inj.1 corner⟩

end ScreenScript
