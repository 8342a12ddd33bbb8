import ScreenScript.Proofs.Match.Scan

namespace ScreenScript

open Finset (range)

theorem Peaks.map_placement (columns rows : Nat) :
    (List.range (columns * rows)).map (placement columns) =
      (List.range rows).flatMap fun y => (List.range columns).map fun x => ⟨x, y⟩ := by
  induction rows with
  | zero => simp
  | succ rows ih =>
      rw [Nat.mul_succ, List.range_add, List.map_append, ih, List.range_succ, List.flatMap_append,
        List.flatMap_singleton, List.map_map]
      congr 1
      refine List.map_congr_left fun x mem => ?_
      rw [Function.comp, Nat.mul_comm]
      exact placement_index (p := ⟨x, rows⟩) (List.mem_range.1 mem)

theorem windowSum_le {f : Nat → Nat → Nat} {bound : Nat} (le : ∀ x y, f x y ≤ bound) (x y w h : Nat) :
    windowSum f x y w h ≤ w * h * bound := by
  have row (j : Nat) : ∑ i ∈ range w, f (x + i) (y + j) ≤ w * bound := by
    simpa using Finset.sum_le_card_nsmul (range w) _ bound fun i _ => le (x + i) (y + j)
  have rows := Finset.sum_le_card_nsmul (range h) _ (w * bound) fun j _ => row j
  calc windowSum f x y w h ≤ h * (w * bound) := by simpa [windowSum] using rows
    _ = w * h * bound := by ring

theorem Needle.toList_scoreMap_rows {α : Type} [Scalar α] {n : Needle α} {image : Gray}
    (width : n.width ≤ image.width) (height : n.height ≤ image.height) :
    (n.scoreMap image).toList = (List.range (image.height - n.height + 1)).flatMap fun y =>
      (List.range (image.width - n.width + 1)).map fun x => n.scoreAt image x y := by
  rw [toList_scoreMap width height, placements, Peaks.map_placement, List.map_flatMap]
  simp only [List.map_map]
  rfl

namespace Moments

theorem window_values {image : Gray} {x y w h : Nat} (right : x + w ≤ image.width)
    (bottom : y + h ≤ image.height) : (ofImage image).values.window x y w h =
      ∑ j ∈ range h, ∑ i ∈ range w, (image.get (x + i) (y + j)).toNat :=
  SummedArea.window_ofFunction right bottom

theorem window_squares {image : Gray} {x y w h : Nat} (right : x + w ≤ image.width)
    (bottom : y + h ≤ image.height) : (ofImage image).squares.window x y w h =
      ∑ j ∈ range h, ∑ i ∈ range w, (image.get (x + i) (y + j)).toNat ^ 2 := by
  simp only [sq]
  exact SummedArea.window_ofFunction right bottom

theorem corner_le {width height x y : Nat} {value : Nat → Nat → Nat} {bound : Nat}
    (le : ∀ x y, value x y ≤ bound) (right : x ≤ width) (bottom : y ≤ height) :
    (SummedArea.ofFunction width height value).corner x y ≤ width * height * bound := by
  rw [SummedArea.corner_ofFunction right bottom]
  exact (windowSum_le le 0 0 x y).trans (Nat.mul_le_mul_right _ (Nat.mul_le_mul right bottom))

theorem corner_lt {image : Gray} (few : image.width * image.height < 10 ^ 11) {x y : Nat}
    (right : x ≤ image.width) (bottom : y ≤ image.height) :
    (ofImage image).values.corner x y < 2 ^ 53 ∧ (ofImage image).squares.corner x y < 2 ^ 53 := by
  have pixel (x y : Nat) : (image.get x y).toNat ≤ 255 := Nat.le_of_lt_succ (UInt8.toNat_lt _)
  have values : (ofImage image).values.corner x y ≤ image.width * image.height * 255 :=
    corner_le pixel right bottom
  have squares : (ofImage image).squares.corner x y ≤ image.width * image.height * (255 * 255) :=
    corner_le (fun x y => Nat.mul_le_mul (pixel x y) (pixel x y)) right bottom
  omega

/--
The tables of an image give the sums of the pixels and of their squares over every window in it. So the
score map of a template that fits lists, row by row, the scores that its placements have by their pixels.
If there are fewer than a hundred thousand million pixels, every entry of a table is an exact double.
-/
theorem window_exact (image : Gray) :
    (∀ x y w h, x + w ≤ image.width → y + h ≤ image.height →
      (ofImage image).values.window x y w h =
        ∑ j ∈ range h, ∑ i ∈ range w, (image.get (x + i) (y + j)).toNat ∧
      (ofImage image).squares.window x y w h =
        ∑ j ∈ range h, ∑ i ∈ range w, (image.get (x + i) (y + j)).toNat ^ 2) ∧
    (∀ (α : Type) [Scalar α] (n : Needle α), n.width ≤ image.width → n.height ≤ image.height →
      (n.scoreMap image).toList = (List.range (image.height - n.height + 1)).flatMap fun y =>
        (List.range (image.width - n.width + 1)).map fun x => n.scoreAt image x y) ∧
    (image.width * image.height < 10 ^ 11 → ∀ x ≤ image.width, ∀ y ≤ image.height,
      (ofImage image).values.corner x y < 2 ^ 53 ∧ (ofImage image).squares.corner x y < 2 ^ 53) := by
  refine ⟨fun x y w h right bottom => ?_, fun α _ n width height => ?_, fun few x right y bottom => ?_⟩
  · exact ⟨window_values right bottom, window_squares right bottom⟩
  · exact Needle.toList_scoreMap_rows width height
  · exact corner_lt few right bottom

theorem window_exact_ramp :
    let image : Gray := .generate 3 2 fun x y => UInt8.ofNat (x + 3 * y)
    let n : Needle Float := .ofImage (image.crop ⟨1, 0, 2, 1⟩)
    (ofImage image).values.window 1 0 2 2 = 1 + 2 + 4 + 5 ∧
      (ofImage image).squares.window 1 0 2 2 = 1 + 4 + 16 + 25 ∧
      (n.scoreMap image).toList = [n.scoreAt image 0 0, n.scoreAt image 1 0, n.scoreAt image 0 1,
        n.scoreAt image 1 1] ∧
      (ofImage image).squares.corner 3 2 < 2 ^ 53 := by
  intro image n
  obtain ⟨windows, scores, small⟩ := window_exact image
  obtain ⟨values, squares⟩ := windows 1 0 2 2 (by decide) (by decide)
  refine ⟨values.trans (by decide), squares.trans (by decide), scores Float n (by decide) (by decide), ?_⟩
  exact (small (by decide) 3 (by decide) 2 (by decide)).2

end Moments

end ScreenScript
