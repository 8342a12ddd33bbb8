import Mathlib
import ScreenScript.Match.Needle

namespace ScreenScript

open Finset (range)

/-! ## Sums in order -/

theorem fold_add_eq_sum (n start : Nat) (f : Nat → Nat) :
    n.fold (fun i _ sum => sum + f i) start = start + ∑ i ∈ range n, f i := by
  induction n with
  | zero => rfl
  | succ n ih => rw [Nat.fold_succ, ih, Finset.sum_range_succ, Nat.add_assoc]

def windowSum (f : Nat → Nat → Nat) (x y w h : Nat) : Nat :=
  ∑ j ∈ range h, ∑ i ∈ range w, f (x + i) (y + j)

namespace SummedArea

section Rows

variable {above : Array Nat} {value : Nat → Nat}

def entry (above : Array Nat) (value : Nat → Nat) (x : Nat) : Nat :=
  above.getD x 0 + ∑ i ∈ range x, value i

theorem nextRow_state (origin : above.getD 0 0 = 0) (n : Nat) :
    n.fold (fun x _ (row, sum) =>
        let sum := sum + value x
        (row.push (above.getD (x + 1) 0 + sum), sum)) (#[0], 0) =
      (Array.ofFn fun x : Fin (n + 1) => entry above value x, ∑ i ∈ range n, value i) := by
  induction n with
  | zero => simp [Array.ofFn_succ, entry, origin]
  | succ n ih =>
      rw [Nat.fold_succ, ih]
      rw [Array.ofFn_succ (n := n + 1)]
      simp [entry, Finset.sum_range_succ]

theorem nextRow_eq (origin : above.getD 0 0 = 0) (width : Nat) :
    nextRow above width value = Array.ofFn fun x : Fin (width + 1) => entry above value x := by
  rw [nextRow, nextRow_state origin]

end Rows

section Tables

variable {width height : Nat} {value : Nat → Nat → Nat}

def row (width : Nat) (value : Nat → Nat → Nat) (y : Nat) : Array Nat :=
  Array.ofFn fun x : Fin (width + 1) => windowSum value 0 0 x y

theorem row_zero : row width value 0 = Array.replicate (width + 1) 0 := by
  apply Array.ext
  · simp [row]
  · intro i _ _
    simp [row, windowSum]

theorem getD_row {x : Nat} (h : x ≤ width) (y : Nat) :
    (row width value y).getD x 0 = windowSum value 0 0 x y := by
  rw [Array.getD_eq_getD_getElem?, row, Array.getElem?_ofFn, dif_pos (by omega)]
  rfl

theorem nextRow_row (y : Nat) :
    nextRow (row width value y) width (fun x => value x y) = row width value (y + 1) := by
  have origin : (row width value y).getD 0 0 = 0 := by
    rw [getD_row (Nat.zero_le _)]
    simp [windowSum]
  rw [nextRow_eq origin]
  unfold row
  congr 1
  funext x
  have column : (x : Nat) ≤ width := by omega
  rw [entry, ← row, getD_row column]
  simp [windowSum, Finset.sum_range_succ]

theorem ofFunction_state (n : Nat) :
    n.fold (fun y _ (rows, above) =>
        let row := nextRow above width fun x => value x y
        (rows.push row, row)) (#[Array.replicate (width + 1) 0], Array.replicate (width + 1) 0) =
      (Array.ofFn fun y : Fin (n + 1) => row width value y, row width value n) := by
  induction n with
  | zero => simp [Array.ofFn_succ, row_zero]
  | succ n ih =>
      rw [Nat.fold_succ, ih, Array.ofFn_succ (n := n + 1)]
      simp [nextRow_row]

theorem rows_ofFunction :
    (ofFunction width height value).rows =
      Array.ofFn fun y : Fin (height + 1) => row width value y := by
  rw [ofFunction, ofFunction_state]

theorem corner_ofFunction {x y : Nat} (hx : x ≤ width) (hy : y ≤ height) :
    (ofFunction width height value).corner x y = windowSum value 0 0 x y := by
  have line : (ofFunction width height value).rows.getD y #[] = row width value y := by
    rw [rows_ofFunction, Array.getD_eq_getD_getElem?, Array.getElem?_ofFn, dif_pos (by omega)]
    rfl
  rw [corner, line, getD_row hx]

theorem windowSum_split (value : Nat → Nat → Nat) (x y w h : Nat) :
    windowSum value 0 0 (x + w) (y + h) + windowSum value 0 0 x y =
      windowSum value x y w h + (windowSum value 0 0 x (y + h) + windowSum value 0 0 (x + w) y) := by
  have columns (n : Nat) : windowSum value 0 0 (x + w) n =
      windowSum value 0 0 x n + ∑ j ∈ range n, ∑ i ∈ range w, value (x + i) j := by
    simp only [windowSum, Nat.zero_add, Finset.sum_range_add, Finset.sum_add_distrib]
  rw [columns, columns, Finset.sum_range_add]
  simp only [windowSum, Nat.zero_add]
  omega

theorem window_ofFunction {x y w h : Nat} (hx : x + w ≤ width) (hy : y + h ≤ height) :
    (ofFunction width height value).window x y w h = windowSum value x y w h := by
  have split := windowSum_split value x y w h
  rw [window, corner_ofFunction hx hy, corner_ofFunction (by omega) (by omega),
    corner_ofFunction (by omega) hy, corner_ofFunction hx (by omega), split, Nat.add_sub_cancel]

end Tables

end SummedArea

namespace Needle

variable {α : Type}

theorem windowSum_eq (n : Needle α) (image : Gray) (x y : Nat) (f : Nat → Nat) :
    n.windowSum image x y f =
      ScreenScript.windowSum (fun x y => f (image.get x y).toNat) x y n.width n.height := by
  rw [windowSum]
  simp only [fold_add_eq_sum, Nat.zero_add]
  rfl

variable [Scalar α]

theorem sumTo_succ (k : Nat) (f : Nat → α) : sumTo (k + 1) f = sumTo k f + f k := by
  simp only [sumTo, Nat.fold_succ]

variable {n : Needle α} {image : Gray} {x y : Nat}

theorem score_moments (hx : x + n.width ≤ image.width) (hy : y + n.height ≤ image.height) :
    n.score image x y ((Moments.ofImage image).values.window x y n.width n.height)
        ((Moments.ofImage image).squares.window x y n.width n.height) =
      n.scoreAt image x y := by
  rw [scoreAt, windowSum_eq, windowSum_eq, Moments.ofImage]
  simp only [SummedArea.window_ofFunction hx hy]
  rfl

end Needle

end ScreenScript
