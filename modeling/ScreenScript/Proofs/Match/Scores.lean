import ScreenScript.Match.Window
import ScreenScript.Proofs.Match.SummedArea
import ScreenScript.Proofs.Number.Order

namespace ScreenScript

open Double

namespace Needle

section Sums

variable {f : Nat → Float} {m n : Nat} {k : ℤ}

theorem sized_ofNat (n : Nat) : Sized (Scalar.ofNat n) 1 64 :=
  sized_natural _

theorem is_ofNat (small : n < 2 ^ 53) : Is (Scalar.ofNat n) .positive n := by
  have same : n.toUInt64.toNat = n := toNat_toUInt64 (by omega)
  have is := is_natural (n := n.toUInt64) (by rwa [same])
  rwa [same] at is

theorem atLeast_ofNat (pos : 0 < n) (small : n < 2 ^ 64) : AtLeast (Scalar.ofNat n) 0 :=
  atLeast_natural (by rwa [toNat_toUInt64 small])

theorem sized_zero (n : Nat) (k : ℤ) : Sized (Scalar.ofNat 0) n k := by
  have is := is_ofNat (n := 0) (by norm_num)
  refine is.sized ?_
  rw [Nat.cast_zero]
  positivity

theorem sized_sumTo (h : ∀ i, Sized (f i) m k) (small : n * m < 2 ^ 53) (low : -1074 ≤ k)
    (fits : k ≤ 971) : Sized (sumTo n f) (n * m) k := by
  induction n with
  | zero => exact sized_zero _ k
  | succ n ih =>
      rw [Nat.succ_mul] at small ⊢
      rw [sumTo_succ]
      exact (ih (by omega)).add (h n) small low fits

theorem nonneg_squares {vs : List Float} {sum : Float} (start : Nonneg sum)
    (bounded : ∀ v ∈ vs, Sized v m k) : Nonneg (vs.foldl (fun sum v => sum + v * v) sum) := by
  induction vs generalizing sum with
  | nil => exact start
  | cons v vs ih =>
      have square := (bounded v List.mem_cons_self).mul_self_nonneg
      exact ih (start.add square) fun u mem => bounded u (List.mem_cons_of_mem v mem)

end Sums

section Template

variable (t image : Gray)

theorem area_lt {width height : Nat} (w : width < 2 ^ 32) (h : height < 2 ^ 32) :
    width * height < 2 ^ 64 := by
  calc width * height ≤ 2 ^ 32 * height := Nat.mul_le_mul_right _ w.le
    _ < 2 ^ 32 * 2 ^ 32 := Nat.mul_lt_mul_of_pos_left h (by norm_num)
    _ = 2 ^ 64 := by norm_num

variable {t} (w : t.width < 2 ^ 32) (h : t.height < 2 ^ 32)

include w h

theorem sized_mean : Sized (ofImage t : Needle Float).mean 1 64 := by
  have area := area_lt w h
  have count : AtLeast (Scalar.ofNat (max t.pixels.size 1)) 0 :=
    atLeast_ofNat (by omega) (by rw [t.size_pixels]; omega)
  have mean := (sized_ofNat (t.pixels.foldl (fun sum p => sum + p.toNat) 0)).div count (by norm_num)
    (by norm_num) (by norm_num)
  rw [sub_zero] at mean
  exact mean

theorem sized_of_mem_centred {v : Float} (mem : v ∈ (ofImage t : Needle Float).centred) :
    Sized v 2 64 := by
  obtain ⟨p, -, rfl⟩ := Array.mem_map.1 mem
  exact (sized_ofNat _).sub (sized_mean w h) (by norm_num) (by norm_num) (by norm_num)

theorem sized_centred (i : Nat) :
    Sized ((ofImage t : Needle Float).centred.getD i (Scalar.ofNat 0)) 2 64 := by
  by_cases inside : i < (ofImage t : Needle Float).centred.size
  · rw [Array.getD_eq_getD_getElem?, Array.getElem?_eq_getElem inside]
    exact sized_of_mem_centred w h (Array.getElem_mem inside)
  · rw [Array.getD_eq_getD_getElem?, Array.getElem?_eq_none (not_lt.1 inside)]
    exact sized_zero _ _

theorem nonneg_energy : Nonneg (ofImage t : Needle Float).energy := by
  have folded := nonneg_squares (nonneg_natural (Nat.toUInt64 0)) fun v mem =>
    sized_of_mem_centred w h (Array.mem_toList_iff.1 mem)
  rwa [Array.foldl_toList] at folded

theorem sized_cross (x y : Nat) : Sized ((ofImage t : Needle Float).cross image x y) (t.height * 1) 161 := by
  have small : t.height * 1 < 2 ^ 53 := by omega
  refine sized_sumTo (fun j => ?_) small (by norm_num) (by norm_num)
  have row : Sized (sumTo t.width fun i => Scalar.ofNat (image.get (x + i) (y + j)).toNat *
      (ofImage t : Needle Float).centred.getD (j * t.width + i) (Scalar.ofNat 0))
      (t.width * (1 * 2)) (64 + 64) :=
    sized_sumTo (fun i => (sized_ofNat _).mul (sized_centred w h _) (by norm_num) (by norm_num)
      (by norm_num)) (by omega) (by norm_num) (by norm_num)
  refine row.mono ?_
  have wide : t.width * (1 * 2) ≤ 2 ^ 33 := by omega
  have cast : ((t.width * (1 * 2) : ℕ) : ℚ) ≤ 2 ^ 33 := by exact_mod_cast wide
  calc ((t.width * (1 * 2) : ℕ) : ℚ) * 2 ^ (64 + 64 : ℤ) ≤ 2 ^ 33 * 2 ^ (64 + 64 : ℤ) := by gcongr
    _ = (1 : ℕ) * 2 ^ (161 : ℤ) := by norm_num

end Template

section Windows

variable {n : Needle Float} {width height : Nat}

theorem atLeast_flatness : AtLeast (flatness : Float) (-20) := by
  have one := is_ofNat (n := 1) (by norm_num)
  have million := is_ofNat (n := 1000000) (by norm_num)
  exact one.atLeast_div million (by norm_num) (by norm_num) (by norm_num)

def Sizable (n : Needle Float) : Prop :=
  0 < n.width * n.height ∧ n.width * n.height < 2 ^ 64

theorem Sizable.count (h : n.Sizable) : AtLeast (Scalar.ofNat (n.width * n.height)) 0 :=
  atLeast_ofNat h.1 h.2

theorem sized_variance (h : n.Sizable) (sum squares : Nat) :
    Sized (n.variance sum squares) (1 + 1) 128 := by
  have square := ((sized_ofNat sum).mul (sized_ofNat sum) (by norm_num) (by norm_num)
    (by norm_num)).div h.count (by norm_num) (by norm_num) (by norm_num)
  have squares' : Sized (Scalar.ofNat squares) 1 128 := (sized_ofNat squares).mono (by norm_num)
  have difference := squares'.sub square (by norm_num) (by norm_num) (by norm_num)
  unfold variance
  dsimp only
  split
  · exact sized_zero _ _
  · exact difference

theorem Sizable.flat (h : n.Sizable) :
    AtLeast (flatness * Scalar.ofNat (n.width * n.height) : Float) (-20) := by
  have flat := atLeast_flatness.mul h.count (by norm_num)
  rwa [add_zero] at flat

theorem sized_distance (h : n.Sizable) (mean : Sized n.mean 1 64) (sum : Nat) :
    Sized (Scalar.distance (Scalar.ofNat sum / Scalar.ofNat (n.width * n.height)) n.mean)
      (1 + 1) 64 := by
  have average := (sized_ofNat sum).div h.count (by norm_num) (by norm_num) (by norm_num)
  rw [sub_zero] at average
  unfold Scalar.distance
  split
  · exact mean.sub average (by norm_num) (by norm_num) (by norm_num)
  · exact average.sub mean (by norm_num) (by norm_num) (by norm_num)

theorem isNumber_correlation (h : n.Sizable) (mean : Sized n.mean 1 64) (energy : Nonneg n.energy)
    {k : Nat} {image : Gray} {x y : Nat} (cross : Sized (n.cross image x y) k 161)
    (sum squares : Nat) : IsNumber (n.correlation image x y sum squares) := by
  unfold correlation
  dsimp only
  split
  · split
    · have scaled := (sized_distance h mean sum).div
        (atLeast_ofNat (n := 255) (by norm_num) (by norm_num)) (by norm_num) (by norm_num)
        (by norm_num)
      exact ((sized_ofNat 1).sub scaled (by norm_num) (by norm_num) (by norm_num)).isNumber
    · exact (sized_ofNat 0).isNumber
  · rename_i notFlat
    split
    · exact (sized_ofNat 0).isNumber
    · rename_i uneven
      -- Neither is flat, so what is divided by is the root of a product of positive numbers.
      have variance := (sized_variance h sum squares).atLeast_of_not_lt h.flat uneven
      have energetic := energy.atLeast_of_not_lt atLeast_flatness notFlat
      obtain ⟨j, root⟩ := (variance.mul energetic (by norm_num)).sqrt
      exact cross.div_isNumber root

theorem lowest_lt_clamp {c : Float} (h : IsNumber c) :
    Window.lowest < Scalar.clamp (Scalar.ofNat 0) (Scalar.ofNat 1) c := by
  have zero : Window.lowest < (Scalar.ofNat 0 : Float) := by
    rw [lt_iff]
    rfl
  have one : Window.lowest < (Scalar.ofNat 1 : Float) := by
    rw [lt_iff]
    rfl
  unfold Scalar.clamp
  split
  · exact zero
  · rename_i notBelow
    split
    · exact one
    · exact h.lowest_lt (nonneg_natural _) notBelow

theorem lowest_lt_score {t : Gray} (fits : 0 < t.width ∧ 0 < t.height) (w : t.width < 2 ^ 32)
    (h : t.height < 2 ^ 32) (image : Gray) (x y sum squares : Nat) :
    Window.lowest < (ofImage t : Needle Float).score image x y sum squares := by
  have sizable : (ofImage t : Needle Float).Sizable := ⟨Nat.mul_pos fits.1 fits.2, area_lt w h⟩
  exact lowest_lt_clamp (isNumber_correlation sizable (sized_mean w h) (nonneg_energy w h)
    (sized_cross image w h x y) sum squares)

theorem isNumber_scoreAt {t : Gray} (fits : 0 < t.width ∧ 0 < t.height) (w : t.width < 2 ^ 32)
    (h : t.height < 2 ^ 32) (image : Gray) (x y : Nat) :
    IsNumber ((ofImage t : Needle Float).scoreAt image x y) := by
  have above : Window.lowest < (ofImage t : Needle Float).scoreAt image x y :=
    lowest_lt_score fits w h image x y _ _
  exact (Double.lt_iff_place.1 above).2.1

end Windows

end Needle

end ScreenScript
