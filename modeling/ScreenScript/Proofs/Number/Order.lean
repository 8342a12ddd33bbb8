import ScreenScript.Proofs.Number.Positive

namespace ScreenScript.Double

open Float.Model Float.Model.UnpackedFloat

/-- Where a datum stands: infinities outside, and finite data by exponents before mantissas. -/
def place : UnpackedFloat → ℤ ×ₗ ℤ ×ₗ ℤ
  | .infinity .negative => toLex (-2, toLex (0, 0))
  | .finite .negative m e _ => toLex (-1, toLex (-e, -m))
  | .zero _ | .notANumber => toLex (0, toLex (0, 0))
  | .finite .positive m e _ => toLex (1, toLex (e, m))
  | .infinity .positive => toLex (2, toLex (0, 0))

section Data

variable {f g : UnpackedFloat}

theorem compare_natCast (m n : ℕ) : compare (m : ℤ) (n : ℤ) = compare m n := by
  rw [Int.compare_eq_ite_lt, Nat.compare_eq_ite_lt]
  simp only [Nat.cast_lt]

theorem compare_neg (e k : ℤ) : compare (-e) (-k) = (compare e k).swap := by
  rw [Int.compare_swap, Int.compare_eq_ite_lt, Int.compare_eq_ite_lt]
  simp only [neg_lt_neg_iff]

theorem compare_place_positive {m n : ℕ} {e k : ℤ} (pos : 0 < m) (pos' : 0 < n) :
    compare (place (.finite .positive m e pos)) (place (.finite .positive n k pos')) =
      (compare e k).then (compare m n) := by
  simp [place, Prod.Lex.compare_def, compareLex, compareOn, compare_natCast]

theorem compare_place_negative {m n : ℕ} {e k : ℤ} (pos : 0 < m) (pos' : 0 < n) :
    compare (place (.finite .negative m e pos)) (place (.finite .negative n k pos')) =
      ((compare e k).then (compare m n)).swap := by
  simp [place, Prod.Lex.compare_def, compareLex, compareOn, compare_natCast, compare_neg,
    Ordering.swap_then]

theorem compare_eq_place (hf : f ≠ .notANumber) (hg : g ≠ .notANumber) :
    UnpackedFloat.compare f g = some (compare (place f) (place g)) := by
  cases f with
  | notANumber => exact absurd rfl hf
  | infinity s =>
      cases g with
      | notANumber => exact absurd rfl hg
      | infinity t | finite t => cases s <;> cases t <;> rfl
      | zero => cases s <;> rfl
  | zero s =>
      cases g with
      | notANumber => exact absurd rfl hg
      | infinity t | finite t => cases t <;> rfl
      | zero => rfl
  | finite s m e pos =>
      cases g with
      | notANumber => exact absurd rfl hg
      | infinity t => cases s <;> cases t <;> rfl
      | zero => cases s <;> rfl
      | finite t n k pos' =>
          cases s with
          | negative =>
              cases t with
              | negative => exact congrArg some (compare_place_negative pos pos').symm
              | positive => rfl
          | positive =>
              cases t with
              | negative => rfl
              | positive => exact congrArg some (compare_place_positive pos pos').symm

theorem compare_notANumber (f : UnpackedFloat) : UnpackedFloat.compare f .notANumber = none := by
  cases f with
  | notANumber | zero => rfl
  | infinity s | finite s => cases s <;> rfl

end Data

section Comparisons

variable {x y z : Float}

theorem isNumber_iff : IsNumber x ↔ x.isNaN = false := by
  change datum x ≠ .notANumber ↔ (datum x).isNaN = false
  cases datum x with
  | notANumber => simp [UnpackedFloat.isNaN]
  | infinity | zero | finite => simp [UnpackedFloat.isNaN]

theorem compare_eq_some_iff {o : Ordering} : UnpackedFloat.compare (datum x) (datum y) = some o ↔
    IsNumber x ∧ IsNumber y ∧ compare (place (datum x)) (place (datum y)) = o := by
  by_cases hx : IsNumber x
  · by_cases hy : IsNumber y
    · simp [compare_eq_place hx hy, hx, hy]
    · rw [not_not.1 hy, compare_notANumber]
      simp [hy]
  · rw [not_not.1 hx]
    simp [hx, UnpackedFloat.compare]

theorem lt_iff_place :
    x < y ↔ IsNumber x ∧ IsNumber y ∧ place (datum x) < place (datum y) := by
  rw [lt_iff, compare_eq_some_iff, compare_lt_iff_lt]

theorem le_iff_place :
    x ≤ y ↔ IsNumber x ∧ IsNumber y ∧ place (datum x) ≤ place (datum y) := by
  change decide (((UnpackedFloat.compare (datum x) (datum y)).any (·.isLE)) = true) = true ↔ _
  simp only [decide_eq_true_eq, Option.any_eq_true, compare_eq_some_iff]
  constructor
  · rintro ⟨o, ⟨hx, hy, rfl⟩, le⟩
    exact ⟨hx, hy, compare_le_iff_le.1 (Ordering.isLE_iff_ne_gt.1 le)⟩
  · rintro ⟨hx, hy, le⟩
    exact ⟨_, ⟨hx, hy, rfl⟩, Ordering.isLE_iff_ne_gt.2 (compare_le_iff_le.2 le)⟩

protected theorem le_refl (h : IsNumber x) : x ≤ x :=
  le_iff_place.2 ⟨h, h, le_rfl⟩

protected theorem le_trans (xy : x ≤ y) (yz : y ≤ z) : x ≤ z := by
  obtain ⟨hx, -, xy⟩ := le_iff_place.1 xy
  obtain ⟨-, hz, yz⟩ := le_iff_place.1 yz
  exact le_iff_place.2 ⟨hx, hz, xy.trans yz⟩

protected theorem le_of_lt (h : x < y) : x ≤ y := by
  obtain ⟨hx, hy, less⟩ := lt_iff_place.1 h
  exact le_iff_place.2 ⟨hx, hy, less.le⟩

protected theorem lt_of_le_of_lt (xy : x ≤ y) (yz : y < z) : x < z := by
  obtain ⟨hx, -, xy⟩ := le_iff_place.1 xy
  obtain ⟨-, hz, yz⟩ := lt_iff_place.1 yz
  exact lt_iff_place.2 ⟨hx, hz, xy.trans_lt yz⟩

protected theorem not_lt (hx : IsNumber x) (hy : IsNumber y) : ¬ x < y ↔ y ≤ x := by
  rw [lt_iff_place, le_iff_place]
  simp [hx, hy]

protected theorem not_le_of_lt (h : x < y) : ¬ y ≤ x := by
  obtain ⟨hx, hy, -⟩ := lt_iff_place.1 h
  exact fun le => (Double.not_lt hx hy).2 le h

theorem Nonneg.zero_le (h : Nonneg x) : 0.0 ≤ x := by
  have zero : datum 0.0 = .zero .positive := rfl
  refine le_iff_place.2 ⟨(is_zero .positive).isNumber, h.isNumber, ?_⟩
  rw [zero]
  rcases h with ⟨q, f, -, fx, -, positive, -⟩ | top
  · rw [fx]
    cases f with
    | infinity | notANumber => cases positive
    | zero => exact le_rfl
    | finite s m e pos =>
        cases positive
        exact Prod.Lex.toLex_le_toLex.2 (.inl one_pos)
  · rw [top]
    exact Prod.Lex.toLex_le_toLex.2 (.inl two_pos)

end Comparisons

end ScreenScript.Double
