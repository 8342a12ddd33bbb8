import ScreenScript.Proofs.Number.Arithmetic
import ScreenScript.Proofs.Number.Packing

namespace ScreenScript.Double

open Float.Model Float.Model.UnpackedFloat

def double (f : UnpackedFloat) : Float :=
  .ofModel (.pack f)

def datum (x : Float) : UnpackedFloat :=
  x.toModel.unpack

theorem datum_double (f : UnpackedFloat) :
    datum (double f) = UnpackedFloat.unpack .binary64 (UnpackedFloat.pack .binary64 f) :=
  rfl

def Is (x : Float) (s : Sign) (q : ℚ) : Prop :=
  ∃ f, x = double f ∧ datum x = f ∧ Canonical f ∧ HasSign s f ∧ magnitude f = q

def limit : ℚ :=
  2 ^ (1024 : ℤ)

theorem limit_eq (n : ℕ) (k : ℤ) (h : n + k = 1024) : limit = 2 ^ n * 2 ^ k := by
  rw [limit, ← h, zpow_add₀ (by norm_num), zpow_natCast]

theorem bound_lt_limit {n : ℕ} {k : ℤ} (small : n < 2 ^ 53) (fits : k ≤ 971) :
    (n : ℚ) * 2 ^ k < limit := by
  have cast : (n : ℚ) < 2 ^ 53 := by exact_mod_cast small
  have power : (2 : ℚ) ^ k ≤ 2 ^ (971 : ℤ) := zpow_le_zpow_right₀ (by norm_num) fits
  have positive : (0 : ℚ) < 2 ^ (971 : ℤ) := by positivity
  rw [limit_eq 53 971 rfl]
  calc (n : ℚ) * 2 ^ k ≤ n * 2 ^ (971 : ℤ) := mul_le_mul_of_nonneg_left power n.cast_nonneg
    _ < 2 ^ 53 * 2 ^ (971 : ℤ) := mul_lt_mul_of_pos_right cast positive

section Is

variable {x y : Float} {s t : Sign} {f g : UnpackedFloat} {q r : ℚ} {n m : ℕ} {k j : ℤ}

theorem datum_double_of_lt (canonical : Canonical f) (hasSign : HasSign s f)
    (less : magnitude f < limit) : datum (double f) = f := by
  rw [datum_double]
  cases f with
  | infinity | notANumber => cases hasSign
  | zero s' => exact unpack_zero s'
  | finite s' m e pos =>
      refine unpack_pack_finite canonical ?_
      by_contra large
      obtain ⟨-, -, shape⟩ := canonical
      have wide : 2 ^ 52 ≤ m := shape.resolve_right (by omega)
      have cast : (2 : ℚ) ^ 52 ≤ m := by exact_mod_cast wide
      have power : (2 : ℚ) ^ (972 : ℤ) ≤ 2 ^ e := zpow_le_zpow_right₀ (by norm_num) (by omega)
      have bound : limit ≤ magnitude (.finite s' m e pos) := by
        rw [limit_eq 52 972 rfl]
        exact mul_le_mul cast power (by positivity) m.cast_nonneg
      exact absurd less (not_lt.2 bound)

theorem is_double (h : Rounded s q f) (small : n < 2 ^ 53) (low : -1074 ≤ k) (fits : k ≤ 971)
    (bound : q ≤ n * 2 ^ k) : Is (double f) s (magnitude f) ∧ magnitude f ≤ n * 2 ^ k := by
  have kept := h.le small low bound
  have less := kept.trans_lt (bound_lt_limit small fits)
  exact ⟨⟨f, rfl, datum_double_of_lt h.canonical h.hasSign less, h.canonical, h.hasSign, rfl⟩, kept⟩

theorem is_double_of_eq (h : Rounded s (n * 2 ^ k) f) (small : n < 2 ^ 53) (low : -1074 ≤ k)
    (fits : k ≤ 971) : Is (double f) s (n * 2 ^ k) := by
  obtain ⟨is, above⟩ := is_double h small low fits le_rfl
  rwa [le_antisymm above (h.ge small low le_rfl)] at is

theorem is_double_or (h : Rounded s q f) :
    Is (double f) s (magnitude f) ∨ datum (double f) = .infinity s := by
  obtain ⟨canonical, hasSign, -, -⟩ := h
  cases f with
  | infinity | notANumber => cases hasSign
  | zero s' => exact .inl ⟨_, rfl, unpack_zero s', trivial, hasSign, rfl⟩
  | finite s' m e pos =>
      cases hasSign
      by_cases fits : e ≤ 971
      · exact .inl ⟨_, rfl, unpack_pack_finite canonical fits, canonical, rfl, rfl⟩
      · exact .inr (@unpack_pack_overflow _ _ _ pos (not_le.1 fits))

/-! ## A double is its sign and its magnitude -/

theorem magnitude_lt_of_exponent_lt {e k : ℤ} {m n : ℕ} {pos : 0 < m} {pos' : 0 < n}
    (hf : Canonical (.finite s m e pos)) (hg : Canonical (.finite t n k pos')) (less : e < k) :
    (m : ℚ) * 2 ^ e < n * 2 ^ k := by
  obtain ⟨small, least, -⟩ := hf
  obtain ⟨-, -, shape⟩ := hg
  have large : 2 ^ 52 ≤ n := shape.resolve_right (by omega)
  have cast : (m : ℚ) < 2 ^ 53 := by exact_mod_cast small
  have cast' : (2 : ℚ) ^ 52 ≤ n := by exact_mod_cast large
  have power : (2 : ℚ) ^ (e + 1) ≤ 2 ^ k := zpow_le_zpow_right₀ (by norm_num) (by omega)
  have positive : (0 : ℚ) < 2 ^ e := by positivity
  calc (m : ℚ) * 2 ^ e < 2 ^ 53 * 2 ^ e := mul_lt_mul_of_pos_right cast positive
    _ = 2 ^ 52 * 2 ^ (e + 1) := by
      rw [zpow_add_one₀ (by norm_num)]
      ring
    _ ≤ n * 2 ^ k := mul_le_mul cast' power (by positivity) n.cast_nonneg

theorem magnitude_pos (m : ℕ) (e : ℤ) (pos : 0 < m) : 0 < magnitude (.finite s m e pos) := by
  have cast : (0 : ℚ) < m := by exact_mod_cast pos
  exact mul_pos cast (by positivity)

theorem eq_of_magnitude_eq (hf : Canonical f) (hg : Canonical g) (sf : HasSign s f)
    (sg : HasSign s g) (same : magnitude f = magnitude g) : f = g := by
  cases f with
  | infinity | notANumber => cases sf
  | zero s' =>
      cases sf
      cases g with
      | infinity | notANumber => cases sg
      | zero t' =>
          cases sg
          rfl
      | finite t' n k pos' => exact absurd same (magnitude_pos n k pos').ne
  | finite s' m e pos =>
      cases sf
      cases g with
      | infinity | notANumber => cases sg
      | zero t' => exact absurd same (magnitude_pos m e pos).ne'
      | finite t' n k pos' =>
          cases sg
          rcases lt_trichotomy e k with less | rfl | greater
          · exact absurd same (magnitude_lt_of_exponent_lt hf hg less).ne
          · have power : (2 : ℚ) ^ e ≠ 0 := by positivity
            have mantissas : (m : ℚ) = n := mul_right_cancel₀ power same
            exact finite_congr (by exact_mod_cast mantissas) rfl
          · exact absurd same (magnitude_lt_of_exponent_lt hg hf greater).ne'

theorem Is.eq (hx : Is x s q) (hy : Is y s q) : x = y := by
  obtain ⟨f, rfl, -, hf, sf, rfl⟩ := hx
  obtain ⟨g, rfl, -, hg, sg, same⟩ := hy
  rw [eq_of_magnitude_eq hf hg sf sg same.symm]

/-! ## Comparison -/

theorem compare_eq_lt (hf : Canonical f) (hg : Canonical g) (sf : HasSign .positive f)
    (sg : HasSign .positive g) (less : magnitude f < magnitude g) :
    UnpackedFloat.compare f g = some .lt := by
  cases f with
  | infinity | notANumber => cases sf
  | zero s' =>
      cases g with
      | infinity | notANumber => cases sg
      | zero t' => exact absurd less (lt_irrefl _)
      | finite t' n k pos' =>
          cases sg
          rfl
  | finite s' m e pos =>
      cases sf
      cases g with
      | infinity | notANumber => cases sg
      | zero t' => exact absurd less (magnitude_pos m e pos).le.not_gt
      | finite t' n k pos' =>
          cases sg
          have order : (compare e k).then (compare m n) = .lt := by
            rcases lt_trichotomy e k with below | rfl | above
            · rw [Int.compare_eq_lt.2 below]
              rfl
            · have power : (0 : ℚ) < 2 ^ e := by positivity
              have mantissas : (m : ℚ) < n := lt_of_mul_lt_mul_right less power.le
              rw [Int.compare_eq_eq.2 rfl, Ordering.then]
              exact Nat.compare_eq_lt.2 (by exact_mod_cast mantissas)
            · exact absurd less (magnitude_lt_of_exponent_lt hg hf above).not_gt
          exact congrArg some order

theorem lt_iff (x y : Float) : x < y ↔ UnpackedFloat.compare (datum x) (datum y) = some .lt := by
  change decide ((UnpackedFloat.compare (datum x) (datum y) == some .lt) = true) = true ↔ _
  rw [decide_eq_true_iff, beq_iff_eq]

end Is

/-! ## Bounds -/

def Sized (x : Float) (n : ℕ) (k : ℤ) : Prop :=
  ∃ s q, Is x s q ∧ q ≤ n * 2 ^ k

section Bounds

variable {x y : Float} {s t : Sign} {f : UnpackedFloat} {q r : ℚ} {n m : ℕ} {k j : ℤ}

theorem datum_add (x y : Float) :
    x + y = double (UnpackedFloat.add .binary64 (datum x) (datum y)) :=
  rfl

theorem datum_sub (x y : Float) :
    x - y = double (UnpackedFloat.sub .binary64 (datum x) (datum y)) :=
  rfl

theorem datum_mul (x y : Float) :
    x * y = double (UnpackedFloat.mul .binary64 (datum x) (datum y)) :=
  rfl

theorem datum_div (x y : Float) :
    x / y = double (UnpackedFloat.div .binary64 (datum x) (datum y)) :=
  rfl

theorem datum_sqrt (x : Float) : x.sqrt = double (UnpackedFloat.sqrt .binary64 (datum x)) :=
  rfl

theorem Is.sized (h : Is x s q) (bound : q ≤ n * 2 ^ k) : Sized x n k :=
  ⟨s, q, h, bound⟩

theorem sized_of_rounded (h : Rounded s q f) (small : n < 2 ^ 53) (low : -1074 ≤ k) (fits : k ≤ 971)
    (bound : q ≤ n * 2 ^ k) : Sized (double f) n k := by
  obtain ⟨is, kept⟩ := is_double h small low fits bound
  exact is.sized kept

theorem Sized.add (hx : Sized x n k) (hy : Sized y m k) (small : n + m < 2 ^ 53) (low : -1074 ≤ k)
    (fits : k ≤ 971) : Sized (x + y) (n + m) k := by
  obtain ⟨s, q, ⟨f, rfl, fx, hf, sf, rfl⟩, boundX⟩ := hx
  obtain ⟨t, r, ⟨g, rfl, gy, hg, sg, rfl⟩, boundY⟩ := hy
  obtain ⟨u, rounded, -⟩ := rounded_add hf hg sf sg
  have sum : |value f + value g| ≤ (n + m : ℕ) * 2 ^ k := by
    refine (abs_add_le _ _).trans ?_
    rw [abs_value, abs_value]
    push_cast
    linarith
  rw [datum_add, fx, gy]
  exact sized_of_rounded rounded small low fits sum

theorem Sized.sub (hx : Sized x n k) (hy : Sized y m k) (small : n + m < 2 ^ 53) (low : -1074 ≤ k)
    (fits : k ≤ 971) : Sized (x - y) (n + m) k := by
  obtain ⟨s, q, ⟨f, rfl, fx, hf, sf, rfl⟩, boundX⟩ := hx
  obtain ⟨t, r, ⟨g, rfl, gy, hg, sg, rfl⟩, boundY⟩ := hy
  obtain ⟨u, rounded⟩ := rounded_sub hf hg sf sg
  have difference : |value f - value g| ≤ (n + m : ℕ) * 2 ^ k := by
    refine (abs_sub _ _).trans ?_
    rw [abs_value, abs_value]
    push_cast
    linarith
  rw [datum_sub, fx, gy]
  exact sized_of_rounded rounded small low fits difference

theorem Sized.mul (hx : Sized x n k) (hy : Sized y m j) (small : n * m < 2 ^ 53)
    (low : -1074 ≤ k + j) (fits : k + j ≤ 971) : Sized (x * y) (n * m) (k + j) := by
  obtain ⟨s, q, ⟨f, rfl, fx, hf, sf, rfl⟩, boundX⟩ := hx
  obtain ⟨t, r, ⟨g, rfl, gy, hg, sg, rfl⟩, boundY⟩ := hy
  have rounded := rounded_mul hf hg sf sg
  have product : magnitude f * magnitude g ≤ (n * m : ℕ) * 2 ^ (k + j) := by
    rw [magnitude_mul]
    exact mul_le_mul boundX boundY (abs_value g ▸ abs_nonneg _) (by positivity)
  rw [datum_mul, fx, gy]
  exact sized_of_rounded rounded small low fits product

theorem Sized.mono (h : Sized x n k) (le : (n : ℚ) * 2 ^ k ≤ m * 2 ^ j) : Sized x m j := by
  obtain ⟨s, q, is, bound⟩ := h
  exact ⟨s, q, is, bound.trans le⟩

end Bounds

/-! ## Exact results -/

section Exact

variable {x y : Float} {s t : Sign} {f : UnpackedFloat} {q r : ℚ} {n : ℕ} {k : ℤ}

theorem value_of_positive (h : HasSign .positive f) : value f = magnitude f := by
  cases f with
  | infinity | notANumber => cases h
  | zero => rfl
  | finite =>
      cases h
      rfl

theorem Is.add (hx : Is x .positive q) (hy : Is y .positive r) (sum : q + r = n * 2 ^ k)
    (small : n < 2 ^ 53) (low : -1074 ≤ k) (fits : k ≤ 971) : Is (x + y) .positive (q + r) := by
  obtain ⟨f, rfl, fx, hf, sf, rfl⟩ := hx
  obtain ⟨g, rfl, gy, hg, sg, rfl⟩ := hy
  obtain ⟨u, rounded, sign⟩ := rounded_add hf hg sf sg
  have exact : |value f + value g| = n * 2 ^ k := by
    rw [value_of_positive sf, value_of_positive sg, sum, abs_of_nonneg (by positivity)]
  rw [sign rfl, exact] at rounded
  rw [sum, datum_add, fx, gy]
  exact is_double_of_eq rounded small low fits

theorem Is.div (hx : Is x s q) (hy : Is y t r) (ne : r ≠ 0) (quotient : q / r = n * 2 ^ k)
    (small : n < 2 ^ 53) (low : -1074 ≤ k) (fits : k ≤ 971) : Is (x / y) (s / t) (q / r) := by
  obtain ⟨f, rfl, fx, hf, sf, rfl⟩ := hx
  obtain ⟨g, rfl, gy, hg, sg, rfl⟩ := hy
  have rounded := rounded_div sf sg ne
  rw [quotient] at rounded
  rw [quotient, datum_div, fx, gy]
  exact is_double_of_eq rounded small low fits

end Exact

/-! ## Natural numbers -/

section Natural

theorem rounded_natural (n : UInt64) :
    Rounded .positive n.toNat (UnpackedFloat.normalize .binary64 n.toNat 0 .positive) := by
  rcases normalize_cases n.toNat 0 with ⟨none, zero⟩ | ⟨s, signed, rounded⟩
  · rw [zero, show n.toNat = 0 by omega, Nat.cast_zero]
    exact rounded_zero _
  · rw [Int.natAbs_natCast, zpow_zero, mul_one] at rounded
    cases s with
    | positive => exact rounded
    | negative =>
        have none : n.toNat = 0 := by
          simp only [Sign.apply, Int.natAbs_natCast] at signed
          omega
        rw [none, Nat.cast_zero]
        exact rounded_zero _

theorem is_natural {n : UInt64} (small : n.toNat < 2 ^ 53) : Is n.toFloat .positive n.toNat := by
  have rounded := rounded_natural n
  have grid : (n.toNat : ℚ) = n.toNat * 2 ^ (0 : ℤ) := by rw [zpow_zero, mul_one]
  rw [grid] at rounded ⊢
  exact is_double_of_eq rounded small (by norm_num) (by norm_num)

theorem is_two : Is 2.0 .positive 2 := by
  refine ⟨.finite .positive (2 ^ 52) (-51) (by norm_num), rfl, rfl, ?_, rfl, ?_⟩
  · exact ⟨by norm_num, by norm_num, .inl le_rfl⟩
  · norm_num [magnitude]

end Natural

end ScreenScript.Double
