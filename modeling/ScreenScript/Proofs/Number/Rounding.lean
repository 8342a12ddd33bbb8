import Mathlib

/-!
# Rounding to doubles

A double is rounded from a mantissa with two residual bits. All that is used of the rounding here is that
it never leaves the interval between two neighbouring doubles: a bound that is a double itself is a bound
of the rounded number too (`Rounded`).
-/

namespace ScreenScript.Double

open Float.Model Float.Model.UnpackedFloat

/-! ## Mantissas -/

def Truncates (em : ExtendedMantissa) (x : ℚ) : Prop :=
  em.mantissa ≤ x ∧ x < em.mantissa + 1 ∧ ((em.roundBit || em.stickyBit) = false ↔ x = em.mantissa)

def Approximates (mantissa : ℕ) (accuracy : Accuracy) (x : ℚ) : Prop :=
  Truncates (.ofMantissaAndAccuracy mantissa accuracy) x

theorem approximates_exact (m : ℕ) : Approximates m .exact m := by
  simp [Approximates, Truncates, ExtendedMantissa.ofMantissaAndAccuracy]

theorem approximates_inexact {m : ℕ} {x : ℚ} (below : m < x) (above : x < m + 1) (order : Ordering) :
    Approximates m (.inexact order) x := by
  have ne : ¬ x = m := ne_of_gt below
  cases order with
  | lt | eq | gt =>
      simp [Approximates, Truncates, ExtendedMantissa.ofMantissaAndAccuracy, below.le, above, ne]

namespace Truncates

variable {em : ExtendedMantissa} {x : ℚ}

theorem shiftRightOne (h : Truncates em x) : Truncates em.shiftRightOne (x / 2) := by
  obtain ⟨below, above, exact⟩ := h
  have halves : em.mantissa = 2 * (em.mantissa / 2) + em.mantissa % 2 := by omega
  have whole : (em.mantissa : ℚ) = 2 * (em.mantissa / 2 : ℕ) + (em.mantissa % 2 : ℕ) := by
    exact_mod_cast halves
  rcases Nat.mod_two_eq_zero_or_one em.mantissa with even | odd
  · rw [even] at whole
    simp only [Nat.cast_zero, add_zero] at whole
    refine ⟨?_, ?_, ?_⟩
    · simp only [ExtendedMantissa.shiftRightOne]
      linarith
    · simp only [ExtendedMantissa.shiftRightOne]
      linarith
    · simp only [ExtendedMantissa.shiftRightOne, even, bne_self_eq_false, Bool.false_or, exact]
      constructor
      · intro same
        linarith
      · intro same
        linarith
  · rw [odd] at whole
    simp only [Nat.cast_one] at whole
    refine ⟨?_, ?_, ?_⟩
    · simp only [ExtendedMantissa.shiftRightOne]
      linarith
    · simp only [ExtendedMantissa.shiftRightOne]
      linarith
    · simp only [ExtendedMantissa.shiftRightOne, odd]
      constructor
      · intro clear
        cases clear
      · intro same
        linarith

theorem shiftRight (h : Truncates em x) (n : ℕ) : Truncates (em >>> n) (x / 2 ^ n) := by
  change Truncates (n.repeat ExtendedMantissa.shiftRightOne em) _
  induction n with
  | zero => simpa [Nat.repeat] using h
  | succ n ih =>
      have next := ih.shiftRightOne
      rwa [div_div, ← pow_succ] at next

theorem roundedMantissa_cases (em : ExtendedMantissa) :
    em.roundedMantissa = em.mantissa ∨
      (em.roundedMantissa = em.mantissa + 1 ∧ (em.roundBit || em.stickyBit) = true) := by
  obtain ⟨mantissa, roundBit, stickyBit⟩ := em
  cases roundBit with
  | false =>
      cases stickyBit with
      | false | true => exact .inl rfl
  | true =>
      cases stickyBit with
      | false =>
          have rounded : ExtendedMantissa.roundedMantissa ⟨mantissa, true, false⟩ =
              mantissa + mantissa % 2 := rfl
          rcases Nat.mod_two_eq_zero_or_one mantissa with even | odd
          · exact .inl (by rw [rounded, even, Nat.add_zero])
          · exact .inr ⟨by rw [rounded, odd], rfl⟩
      | true => exact .inr ⟨rfl, rfl⟩

theorem roundedMantissa_le (h : Truncates em x) {b : ℕ} (bound : x ≤ b) : em.roundedMantissa ≤ b := by
  obtain ⟨below, above, exact⟩ := h
  have floor : em.mantissa ≤ b := by exact_mod_cast below.trans bound
  rcases roundedMantissa_cases em with same | ⟨next, residue⟩
  · omega
  · have ne : em.mantissa ≠ b := by
      rintro rfl
      have clear := exact.2 (le_antisymm bound below)
      rw [residue] at clear
      cases clear
    omega

theorem le_roundedMantissa (h : Truncates em x) {b : ℕ} (bound : (b : ℚ) ≤ x) :
    b ≤ em.roundedMantissa := by
  obtain ⟨below, above, exact⟩ := h
  have floor : b < em.mantissa + 1 := by exact_mod_cast bound.trans_lt above
  rcases roundedMantissa_cases em with same | ⟨next, residue⟩
  · omega
  · omega

end Truncates

/-! ## Data -/

def Canonical : UnpackedFloat → Prop
  | .finite _ m e _ => m < 2 ^ 53 ∧ -1074 ≤ e ∧ (2 ^ 52 ≤ m ∨ e = -1074)
  | _ => True

def magnitude : UnpackedFloat → ℚ
  | .finite _ m e _ => m * 2 ^ e
  | _ => 0

def HasSign (s : Sign) : UnpackedFloat → Prop
  | .zero s' => s' = s
  | .finite s' _ _ _ => s' = s
  | _ => False

structure Rounded (s : Sign) (x : ℚ) (f : UnpackedFloat) : Prop where
  canonical : Canonical f
  hasSign : HasSign s f
  le {n : ℕ} {k : ℤ} : n < 2 ^ 53 → -1074 ≤ k → x ≤ n * 2 ^ k → magnitude f ≤ n * 2 ^ k
  ge {n : ℕ} {k : ℤ} : n < 2 ^ 53 → -1074 ≤ k → n * 2 ^ k ≤ x → n * 2 ^ k ≤ magnitude f

theorem rounded_of_grid {s : Sign} {x : ℚ} {f : UnpackedFloat} {q : ℕ} {t : ℤ}
    (canonical : Canonical f) (hasSign : HasSign s f) (whole : magnitude f = q * 2 ^ t)
    (fine : t = -1074 ∨ (2 ^ 52 ≤ q ∧ 2 ^ 52 * 2 ^ t ≤ x)) (least : -1074 ≤ t)
    (le : ∀ b : ℕ, x ≤ b * 2 ^ t → q ≤ b) (ge : ∀ b : ℕ, (b : ℚ) * 2 ^ t ≤ x → b ≤ q) :
    Rounded s x f := by
  -- A double is on the grid, or far below the number because its exponent is smaller.
  have onGrid {n : ℕ} {k : ℤ} (coarse : t ≤ k) :
      (n : ℚ) * 2 ^ k = (n * 2 ^ (k - t).toNat : ℕ) * 2 ^ t := by
    have split : (2 : ℚ) ^ k = 2 ^ (k - t).toNat * 2 ^ t := by
      rw [← zpow_natCast, ← zpow_add₀ (by norm_num)]
      congr 1
      omega
    rw [split]
    push_cast
    ring
  have apart {n : ℕ} {k : ℤ} (small : n < 2 ^ 53) (finer : k < t) :
      (n : ℚ) * 2 ^ k < 2 ^ 52 * 2 ^ t := by
    have double : (2 : ℚ) ^ 53 * 2 ^ k ≤ 2 ^ 52 * 2 ^ t := by
      have step : (2 : ℚ) ^ (k + 1) ≤ 2 ^ t := zpow_le_zpow_right₀ (by norm_num) (by omega)
      rw [zpow_add_one₀ (by norm_num)] at step
      linarith
    have less : (n : ℚ) * 2 ^ k < 2 ^ 53 * 2 ^ k := by
      have cast : (n : ℚ) < 2 ^ 53 := by exact_mod_cast small
      exact mul_lt_mul_of_pos_right cast (by positivity)
    linarith
  refine ⟨canonical, hasSign, ?_, ?_⟩
  · intro n k small bounded above
    by_cases coarse : t ≤ k
    · rw [onGrid coarse] at above ⊢
      rw [whole]
      have bound := le _ above
      gcongr
    · rcases fine with rfl | ⟨-, far⟩
      · omega
      · have near := apart small (not_le.1 coarse)
        linarith
  · intro n k small bounded below
    rw [whole]
    by_cases coarse : t ≤ k
    · rw [onGrid coarse] at below ⊢
      have bound := ge _ below
      gcongr
    · rcases fine with rfl | ⟨large, -⟩
      · omega
      · have near := apart small (not_le.1 coarse)
        have cast : (2 : ℚ) ^ 52 ≤ q := by exact_mod_cast large
        have wide : (2 : ℚ) ^ 52 * 2 ^ t ≤ q * 2 ^ t := by gcongr
        linarith

section Shift

variable {m : ℕ} {e : ℤ} {acc : Accuracy} {x : ℚ}

theorem shiftToTargetExponent_eq (m : ℕ) (e : ℤ) (acc : Accuracy) :
    shiftToTargetExponent .binary64 m e acc =
      (ExtendedMantissa.ofMantissaAndAccuracy m acc >>> (max (m.log2 + 1 + e - 53) (-1074) - e).toNat,
        e + (max (m.log2 + 1 + e - 53) (-1074) - e).toNat) :=
  rfl

theorem bounds_of_shift (h : Approximates m acc x)
    {n : ℕ} (hn : (n : ℤ) = max (m.log2 + 1 + e - 53) (-1074) - e) :
    x / 2 ^ n ≤ (2 ^ 53 : ℕ) ∧ (e + n = -1074 ∨ (2 ^ 52 : ℕ) ≤ x / 2 ^ n) := by
  obtain ⟨below, above, -⟩ := h
  have mantissa : (ExtendedMantissa.ofMantissaAndAccuracy m acc).mantissa = m := by
    cases acc with
    | exact => rfl
    | inexact order =>
        cases order with
        | lt | eq | gt => rfl
  rw [mantissa] at below above
  have power : (0 : ℚ) < 2 ^ n := by positivity
  constructor
  · rw [div_le_iff₀ power]
    have size : m + 1 ≤ 2 ^ (m.log2 + 1) := Nat.lt_log2_self
    have grid : 2 ^ (m.log2 + 1) ≤ 2 ^ 53 * 2 ^ n := by
      rw [← pow_add]
      exact Nat.pow_le_pow_right (by norm_num) (by omega)
    have cast : ((m + 1 : ℕ) : ℚ) ≤ (2 ^ 53 * 2 ^ n : ℕ) := by exact_mod_cast size.trans grid
    push_cast at cast ⊢
    linarith
  · by_cases clamped : e + n = -1074
    · exact .inl clamped
    · right
      rw [le_div_iff₀ power]
      have pos : m ≠ 0 := by
        rintro rfl
        have log : Nat.log2 0 = 0 := by decide
        omega
      have size : 2 ^ m.log2 ≤ m := Nat.log2_self_le pos
      have grid : 2 ^ 52 * 2 ^ n = 2 ^ m.log2 := by
        rw [← pow_add]
        congr 1
        omega
      have cast : ((2 ^ 52 * 2 ^ n : ℕ) : ℚ) ≤ m := by exact_mod_cast grid.trans_le size
      push_cast at cast ⊢
      linarith

theorem rounded_roundWithAccuracy (s : Sign) (h : Approximates m acc x)
    (low : e ≤ max (m.log2 + 1 + e - 53) (-1074)) :
    Rounded s (x * 2 ^ e) (roundWithAccuracy .binary64 s m e acc) := by
  obtain ⟨n, hn⟩ : ∃ n : ℕ, (n : ℤ) = max (m.log2 + 1 + e - 53) (-1074) - e :=
    ⟨_, Int.toNat_of_nonneg (by omega)⟩
  have shift : (max (m.log2 + 1 + e - 53) (-1074) - e).toNat = n := by omega
  have cut := Truncates.shiftRight h n
  obtain ⟨top, bottom⟩ := bounds_of_shift h hn
  obtain ⟨q, hq⟩ : ∃ q, (ExtendedMantissa.ofMantissaAndAccuracy m acc >>> n).roundedMantissa = q :=
    ⟨_, rfl⟩
  have q_le : q ≤ 2 ^ 53 := hq ▸ cut.roundedMantissa_le top
  have regrid : x * 2 ^ e = x / 2 ^ n * 2 ^ (e + n) := by
    rw [zpow_add₀ (by norm_num), zpow_natCast]
    field_simp
  have grid : (0 : ℚ) < 2 ^ (e + n) := by positivity
  have fine : e + n = -1074 ∨ (2 ^ 52 ≤ q ∧ 2 ^ 52 * 2 ^ (e + n) ≤ x * 2 ^ e) := by
    refine bottom.imp_right fun far => ⟨hq ▸ cut.le_roundedMantissa far, ?_⟩
    rw [regrid]
    exact mul_le_mul_of_nonneg_right (by exact_mod_cast far) grid.le
  have bounds {f : UnpackedFloat} (canonical : Canonical f) (hasSign : HasSign s f)
      (whole : magnitude f = q * 2 ^ (e + n)) : Rounded s (x * 2 ^ e) f := by
    refine rounded_of_grid canonical hasSign whole fine (by omega) ?_ ?_
    · intro b above
      rw [regrid] at above
      exact hq ▸ cut.roundedMantissa_le (le_of_mul_le_mul_right above grid)
    · intro b below
      rw [regrid] at below
      exact hq ▸ cut.le_roundedMantissa (le_of_mul_le_mul_right below grid)
  rw [roundWithAccuracy, shiftToTargetExponent_eq, shift]
  dsimp only
  rw [hq, shiftToTargetExponent_eq]
  dsimp only
  -- Rounding up may carry into a bit more, which is shifted out again.
  rcases q_le.lt_or_eq with inside | full
  · have stays : (max ((q.log2 : ℤ) + 1 + (e + n) - 53) (-1074) - (e + n)).toNat = 0 := by
      have size : q.log2 < 53 := by
        rcases Nat.eq_zero_or_pos q with rfl | some
        · decide
        · exact (Nat.log2_lt some.ne').2 inside
      omega
    have same : (ExtendedMantissa.ofMantissaAndAccuracy q .exact >>> 0).mantissa = q := rfl
    simp only [stays, same]
    split
    · rename_i none
      refine bounds trivial rfl ?_
      rw [none]
      simp [magnitude]
    · refine bounds ⟨inside, by omega, ?_⟩ rfl (by simp [magnitude])
      rcases fine with clamped | ⟨large, -⟩
      · exact .inr (by omega)
      · exact .inl large
  · have grows : (max ((q.log2 : ℤ) + 1 + (e + n) - 53) (-1074) - (e + n)).toNat = 1 := by
      have size : q.log2 = 53 := by rw [full, Nat.log2_two_pow]
      omega
    have half : (ExtendedMantissa.ofMantissaAndAccuracy q .exact >>> 1).mantissa = 2 ^ 52 := by
      rw [full]
      rfl
    simp only [grows, half]
    rw [dif_neg (by norm_num)]
    refine bounds ⟨by norm_num, by omega, .inl le_rfl⟩ rfl ?_
    rw [magnitude, full, Nat.cast_one, zpow_add_one₀ (by norm_num)]
    push_cast
    ring

theorem log2_shiftLeft (pos : 0 < m) (n : ℕ) : (m <<< n).log2 = m.log2 + n := by
  induction n with
  | zero => rfl
  | succ n ih =>
      have some : m <<< n ≠ 0 := by
        rw [Nat.shiftLeft_eq]
        positivity
      rw [Nat.shiftLeft_succ, Nat.log2_two_mul some, ih, Nat.add_assoc]

theorem shiftLeft_mul (m n : ℕ) (e : ℤ) :
    ((m <<< n : ℕ) : ℚ) * 2 ^ (e - n) = m * 2 ^ e := by
  rw [Nat.shiftLeft_eq, zpow_sub₀ (by norm_num), zpow_natCast]
  push_cast
  field_simp

theorem rounded_round (s : Sign) (pos : 0 < m) (e : ℤ) :
    Rounded s (m * 2 ^ e) (round .binary64 s m e) := by
  obtain ⟨n, hn⟩ : ∃ n, (e - max (m.log2 + 1 + e - 53) (-1074)).toNat = n := ⟨_, rfl⟩
  have shifted : round .binary64 s m e =
      roundWithAccuracy .binary64 s (m <<< n) (e - n) .exact := by
    rw [← hn]
    rfl
  have rounded := @rounded_roundWithAccuracy (m <<< n) (e - n) _ _ s (approximates_exact (m <<< n)) (by
    rw [log2_shiftLeft pos]
    push_cast
    omega)
  rwa [shiftLeft_mul, ← shifted] at rounded

theorem normalize_cases (z : ℤ) (e : ℤ) :
    (z = 0 ∧ UnpackedFloat.normalize .binary64 z e .positive = .zero .positive) ∨
    (∃ s, s.apply z.natAbs = z ∧ Rounded s (z.natAbs * 2 ^ e) (UnpackedFloat.normalize .binary64 z e .positive)) := by
  unfold UnpackedFloat.normalize
  split
  · rename_i less
    have negative := Int.compare_eq_lt.1 less
    right
    refine ⟨.negative, ?_, ?_⟩
    · change -(z.natAbs : ℤ) = z
      omega
    · have same : (-z).toNat = z.natAbs := by omega
      rw [same]
      exact rounded_round _ (by omega) e
  · rename_i equal
    exact .inl ⟨Int.compare_eq_eq.1 equal, rfl⟩
  · rename_i greater
    have positive := Int.compare_eq_gt.1 greater
    right
    refine ⟨.positive, ?_, ?_⟩
    · change (z.natAbs : ℤ) = z
      omega
    · have same : z.toNat = z.natAbs := by omega
      rw [same]
      exact rounded_round _ (by omega) e

end Shift

end ScreenScript.Double
