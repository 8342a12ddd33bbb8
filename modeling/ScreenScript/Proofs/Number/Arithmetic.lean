import ScreenScript.Proofs.Number.Rounding

namespace ScreenScript.Double

open Float.Model Float.Model.UnpackedFloat

variable {s t : Sign} {f g : UnpackedFloat}

/-! ## Sums -/

def value : UnpackedFloat → ℚ
  | .finite s m e _ => (s.apply m : ℤ) * 2 ^ e
  | _ => 0

theorem abs_value (f : UnpackedFloat) : |value f| = magnitude f := by
  cases f with
  | finite s m e pos =>
      have power : (0 : ℚ) < 2 ^ e := by positivity
      cases s with
      | negative => simp [value, magnitude, Sign.apply, abs_mul, abs_of_pos power]
      | positive => simp [value, magnitude, Sign.apply, abs_mul, abs_of_pos power]
  | infinity | notANumber | zero => simp [value, magnitude]

theorem rounded_self (canonical : Canonical f) (hasSign : HasSign s f) :
    Rounded s (magnitude f) f :=
  ⟨canonical, hasSign, fun _ _ h => h, fun _ _ h => h⟩

theorem apply_add (s : Sign) (m n : ℤ) : s.apply (m + n) = s.apply m + s.apply n := by
  cases s with
  | negative => simp [Sign.apply]; ring
  | positive => rfl

theorem apply_shiftLeft (s : Sign) (m : ℕ) {e low : ℤ} (h : low ≤ e) :
    ((s.apply (m <<< (e - low).toNat : ℕ) : ℤ) : ℚ) * 2 ^ low = (s.apply m : ℤ) * 2 ^ e := by
  have power : ((m <<< (e - low).toNat : ℕ) : ℚ) * 2 ^ low = m * 2 ^ e := by
    have grid : low = e - ((e - low).toNat : ℤ) := by omega
    conv_lhs => rw [grid]
    rw [← shiftLeft_mul m (e - low).toNat e]
    congr 3
    omega
  cases s with
  | negative =>
      simp only [Sign.apply, Int.cast_neg, Int.cast_natCast, neg_mul]
      rw [power]
  | positive =>
      simp only [Sign.apply, Int.cast_natCast]
      exact power

theorem rounded_zero (s : Sign) : Rounded s 0 (.zero s) :=
  @rounded_self s (.zero s) trivial rfl

theorem value_zero (s : Sign) : value (.zero s) = 0 :=
  rfl

theorem sign_eq_of_apply {s t : Sign} {m n : ℤ} (hm : 0 < m) (hn : 0 < n)
    (h : s.apply m = t.apply n) : s = t := by
  cases s with
  | negative =>
      cases t with
      | negative => rfl
      | positive =>
          simp only [Sign.apply] at h
          omega
  | positive =>
      cases t with
      | negative =>
          simp only [Sign.apply] at h
          omega
      | positive => rfl

theorem apply_eq_zero {s : Sign} {m : ℤ} (h : s.apply m = 0) : m = 0 := by
  cases s with
  | negative =>
      simp only [Sign.apply] at h
      omega
  | positive => exact h

theorem rounded_normalize {m n : ℕ} (pos : 0 < m) (pos' : 0 < n) (s t : Sign) (low : ℤ) :
    ∃ u, Rounded u |((s.apply m + t.apply n : ℤ) : ℚ) * 2 ^ low|
        (UnpackedFloat.normalize .binary64 (s.apply m + t.apply n) low .positive) ∧
      (s = t → u = s) := by
  have power : (0 : ℚ) < 2 ^ low := by positivity
  rcases normalize_cases (s.apply m + t.apply n) low with ⟨none, zero⟩ | ⟨u, signed, rounded⟩
  · refine ⟨.positive, ?_, ?_⟩
    · rw [zero, none, Int.cast_zero, zero_mul, abs_zero]
      exact rounded_zero _
    · rintro rfl
      rw [← apply_add] at none
      have sum := apply_eq_zero none
      omega
  · refine ⟨u, ?_, ?_⟩
    · rw [abs_mul, abs_of_pos power, ← Int.cast_abs, Int.abs_eq_natAbs, Int.cast_natCast]
      exact rounded
    · rintro rfl
      rw [← apply_add] at signed
      refine sign_eq_of_apply ?_ (by omega) signed
      rcases Nat.eq_zero_or_pos (s.apply ((m : ℤ) + n)).natAbs with none | some
      · have sum := apply_eq_zero (Int.natAbs_eq_zero.1 none)
        omega
      · omega

theorem rounded_add (hf : Canonical f) (hg : Canonical g) (sf : HasSign s f) (sg : HasSign t g) :
    ∃ u, Rounded u |value f + value g| (UnpackedFloat.add .binary64 f g) ∧ (s = t → u = s) := by
  cases f with
  | infinity | notANumber => cases sf
  | zero s' =>
      cases sf
      cases g with
      | infinity | notANumber => cases sg
      | zero t' =>
          cases sg
          have sum : |value (.zero s) + value (.zero t)| = 0 := by
            rw [value_zero, value_zero, add_zero, abs_zero]
          rw [sum]
          cases s with
          | negative =>
              cases t with
              | negative => exact ⟨.negative, rounded_zero _, fun _ => rfl⟩
              | positive => exact ⟨.positive, rounded_zero _, by rintro ⟨⟩⟩
          | positive =>
              cases t with
              | negative => exact ⟨.positive, rounded_zero _, by rintro ⟨⟩⟩
              | positive => exact ⟨.positive, rounded_zero _, fun _ => rfl⟩
      | finite t' m e pos =>
          cases sg
          have sum : |value (.zero s) + value (.finite t m e pos)| = magnitude (.finite t m e pos) := by
            rw [value_zero, zero_add, abs_value]
          rw [sum]
          exact ⟨t, rounded_self hg rfl, Eq.symm⟩
  | finite s' m e pos =>
      cases sf
      cases g with
      | infinity | notANumber => cases sg
      | zero t' =>
          cases sg
          have sum : |value (.finite s m e pos) + value (.zero t)| = magnitude (.finite s m e pos) := by
            rw [value_zero, add_zero, abs_value]
          rw [sum]
          exact ⟨s, rounded_self hf rfl, fun _ => rfl⟩
      | finite t' n k pos' =>
          cases sg
          have left := apply_shiftLeft s m (min_le_left e k)
          have right := apply_shiftLeft t n (min_le_right e k)
          have sum : value (.finite s m e pos) + value (.finite t n k pos') =
              ((s.apply (m <<< (e - min e k).toNat : ℕ) + t.apply (n <<< (k - min e k).toNat : ℕ) : ℤ) :
                ℚ) * 2 ^ min e k := by
            rw [Int.cast_add, add_mul, left, right]
            rfl
          rw [sum]
          refine rounded_normalize ?_ ?_ s t (min e k)
          · rw [Nat.shiftLeft_eq]
            positivity
          · rw [Nat.shiftLeft_eq]
            positivity

theorem apply_neg (s : Sign) (m : ℤ) : (-s).apply m = -s.apply m := by
  cases s with
  | negative => exact (neg_neg m).symm
  | positive => rfl

theorem value_neg (f : UnpackedFloat) : value f.neg = -value f := by
  cases f with
  | finite s m e pos =>
      rw [UnpackedFloat.neg, value, value, apply_neg, Int.cast_neg, neg_mul]
  | infinity | notANumber | zero => exact neg_zero.symm

theorem canonical_neg (h : Canonical f) : Canonical f.neg := by
  cases f with
  | finite s m e pos => exact h
  | infinity | notANumber | zero => trivial

theorem hasSign_neg (h : HasSign s f) : HasSign (-s) f.neg := by
  cases f with
  | finite s m e pos =>
      cases h
      rfl
  | infinity | notANumber => cases h
  | zero =>
      cases h
      rfl

theorem sub_eq_add (f g : UnpackedFloat) :
    UnpackedFloat.sub .binary64 f g = UnpackedFloat.add .binary64 f g.neg := by
  cases f with
  | notANumber => rfl
  | infinity s =>
      cases g with
      | notANumber | zero | finite | infinity => rfl
  | zero s =>
      cases g with
      | notANumber | zero | finite | infinity => rfl
  | finite s m e pos =>
      cases g with
      | notANumber | zero | infinity => rfl
      | finite t n k pos' =>
          unfold UnpackedFloat.sub UnpackedFloat.neg UnpackedFloat.add
          simp only [apply_neg]
          rfl

theorem rounded_sub (hf : Canonical f) (hg : Canonical g) (sf : HasSign s f) (sg : HasSign t g) :
    ∃ u, Rounded u |value f - value g| (UnpackedFloat.sub .binary64 f g) := by
  obtain ⟨u, rounded, -⟩ := rounded_add hf (canonical_neg hg) sf (hasSign_neg sg)
  refine ⟨u, ?_⟩
  rwa [value_neg, ← sub_eq_add, ← sub_eq_add_neg] at rounded

/-! ## Products -/

theorem magnitude_mul {m n : ℕ} (e k : ℤ) :
    ((m * n : ℕ) : ℚ) * 2 ^ (e + k) = m * 2 ^ e * (n * 2 ^ k) := by
  rw [zpow_add₀ (by norm_num)]
  push_cast
  ring

theorem rounded_mul (hf : Canonical f) (hg : Canonical g) (sf : HasSign s f) (sg : HasSign t g) :
    Rounded (s * t) (magnitude f * magnitude g) (UnpackedFloat.mul .binary64 f g) := by
  cases f with
  | infinity | notANumber => cases sf
  | zero s' =>
      cases sf
      have product : magnitude (.zero s) * magnitude g = 0 := zero_mul _
      rw [product]
      cases g with
      | infinity | notANumber => cases sg
      | zero t' =>
          cases sg
          exact rounded_zero _
      | finite t' n k pos' =>
          cases sg
          exact rounded_zero _
  | finite s' m e pos =>
      cases sf
      cases g with
      | infinity | notANumber => cases sg
      | zero t' =>
          cases sg
          have product : magnitude (.finite s m e pos) * magnitude (.zero t) = 0 := mul_zero _
          rw [product]
          exact rounded_zero _
      | finite t' n k pos' =>
          cases sg
          obtain ⟨-, least, shape⟩ := hf
          obtain ⟨-, least', shape'⟩ := hg
          have enough : 52 ≤ (m * n).log2 ∨ e + k ≤ -1074 := by
            rcases shape with large | clamped
            · left
              rw [Nat.le_log2 (Nat.mul_pos pos pos').ne']
              exact large.trans (Nat.le_mul_of_pos_right m pos')
            · rcases shape' with large | clamped'
              · left
                rw [Nat.le_log2 (Nat.mul_pos pos pos').ne']
                exact large.trans (Nat.le_mul_of_pos_left n pos)
              · right
                omega
          have rounded := rounded_roundWithAccuracy (s * t) (approximates_exact (m * n)) (e := e + k)
            (by omega)
          rw [magnitude_mul] at rounded
          exact rounded

/-! ## Quotients -/

theorem approximates_div (m : ℕ) {n : ℕ} (pos : 0 < n) :
    Approximates (m / n) (accuracyOfFraction (m % n) n) ((m : ℚ) / n) := by
  have whole := Nat.div_add_mod m n
  have cast : (m : ℚ) = n * (m / n : ℕ) + (m % n : ℕ) := by exact_mod_cast whole.symm
  have some : (0 : ℚ) < n := by exact_mod_cast pos
  by_cases exact : m % n = 0
  · have quotient : (m : ℚ) / n = (m / n : ℕ) := by
      rw [div_eq_iff some.ne', cast, exact]
      push_cast
      ring
    rw [quotient, exact]
    exact approximates_exact _
  · have rest : (0 : ℚ) < (m % n : ℕ) := by exact_mod_cast Nat.pos_of_ne_zero exact
    have less : ((m % n : ℕ) : ℚ) < n := by exact_mod_cast Nat.mod_lt m pos
    rw [accuracyOfFraction, if_neg exact]
    refine approximates_inexact ?_ ?_ _
    · rw [lt_div_iff₀ some, cast]
      linarith
    · rw [div_lt_iff₀ some, cast]
      linarith

theorem rounded_quotient (s : Sign) {m n : ℕ} (pos : 0 < m) (pos' : 0 < n) (e k : ℤ) :
    Rounded s (m * 2 ^ e / (n * 2 ^ k))
      (roundWithAccuracy .binary64 s (divCore .binary64 m e n k).1 (divCore .binary64 m e n k).2.1
        (divCore .binary64 m e n k).2.2) := by
  -- The dividend is shifted until the quotient has as many bits as a double, or the least exponent.
  obtain ⟨low, hlow⟩ : ∃ low, min (e - k)
      (max ((m.log2 + 1 + e - (n.log2 + 1 + k)) - 53) (-1074)) = low := ⟨_, rfl⟩
  obtain ⟨sh, hsh⟩ : ∃ sh : ℕ, (sh : ℤ) = e - k - low := ⟨_, Int.toNat_of_nonneg (by omega)⟩
  have amount : (e - k - low).toNat = sh := by omega
  have core : divCore .binary64 m e n k =
      ((m <<< sh) / n, low, accuracyOfFraction ((m <<< sh) % n) n) := by
    rw [← amount, ← hlow]
    rfl
  have some : 0 < n := pos'
  have quotient : ((m <<< sh : ℕ) : ℚ) / n * 2 ^ low = m * 2 ^ e / (n * 2 ^ k) := by
    have grid := shiftLeft_mul m sh e
    have exponent : low = e - sh - k := by omega
    rw [exponent, zpow_sub₀ (by norm_num) (e - sh) k, ← grid]
    field_simp
  have enough : low ≤ max ((((m <<< sh) / n).log2 : ℤ) + 1 + low - 53) (-1074) := by
    by_cases clamped : low ≤ -1074
    · omega
    · have large : 52 ≤ ((m <<< sh) / n).log2 := by
        have size : 2 ^ 52 ≤ (m <<< sh) / n := by
          rw [Nat.le_div_iff_mul_le pos', Nat.shiftLeft_eq]
          have above : n < 2 ^ (n.log2 + 1) := Nat.lt_log2_self
          have below : 2 ^ m.log2 ≤ m := Nat.log2_self_le pos.ne'
          calc 2 ^ 52 * n ≤ 2 ^ 52 * 2 ^ (n.log2 + 1) := by gcongr
            _ = 2 ^ (52 + (n.log2 + 1)) := (pow_add _ _ _).symm
            _ ≤ 2 ^ (m.log2 + sh) := Nat.pow_le_pow_right (by norm_num) (by omega)
            _ = 2 ^ m.log2 * 2 ^ sh := pow_add _ _ _
            _ ≤ m * 2 ^ sh := by gcongr
        exact (Nat.le_log2 (by omega)).2 size
      omega
  rw [core, ← quotient]
  exact rounded_roundWithAccuracy s (approximates_div _ pos') enough

theorem rounded_div (sf : HasSign s f) (sg : HasSign t g) (ne : magnitude g ≠ 0) :
    Rounded (s / t) (magnitude f / magnitude g) (UnpackedFloat.div .binary64 f g) := by
  cases g with
  | infinity | notANumber => cases sg
  | zero => exact absurd rfl ne
  | finite t' n k pos' =>
      cases sg
      cases f with
      | infinity | notANumber => cases sf
      | zero s' =>
          cases sf
          have quotient : magnitude (.zero s) / magnitude (.finite t n k pos') = 0 := zero_div _
          rw [quotient]
          exact rounded_zero _
      | finite s' m e pos =>
          cases sf
          exact rounded_quotient (s / t) pos pos' e k

/-! ## Roots -/

theorem rounded_sqrt {m : ℕ} {e : ℤ} {pos : 0 < m} (canonical : Canonical (.finite s m e pos)) :
    ∃ x, Rounded .positive x (UnpackedFloat.sqrt .binary64 (.finite .positive m e pos)) ∧
      0 < magnitude (UnpackedFloat.sqrt .binary64 (.finite .positive m e pos)) := by
  obtain ⟨-, least, -⟩ := canonical
  obtain ⟨low, hlow⟩ : ∃ low, min (e / 2)
      (max (((m.log2 + 1 + e : ℤ) + 1) / 2 - 53) (-1074)) = low := ⟨_, rfl⟩
  obtain ⟨sh, hsh⟩ : ∃ sh : ℕ, (sh : ℤ) = e - 2 * low :=
    ⟨_, Int.toNat_of_nonneg (by omega)⟩
  have amount : (e - 2 * low).toNat = sh := by omega
  obtain ⟨root, hroot⟩ : ∃ root, Nat.sqrt (m <<< sh) = root := ⟨_, rfl⟩
  have shifted : 2 ^ (m.log2 + sh) ≤ m <<< sh := by
    rw [Nat.shiftLeft_eq, pow_add]
    gcongr
    exact Nat.log2_self_le pos.ne'
  have large : 2 ^ 52 ≤ root := by
    rw [← hroot, Nat.le_sqrt]
    refine le_trans ?_ shifted
    calc 2 ^ 52 * 2 ^ 52 = 2 ^ 104 := by norm_num
      _ ≤ 2 ^ (m.log2 + sh) := Nat.pow_le_pow_right (by norm_num) (by omega)
  have enough : low ≤ max ((root.log2 : ℤ) + 1 + low - 53) (-1074) := by
    have log : 52 ≤ root.log2 := (Nat.le_log2 (by omega)).2 large
    omega
  obtain ⟨rest, hrest⟩ : ∃ rest, m <<< sh - root * root = rest := ⟨_, rfl⟩
  have core : UnpackedFloat.sqrt .binary64 (.finite .positive m e pos) =
      roundWithAccuracy .binary64 .positive root low
        (if rest = 0 then .exact else .inexact (if rest ≤ root then .lt else .gt)) := by
    rw [← hrest, ← hroot, ← amount, ← hlow]
    rfl
  -- The root may be irrational: any number that is cut to the same integer stands for it.
  obtain ⟨x, stands, below⟩ : ∃ x : ℚ, Approximates root
      (if rest = 0 then .exact else .inexact (if rest ≤ root then .lt else .gt)) x ∧ root ≤ x := by
    by_cases exact : rest = 0
    · rw [if_pos exact]
      exact ⟨root, approximates_exact root, le_rfl⟩
    · rw [if_neg exact]
      refine ⟨root + 1 / 2, approximates_inexact ?_ ?_ _, ?_⟩
      · linarith
      · linarith
      · linarith
  have rounded := rounded_roundWithAccuracy .positive stands enough
  rw [← core] at rounded
  refine ⟨_, rounded, ?_⟩
  have one : ((1 : ℕ) : ℚ) ≤ root := by exact_mod_cast (show 1 ≤ root by omega)
  have kept := rounded.ge (n := 1) (k := low) (by norm_num) (by omega) (by
    have power : (0 : ℚ) < 2 ^ low := by positivity
    exact mul_le_mul_of_nonneg_right (one.trans below) power.le)
  have power : (0 : ℚ) < ((1 : ℕ) : ℚ) * 2 ^ low := by positivity
  exact power.trans_le kept

end ScreenScript.Double
