import ScreenScript.Proofs.Number.Exact
import ScreenScript.Script.Duration

namespace ScreenScript

namespace Number

theorem roundHalfEven_le {num den bound : Nat} (h : num ≤ bound * den) (pos : 0 < den) :
    roundHalfEven num den ≤ bound := by
  have whole := Nat.div_add_mod num den
  have below : num / den ≤ bound := Nat.div_le_of_le_mul (by rwa [Nat.mul_comm])
  unfold roundHalfEven
  dsimp only
  split
  · exact below
  · -- Rounding up leaves a rest, so the quotient is less than the bound.
    rename_i up
    refine Nat.lt_of_le_of_ne below fun same => ?_
    rw [same, Nat.mul_comm] at whole
    omega

theorem cast_binaryFraction (m : ℕ) (e : ℤ) :
    ((binaryFraction m e).1 : ℚ) = m * 2 ^ e * (binaryFraction m e).2 := by
  have split : e + ((-e).toNat : ℤ) = (e.toNat : ℤ) := by omega
  have power : (2 : ℚ) ^ e * 2 ^ (-e).toNat = 2 ^ e.toNat := by
    rw [← zpow_natCast, ← zpow_natCast, ← zpow_add₀ (by norm_num), split]
  simp only [binaryFraction, Nat.pow_eq]
  push_cast
  rw [mul_assoc, power]

end Number

namespace Double

open Float.Model Float.Model.UnpackedFloat

variable {x y : Float} {s t : Sign} {q r : ℚ}

theorem is_thousand : Is 1000.0 .positive 1000 := by
  refine ⟨.finite .positive (1000 * 2 ^ 43) (-43) (by norm_num), rfl, rfl, ?_, rfl, ?_⟩
  · exact ⟨by norm_num, by norm_num, .inl (by norm_num)⟩
  · norm_num [magnitude]

theorem is_durationLimit : Is Duration.limit .positive (10 ^ 12) := by
  refine ⟨.finite .positive (10 ^ 12 * 2 ^ 13) (-13) (by norm_num), rfl, rfl, ?_, rfl, ?_⟩
  · exact ⟨by norm_num, by norm_num, .inl (by norm_num)⟩
  · norm_num [magnitude]

theorem Is.le_of_not_lt (hx : Is x s q) (hy : Is y .positive r) (notBelow : ¬ x < 0.0)
    (notAbove : ¬ y < x) : q ≤ r := by
  obtain ⟨f, -, fx, hf, sf, rfl⟩ := hx
  obtain ⟨g, -, gy, hg, sg, rfl⟩ := hy
  cases s with
  | positive =>
      refine not_lt.1 fun less => notAbove ?_
      rw [lt_iff, gy, fx]
      exact compare_eq_lt hg hf sg sf less
  | negative =>
      cases f with
      | infinity | notANumber => cases sf
      | zero => exact abs_value g ▸ abs_nonneg _
      | finite =>
          cases sf
          refine absurd ?_ notBelow
          rw [lt_iff, fx]
          rfl

theorem Is.exists_div_le (hx : Is x s q) (hy : Is y t r) (ne : r ≠ 0) {n : ℕ} {k : ℤ}
    (small : n < 2 ^ 53) (low : -1074 ≤ k) (fits : k ≤ 971) (bound : q / r ≤ n * 2 ^ k) :
    ∃ p, Is (x / y) (s / t) p ∧ p ≤ n * 2 ^ k := by
  obtain ⟨f, -, fx, -, sf, rfl⟩ := hx
  obtain ⟨g, -, gy, -, sg, rfl⟩ := hy
  rw [datum_div, fx, gy]
  exact ⟨_, is_double (rounded_div sf sg ne) small low fits bound⟩

end Double

namespace Duration

theorem ofSeconds_le {x : Float} {s : Float.Model.UnpackedFloat.Sign} {q : ℚ} {bound : Nat}
    (h : Double.Is x s q) (le : q ≤ bound) : ofSeconds x ≤ bound * 10 ^ 9 := by
  obtain ⟨m, e, exact, rfl⟩ := h.exists_ofFloat
  have pos : 0 < (Number.binaryFraction m e).2 := Nat.pow_pos (by norm_num)
  have cast : ((Number.binaryFraction m e).1 : ℚ) ≤ bound * (Number.binaryFraction m e).2 := by
    rw [Number.cast_binaryFraction]
    exact mul_le_mul_of_nonneg_right le (Nat.cast_nonneg _)
  have fraction : (Number.binaryFraction m e).1 ≤ bound * (Number.binaryFraction m e).2 := by
    exact_mod_cast cast
  rw [ofSeconds, exact]
  refine Number.roundHalfEven_le ?_ pos
  calc (Number.binaryFraction m e).1 * 1000000000
      ≤ bound * (Number.binaryFraction m e).2 * 1000000000 := Nat.mul_le_mul_right _ fraction
    _ = bound * 10 ^ 9 * (Number.binaryFraction m e).2 := by ring

theorem parse_le {raw : String} {n : Nat} (h : parse raw = .ok n) : n ≤ 10 ^ 9 * 10 ^ 9 := by
  unfold parse at h
  dsimp only at h
  split at h
  · cases h
  rename_i value read
  split at h
  · cases h
  rename_i inside
  cases h
  simp only [Bool.or_eq_true, Bool.not_eq_true', decide_eq_true_eq, not_or, Bool.not_eq_false]
    at inside
  obtain ⟨⟨finite, notBelow⟩, notAbove⟩ := inside
  unfold Number.isFinite at finite
  split at finite
  · rename_i negative m e found
    obtain ⟨s, -, is⟩ := Double.is_of_ofFloat found
    have le := is.le_of_not_lt Double.is_durationLimit notBelow notAbove
    have seconds : (m : ℚ) * 2 ^ e / 1000 ≤ (10 ^ 9 : ℕ) * 2 ^ (0 : ℤ) := by
      rw [div_le_iff₀ (by norm_num)]
      norm_num at le ⊢
      exact le
    obtain ⟨p, quotient, bound⟩ := is.exists_div_le Double.is_thousand (by norm_num) (by norm_num)
      (by norm_num) (by norm_num) seconds
    exact ofSeconds_le quotient (by simpa using bound)
  · cases finite

end Duration

end ScreenScript
