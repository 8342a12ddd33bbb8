import ScreenScript.Proofs.Number.Rounding

namespace ScreenScript.Double

open Float.Model Float.Model.UnpackedFloat

section Components

variable {s : Sign} {exponent : BitVec 11} {mantissa : BitVec 52}

theorem unpackSign_packComponents :
    unpackSign (packComponents .binary64 s exponent mantissa) = s.toBitVec := by
  simp only [unpackSign, packComponents, BitVec.extractLsb]
  rw [BitVec.extractLsb'_append_eq_of_le (by decide), BitVec.extractLsb'_append_eq_of_le (by decide)]
  cases s with
  | negative | positive => rfl

theorem ofBitVec_toBitVec (s : Sign) : Sign.ofBitVec s.toBitVec = s := by
  cases s with
  | negative | positive => rfl

theorem toNat_implicit (mantissa : BitVec 52) :
    (1#1 ++ mantissa).toNat = 2 ^ 52 + mantissa.toNat := by
  rw [BitVec.toNat_append, ← Nat.shiftLeft_add_eq_or_of_lt mantissa.isLt]
  rfl

theorem finite_congr {m m' : ℕ} {e e' : ℤ} {h : 0 < m} {h' : 0 < m'} (mantissas : m = m')
    (exponents : e = e') : UnpackedFloat.finite s m e h = .finite s m' e' h' := by
  subst mantissas exponents
  rfl

theorem unpack_normal (notTop : exponent ≠ -1#11) (notZero : exponent ≠ 0#11) {m : ℕ} {e : ℤ}
    (pos : 0 < m) (hm : 2 ^ 52 + mantissa.toNat = m) (he : (exponent.toNat : ℤ) - 1075 = e) :
    UnpackedFloat.unpack .binary64 (packComponents .binary64 s exponent mantissa) =
      .finite s m e pos := by
  unfold UnpackedFloat.unpack
  simp only [unpackMantissa_packComponents, unpackExponent_packComponents, unpackSign_packComponents,
    ofBitVec_toBitVec, if_neg notTop, if_neg notZero]
  exact finite_congr ((toNat_implicit mantissa).trans hm) he

theorem unpack_subnormal (notZero : mantissa ≠ 0#52) (pos : 0 < mantissa.toNat) :
    UnpackedFloat.unpack .binary64 (packComponents .binary64 s 0#11 mantissa) =
      .finite s mantissa.toNat (-1074) pos := by
  have notTop : 0#11 ≠ -1#11 := by decide
  unfold UnpackedFloat.unpack
  simp only [unpackMantissa_packComponents, unpackExponent_packComponents, unpackSign_packComponents,
    ofBitVec_toBitVec, if_neg notTop, dif_neg notZero]
  exact finite_congr rfl rfl

theorem unpack_zero (s : Sign) :
    UnpackedFloat.unpack .binary64 (packedZero .binary64 s) = .zero s := by
  unfold UnpackedFloat.unpack packedZero
  simp only [unpackMantissa_packComponents, unpackExponent_packComponents, unpackSign_packComponents,
    ofBitVec_toBitVec]
  rfl

theorem unpack_infinity (s : Sign) :
    UnpackedFloat.unpack .binary64 (packedInfinity .binary64 s) = .infinity s := by
  unfold UnpackedFloat.unpack packedInfinity
  simp only [unpackMantissa_packComponents, unpackExponent_packComponents, unpackSign_packComponents,
    ofBitVec_toBitVec]
  rfl

end Components

section Pack

variable {s : Sign} {m : ℕ} {e : ℤ} {pos : 0 < m}

theorem pack_finite {biased : ℕ} (h : (biased : ℤ) = e + 1075) :
    UnpackedFloat.pack .binary64 (.finite s m e pos) =
      if 2 ^ 11 ≤ biased + 1 then packedInfinity .binary64 s
      else if m.log2 + 1 = 53 then
        packComponents .binary64 s (BitVec.ofNat 11 biased) (BitVec.ofNat 52 m)
      else packComponents .binary64 s 0#11 (BitVec.ofNat 52 m) := by
  have bias : (e + 1023 + 52).toNat = biased := by omega
  rw [← bias]
  rfl

theorem unpack_pack_finite (canonical : Canonical (.finite s m e pos)) (fits : e ≤ 971) :
    UnpackedFloat.unpack .binary64 (UnpackedFloat.pack .binary64 (.finite s m e pos)) =
      .finite s m e pos := by
  obtain ⟨less, low, shape⟩ := canonical
  obtain ⟨biased, hb⟩ : ∃ b : ℕ, (b : ℤ) = e + 1075 := ⟨_, Int.toNat_of_nonneg (by omega)⟩
  rw [pack_finite hb, if_neg (by omega)]
  by_cases large : 2 ^ 52 ≤ m
  · have log : m.log2 = 52 := (Nat.log2_eq_iff pos.ne').2 ⟨large, less⟩
    have exponent : (BitVec.ofNat 11 biased).toNat = biased := by
      rw [BitVec.toNat_ofNat, Nat.mod_eq_of_lt (by omega)]
    have mantissa : (BitVec.ofNat 52 m).toNat = m - 2 ^ 52 := by
      rw [BitVec.toNat_ofNat]
      omega
    rw [if_pos (by omega)]
    refine unpack_normal ?_ ?_ pos (by omega) (by omega)
    · intro top
      have value := congrArg BitVec.toNat top
      rw [exponent] at value
      change biased = 2047 at value
      omega
    · intro zero
      have value := congrArg BitVec.toNat zero
      rw [exponent] at value
      change biased = 0 at value
      omega
  · have clamped : e = -1074 := shape.resolve_left large
    have log : m.log2 < 52 := (Nat.log2_lt pos.ne').2 (by omega)
    have mantissa : (BitVec.ofNat 52 m).toNat = m := by
      rw [BitVec.toNat_ofNat, Nat.mod_eq_of_lt (by omega)]
    rw [if_neg (by omega), unpack_subnormal ?notZero (mantissa.symm ▸ pos)]
    · exact finite_congr mantissa clamped.symm
    · intro zero
      have value := congrArg BitVec.toNat zero
      rw [mantissa] at value
      change m = 0 at value
      omega

theorem unpack_pack_overflow (large : 971 < e) :
    UnpackedFloat.unpack .binary64 (UnpackedFloat.pack .binary64 (.finite s m e pos)) =
      .infinity s := by
  obtain ⟨biased, hb⟩ : ∃ b : ℕ, (b : ℤ) = e + 1075 := ⟨_, Int.toNat_of_nonneg (by omega)⟩
  rw [pack_finite hb, if_pos (by omega), unpack_infinity]

end Pack

end ScreenScript.Double
