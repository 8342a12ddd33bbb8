import ScreenScript.Number.Binary64
import ScreenScript.Proofs.Number.Doubles

namespace ScreenScript.Double

open Float.Model Float.Model.UnpackedFloat

def isNegative : Sign → Bool
  | .negative => true
  | .positive => false

def exact : UnpackedFloat → Binary64
  | .notANumber => .nan
  | .infinity s => .infinite (isNegative s)
  | .zero s => .finite (isNegative s) 0 (-1074)
  | .finite s m e _ => .finite (isNegative s) m e

section Bits

variable (b : BitVec 64)

theorem toNat_unpackExponent :
    (@unpackExponent .binary64 b).toNat = b.toNat / Nat.pow 2 52 % Nat.pow 2 11 := by
  rw [unpackExponent_def]
  exact (BitVec.extractLsb'_toNat ..).trans (by rw [Nat.shiftRight_eq_div_pow]; rfl)

theorem toNat_unpackMantissa :
    (@unpackMantissa .binary64 b).toNat = b.toNat % Nat.pow 2 52 := by
  rw [unpackMantissa_def]
  exact (BitVec.extractLsb'_toNat ..).trans (by rw [Nat.shiftRight_zero]; rfl)

theorem isNegative_unpackSign :
    isNegative (Sign.ofBitVec (@unpackSign .binary64 b)) = decide (Nat.pow 2 63 ≤ b.toNat) := by
  have top : (@unpackSign .binary64 b).toNat = b.toNat / 2 ^ 63 % 2 := by
    rw [unpackSign_def]
    exact (BitVec.extractLsb'_toNat ..).trans (by rw [Nat.shiftRight_eq_div_pow]; rfl)
  have less : b.toNat < 2 ^ 64 := b.isLt
  rw [Sign.ofBitVec]
  split
  · rename_i zero
    rw [zero] at top
    have small : ¬ 2 ^ 63 ≤ b.toNat := by
      change 0 = _ at top
      omega
    exact (decide_eq_false small).symm
  · rename_i nonzero
    have large : 2 ^ 63 ≤ b.toNat := by
      by_contra small
      refine nonzero (BitVec.eq_of_toNat_eq ?_)
      rw [top]
      change _ = 0
      omega
    exact (decide_eq_true large).symm

theorem exact_unpack :
    exact (UnpackedFloat.unpack .binary64 b) =
      let negative := isNegative (Sign.ofBitVec (@unpackSign .binary64 b))
      let field := (@unpackExponent .binary64 b).toNat
      let fraction := (@unpackMantissa .binary64 b).toNat
      if field = 2047 then if fraction = 0 then .infinite negative else .nan
      else if field = 0 then .finite negative fraction (-1074)
      else .finite negative (2 ^ 52 + fraction) (field - 1075) := by
  unfold UnpackedFloat.unpack
  dsimp only
  by_cases top : (@unpackExponent .binary64 b).toNat = 2047
  · have ones : @unpackExponent .binary64 b = -1#11 := BitVec.eq_of_toNat_eq top
    rw [if_pos ones, if_pos top]
    by_cases none : (@unpackMantissa .binary64 b).toNat = 0
    · have zeros : @unpackMantissa .binary64 b = 0#52 := BitVec.eq_of_toNat_eq none
      rw [if_pos zeros, if_pos none]
      rfl
    · have some : @unpackMantissa .binary64 b ≠ 0#52 := fun zeros => none (congrArg BitVec.toNat zeros)
      rw [if_neg some, if_neg none]
      rfl
  · have notOnes : @unpackExponent .binary64 b ≠ -1#11 := fun ones => top (congrArg BitVec.toNat ones)
    rw [if_neg notOnes, if_neg top]
    by_cases least : (@unpackExponent .binary64 b).toNat = 0
    · have zeros : @unpackExponent .binary64 b = 0#11 := BitVec.eq_of_toNat_eq least
      rw [if_pos zeros, if_pos least, least]
      by_cases none : (@unpackMantissa .binary64 b).toNat = 0
      · have zeros : @unpackMantissa .binary64 b = 0#52 := BitVec.eq_of_toNat_eq none
        rw [dif_pos zeros, none]
        rfl
      · have some : @unpackMantissa .binary64 b ≠ 0#52 := fun zeros => none (congrArg BitVec.toNat zeros)
        rw [dif_neg some]
        rfl
    · have notZeros : @unpackExponent .binary64 b ≠ 0#11 :=
        fun zeros => least (congrArg BitVec.toNat zeros)
      rw [if_neg notZeros, if_neg least, exact, toNat_implicit]
      rfl

end Bits

theorem ofFloat_eq_exact (x : Float) : Binary64.ofFloat x = exact (datum x) := by
  have fields := exact_unpack x.toModel.toBits.toBitVec
  rw [isNegative_unpackSign, toNat_unpackExponent, toNat_unpackMantissa] at fields
  exact fields.symm

theorem of_exact_eq_finite {f : UnpackedFloat} {negative : Bool} {m : ℕ} {e : ℤ}
    (h : exact f = .finite negative m e) :
    ∃ s, HasSign s f ∧ isNegative s = negative ∧ magnitude f = m * 2 ^ e := by
  cases f with
  | notANumber | infinity s => cases h
  | zero s =>
      cases h
      exact ⟨s, rfl, rfl, by simp [magnitude]⟩
  | finite s m e pos =>
      cases h
      exact ⟨s, rfl, rfl, rfl⟩

theorem canonical_datum (x : Float) : Canonical (datum x) := by
  have fields := ofFloat_eq_exact x
  generalize datum x = f at fields
  cases f with
  | notANumber | infinity | zero => trivial
  | finite s m e pos =>
      have small : x.toBits.toNat % Nat.pow 2 52 < 2 ^ 52 := Nat.mod_lt _ (by norm_num)
      unfold Binary64.ofFloat exact at fields
      dsimp only at fields
      split at fields
      · split at fields <;> cases fields
      split at fields
      · injection fields with _ mantissa exponent
        exact ⟨by omega, by omega, .inr exponent.symm⟩
      · injection fields with _ mantissa exponent
        have wide : Nat.pow 2 52 = 2 ^ 52 := rfl
        exact ⟨by omega, by omega, .inl (by omega)⟩

theorem double_datum (x : Float) : double (datum x) = x := by
  obtain ⟨bits, valid⟩ := x
  have same : UInt64.ofBitVec (UnpackedFloat.pack .binary64 (UnpackedFloat.unpack .binary64 bits.toBitVec)) =
      bits :=
    congrArg UInt64.ofBitVec (pack_unpack_of_valid valid)
  unfold double datum Float.Model.pack Float.Model.unpack
  simp only [same]

theorem is_of_ofFloat {x : Float} {negative : Bool} {m : ℕ} {e : ℤ}
    (h : Binary64.ofFloat x = .finite negative m e) :
    ∃ s, isNegative s = negative ∧ Is x s (m * 2 ^ e) := by
  rw [ofFloat_eq_exact] at h
  obtain ⟨s, hasSign, sign, size⟩ := of_exact_eq_finite h
  exact ⟨s, sign, datum x, (double_datum x).symm, rfl, canonical_datum x, hasSign, size⟩

theorem Is.exists_ofFloat {x : Float} {s : Sign} {q : ℚ} (h : Is x s q) :
    ∃ m e, Binary64.ofFloat x = .finite (isNegative s) m e ∧ m * 2 ^ e = q := by
  obtain ⟨f, -, same, -, hasSign, rfl⟩ := h
  rw [ofFloat_eq_exact, same]
  cases f with
  | notANumber | infinity => cases hasSign
  | zero s' =>
      cases hasSign
      exact ⟨0, -1074, rfl, by simp [magnitude]⟩
  | finite s' m e pos =>
      cases hasSign
      exact ⟨m, e, rfl, rfl⟩

end ScreenScript.Double
