import Mathlib.Algebra.Group.Nat.Defs
import ScreenScript.Screen.Capture

namespace ScreenScript.Picture

def pixelCount (width height : UInt32) : Nat :=
  width.toNat * height.toNat

/-- Why bytes do not hold a frame, with the number of those that it takes. -/
def tooShort (size : Nat) (width height : UInt32) (needed : Nat) : Failure :=
  .capture (s!"buffer of {size} bytes does not hold a {width}x{height} RGBA frame " ++
    s!"({needed} bytes)")

variable (width height : UInt32)

theorem pixelCount_lt : pixelCount width height < 2 ^ 64 :=
  calc pixelCount width height < 2 ^ 32 * 2 ^ 32 := Nat.mul_lt_mul'' width.toNat_lt height.toNat_lt
    _ = 2 ^ 64 := rfl

theorem toNat_mul_toUInt64 : (width.toUInt64 * height.toUInt64).toNat = pixelCount width height := by
  rw [UInt64.toNat_mul, UInt32.toNat_toUInt64, UInt32.toNat_toUInt64]
  exact Nat.mod_eq_of_lt (pixelCount_lt width height)

theorem toNat_byteCount : (byteCount width height).toNat = 4 * pixelCount width height % 2 ^ 64 := by
  rw [byteCount, UInt64.toNat_mul, toNat_mul_toUInt64, Nat.mul_comm]
  rfl

theorem toNat_byteCount_eq_iff :
    (byteCount width height).toNat = 4 * pixelCount width height ↔ pixelCount width height < 2 ^ 62 := by
  rw [toNat_byteCount]
  generalize pixelCount width height = n
  omega

variable {width height} {bytes : ByteArray}

theorem tooShort_inj {size needed needed' : Nat} :
    tooShort size width height needed = tooShort size width height needed' ↔ needed = needed' := by
  refine ⟨fun same => ?_, fun same => same ▸ rfl⟩
  have texts := Failure.capture.inj same
  rw [String.append_right_inj, String.append_left_inj, String.append_right_inj,
    Nat.toString_eq_ofList_toDigits, Nat.toString_eq_ofList_toDigits, String.ofList_inj] at texts
  rw [← Nat.ofDigitChars_ten_toDigits (n := needed), texts, Nat.ofDigitChars_ten_toDigits]

theorem ofBytes_of_lt (short : bytes.size < 4 * pixelCount width height) :
    ofBytes width height bytes =
      .error (tooShort bytes.size width height (byteCount width height).toNat) := by
  unfold pixelCount at short
  rw [ofBytes, if_pos short]
  rfl

theorem exists_ofBytes_of_le (enough : 4 * pixelCount width height ≤ bytes.size) :
    ∃ p, ofBytes width height bytes = .ok p := by
  unfold pixelCount at enough
  rw [ofBytes, if_neg (Nat.not_lt.2 enough)]
  exact ⟨_, rfl⟩

/--
Bytes are refused if and only if there are fewer than the frame takes. The refusal states how many that are
if and only if the frame has fewer than 2⁶² pixels; the pixels themselves are always counted right.
-/
theorem ofBytes_iff (width height : UInt32) (bytes : ByteArray) :
    (width.toUInt64 * height.toUInt64).toNat = pixelCount width height ∧
      ((byteCount width height).toNat = 4 * pixelCount width height ↔
        pixelCount width height < 2 ^ 62) ∧
      ((∃ p, ofBytes width height bytes = .ok p) ↔ 4 * pixelCount width height ≤ bytes.size) ∧
      (bytes.size < 4 * pixelCount width height →
        (ofBytes width height bytes =
            .error (tooShort bytes.size width height (4 * pixelCount width height)) ↔
          pixelCount width height < 2 ^ 62)) := by
  refine ⟨toNat_mul_toUInt64 width height, toNat_byteCount_eq_iff width height, ⟨?_, ?_⟩, ?_⟩
  · rintro ⟨p, made⟩
    refine Nat.le_of_not_lt fun short => ?_
    cases (ofBytes_of_lt short).symm.trans made
  · exact exists_ofBytes_of_le
  · intro short
    rw [ofBytes_of_lt short, Except.error.injEq, tooShort_inj]
    exact toNat_byteCount_eq_iff width height

/-- A frame of 2⁶² pixels, which is said to take no bytes. -/
theorem ofBytes_misstated :
    ofBytes 0x80000000 0x80000000 .empty =
        .error (tooShort 0 0x80000000 0x80000000 0) ∧
      ofBytes 0x80000000 0x80000000 .empty ≠
        .error (tooShort 0 0x80000000 0x80000000 18446744073709551616) ∧
      4 * pixelCount 0x80000000 0x80000000 = 18446744073709551616 := by
  have refused : ofBytes 0x80000000 0x80000000 .empty = .error (tooShort 0 0x80000000 0x80000000 0) :=
    ofBytes_of_lt (by decide)
  refine ⟨refused, ?_, by decide⟩
  rw [refused, Ne, Except.error.injEq, tooShort_inj]
  decide

end ScreenScript.Picture
