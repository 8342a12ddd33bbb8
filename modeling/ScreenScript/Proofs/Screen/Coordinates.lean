import ScreenScript.Proofs.Number.Order
import ScreenScript.Screen.Scale

namespace ScreenScript

open Double (IsNumber Nonneg)

structure OnAxis (x : Float) (length : Nat) : Prop where
  isNaN_eq : x.isNaN = false
  zero_le : 0.0 ≤ x
  le_last : x ≤ Float.ofNat (max length 1 - 1)

theorem onAxis_origin (length : Nat) : OnAxis 0.0 length where
  isNaN_eq := rfl
  zero_le := Double.le_refl (Double.is_zero .positive).isNumber
  le_last := (Double.nonneg_ofNat _).zero_le

theorem onAxis_clampAxis (value : Float) (length : Nat) : OnAxis (clampAxis value length) length := by
  have last_eq : length - 1 = max length 1 - 1 := by omega
  have last : Nonneg (Float.ofNat (max length 1 - 1)) := Double.nonneg_ofNat _
  have zero : IsNumber 0.0 := (Double.is_zero .positive).isNumber
  rw [clampAxis, last_eq]
  cases isNaN : value.isNaN with
  | true =>
      rw [if_pos rfl]
      exact onAxis_origin length
  | false =>
      have number : IsNumber value := Double.isNumber_iff.2 isNaN
      rw [if_neg Bool.false_ne_true]
      split
      case isTrue => exact onAxis_origin length
      case isFalse notBelow =>
        split
        case isTrue =>
          exact ⟨Double.isNumber_iff.1 last.isNumber, last.zero_le, Double.le_refl last.isNumber⟩
        case isFalse notAbove =>
          exact ⟨isNaN, (Double.not_lt number zero).1 notBelow,
            (Double.not_lt last.isNumber number).1 notAbove⟩

namespace Point

structure IsOn (p : Point) (size : Size) : Prop where
  x : OnAxis p.x size.width
  y : OnAxis p.y size.height

theorem isOn_clamp (p : Point) (size : Size) : (p.clamp size).IsOn size :=
  ⟨onAxis_clampAxis p.x size.width, onAxis_clampAxis p.y size.height⟩

theorem isOn_onScreen (raw : Point) (scale : Scale) (size : Size) : (raw.onScreen scale size).IsOn size :=
  isOn_clamp _ size

end Point

end ScreenScript
