namespace ScreenScript

class Scalar (α : Type) extends Add α, Sub α, Mul α, Div α, LT α where
  ofNat : Nat → α
  sqrt : α → α
  decideLt : (a b : α) → Decidable (a < b)

namespace Scalar

variable {α : Type} [Scalar α]

instance (a b : α) : Decidable (a < b) := decideLt a b

@[inline]
def distance (a b : α) : α :=
  if a < b then b - a else a - b

@[inline]
def clamp (low high a : α) : α :=
  if a < low then low else if high < a then high else a

end Scalar

instance : Scalar Float where
  ofNat n := n.toUInt64.toFloat
  sqrt := Float.sqrt
  decideLt a b := inferInstanceAs (Decidable (a < b))

end ScreenScript
