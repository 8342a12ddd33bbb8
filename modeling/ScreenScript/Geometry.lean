namespace ScreenScript

/-- A width and a height in pixels. -/
structure Size where
  width : Nat
  height : Nat
  deriving DecidableEq, Repr

def Size.isEmpty (s : Size) : Bool :=
  s.width = 0 || s.height = 0

/-- A position, in pixels of a capture or of the logical screen. -/
structure Point where
  x : Float
  y : Float

/-- A rectangle of pixels. -/
structure Region where
  x : Nat
  y : Nat
  width : Nat
  height : Nat
  deriving DecidableEq, Repr

namespace Region

def size (r : Region) : Size :=
  ⟨r.width, r.height⟩

def full (s : Size) : Region :=
  ⟨0, 0, s.width, s.height⟩

def clip? (r : Region) (bounds : Size) : Option Region :=
  if bounds.width ≤ r.x ∨ bounds.height ≤ r.y then none
  else
    let width := min r.width (bounds.width - r.x)
    let height := min r.height (bounds.height - r.y)
    if width = 0 ∨ height = 0 then none else some ⟨r.x, r.y, width, height⟩

end Region

end ScreenScript
