import ScreenScript.Image.Resize

namespace ScreenScript

namespace Image

def reduce (image : Gray) : Nat → Gray
  | 0 => image
  | n + 1 => halve (reduce image n)

end Image

/-- An image and the halved images made so far, last first. -/
structure Pyramid where
  base : Gray
  made : List Gray
  made_eq : made = (List.range made.length).reverse.map (Image.reduce base)

namespace Pyramid

def ofImage (base : Gray) : Pyramid where
  base
  made := [base]
  made_eq := rfl

def next (p : Pyramid) : Gray :=
  match p.made with
  | [] => p.base
  | last :: _ => Image.halve last

theorem next_eq (p : Pyramid) : p.next = Image.reduce p.base p.made.length := by
  unfold next
  split
  · rename_i eq
    rw [eq]
    rfl
  · rename_i last rest eq
    have made := p.made_eq
    rw [eq, List.length_cons, List.range_succ, List.reverse_append, List.map_append] at made
    obtain ⟨rfl, -⟩ := List.cons.inj made
    rw [eq]
    rfl

def grow (p : Pyramid) : Pyramid where
  base := p.base
  made := p.next :: p.made
  made_eq := by
    rw [List.length_cons, List.range_succ, List.reverse_append, List.map_append, ← p.made_eq,
      p.next_eq]
    rfl

def growBy (p : Pyramid) : Nat → Pyramid
  | 0 => p
  | n + 1 => (p.growBy n).grow

def upTo (p : Pyramid) (n : Nat) : Pyramid :=
  p.growBy (n + 1 - p.made.length)

theorem length_growBy (p : Pyramid) (n : Nat) : (p.growBy n).made.length = p.made.length + n := by
  induction n with
  | zero => rfl
  | succ n ih => exact congrArg (· + 1) ih

theorem lt_length_upTo (p : Pyramid) (n : Nat) : n < (p.upTo n).made.length := by
  rw [upTo, length_growBy]
  omega

/-- A level that has been made: level 0 is the image. -/
def level (p : Pyramid) (n : Nat) (made : n < p.made.length) : Gray :=
  p.made.get ⟨p.made.length - 1 - n, by omega⟩

theorem level_eq (p : Pyramid) (n : Nat) (made : n < p.made.length) :
    p.level n made = Image.reduce p.base n := by
  have kept : p.made.reverse[n]? = some (p.level n made) := by
    rw [List.getElem?_reverse made]
    exact List.getElem?_eq_getElem _
  rw [p.made_eq, ← List.map_reverse, List.reverse_reverse, List.getElem?_map, List.getElem?_range made]
    at kept
  exact (Option.some.inj kept).symm

end Pyramid

end ScreenScript
