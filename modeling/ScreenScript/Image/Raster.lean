import ScreenScript.Geometry

namespace ScreenScript

/-- A rectangle of pixels. -/
structure Raster (α : Type) where
  width : Nat
  height : Nat
  pixels : Array α
  size_pixels : pixels.size = width * height

namespace Raster

variable {α β : Type}

@[inline]
def generate (width height : Nat) (f : Nat → Nat → α) : Raster α where
  width
  height
  pixels := Array.ofFn fun i : Fin (width * height) => f (i % width) (i / width)
  size_pixels := Array.size_ofFn

def size (r : Raster α) : Size :=
  ⟨r.width, r.height⟩

def isEmpty (r : Raster α) : Bool :=
  r.size.isEmpty

/-- The pixel at a position, and a default one outside the raster. -/
@[inline]
def get [Inhabited α] (r : Raster α) (x y : Nat) : α :=
  r.pixels.getD (y * r.width + x) default

def map (f : α → β) (r : Raster α) : Raster β where
  width := r.width
  height := r.height
  pixels := r.pixels.map f
  size_pixels := by rw [Array.size_map, r.size_pixels]

def crop [Inhabited α] (r : Raster α) (region : Region) : Raster α :=
  generate region.width region.height fun x y => r.get (region.x + x) (region.y + y)

def area [Inhabited α] (r : Raster α) (region : Region) : Raster α :=
  if region = Region.full r.size then r else r.crop region

theorem index_lt {width height x y : Nat} (hx : x < width) (hy : y < height) :
    y * width + x < width * height := by
  calc y * width + x < y * width + width := by omega
    _ = (y + 1) * width := by rw [Nat.add_mul, Nat.one_mul]
    _ ≤ height * width := Nat.mul_le_mul_right _ hy
    _ = width * height := Nat.mul_comm _ _

@[simp]
theorem get_generate [Inhabited α] {width height x y : Nat} {f : Nat → Nat → α} (hx : x < width)
    (hy : y < height) : (generate width height f).get x y = f x y := by
  have column : (y * width + x) % width = x := by
    rw [Nat.mul_comm, Nat.mul_add_mod, Nat.mod_eq_of_lt hx]
  have row : (y * width + x) / width = y := by
    rw [Nat.mul_comm, Nat.mul_add_div (by omega), Nat.div_eq_of_lt hx, Nat.add_zero]
  simp [get, generate, Array.getD, index_lt hx hy, column, row]

end Raster

/-- A pixel of a screen. -/
structure Rgba where
  red : UInt8
  green : UInt8
  blue : UInt8
  alpha : UInt8
  deriving DecidableEq, Repr, Inhabited

/-- The brightness of a pixel: red, green and blue with the weights of the human eye. -/
def Rgba.luma (p : Rgba) : UInt8 :=
  UInt8.ofNat ((2126 * p.red.toNat + 7152 * p.green.toNat + 722 * p.blue.toNat) / 10000)

abbrev Gray := Raster UInt8

abbrev Picture := Raster Rgba

def Picture.luma (p : Picture) : Gray :=
  Raster.map Rgba.luma p

end ScreenScript
