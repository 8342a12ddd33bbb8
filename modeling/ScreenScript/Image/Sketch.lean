import ScreenScript.Image.Raster

namespace ScreenScript

def Rgba.ofBrightness (brightness : UInt8) : Rgba :=
  ⟨brightness, brightness, brightness, 255⟩

/-- A brightness that grows along both axes, in steps of one pixel in so many. -/
structure Ramp where
  start : Nat
  across : Nat
  down : Nat
  pace : Nat

def Ramp.value (r : Ramp) (x y : Nat) : UInt8 :=
  UInt8.ofNat (r.start + (r.across * x + r.down * y) / max 1 r.pace)

/-- A pixel for every position. -/
inductive Texture where
  | flat (pixel : Rgba)
  | checker (cell : Nat) (even odd : UInt8)
  | ramp (brightness : Ramp)
  | blend (red green blue : Ramp) (alpha : UInt8)
  | noise (seed : UInt32)
  | dots (rowWidth : Nat) (brightness : Array UInt8)

def Texture.scatter (seed : UInt32) (x y : Nat) : UInt8 :=
  let mixed := seed ^^^ (UInt32.ofNat x * 374761393 + UInt32.ofNat y * 668265263)
  let mixed := (mixed ^^^ (mixed >>> 13)) * 1274126177
  (mixed ^^^ (mixed >>> 16)).toUInt8

def Texture.pixel (t : Texture) (x y : Nat) : Rgba :=
  match t with
  | flat pixel => pixel
  | checker cell even odd =>
    .ofBrightness (if (x / max 1 cell + y / max 1 cell) % 2 = 0 then even else odd)
  | ramp brightness => .ofBrightness (brightness.value x y)
  | blend red green blue alpha => ⟨red.value x y, green.value x y, blue.value x y, alpha⟩
  | noise seed => .ofBrightness (scatter seed x y)
  | dots rowWidth brightness => .ofBrightness (brightness.getD (y * rowWidth + x) 0)

/-- A texture laid over a region, with each of its pixels drawn larger. -/
structure Patch where
  area : Region
  zoom : Nat
  texture : Texture

def Patch.covers (p : Patch) (x y : Nat) : Bool :=
  p.area.x ≤ x && x < p.area.x + p.area.width && p.area.y ≤ y && y < p.area.y + p.area.height

def Patch.pixel (p : Patch) (x y : Nat) : Rgba :=
  p.texture.pixel ((x - p.area.x) / max 1 p.zoom) ((y - p.area.y) / max 1 p.zoom)

/-- A picture described by a ground and the patches over it, the lowest first. -/
structure Sketch where
  size : Size
  ground : Texture
  patches : Array Patch := #[]

namespace Sketch

def pixel (s : Sketch) (x y : Nat) : Rgba :=
  match s.patches.findRev? (·.covers x y) with
  | some patch => patch.pixel x y
  | none => s.ground.pixel x y

def picture (s : Sketch) : Picture :=
  Raster.generate s.size.width s.size.height s.pixel

end Sketch

end ScreenScript
