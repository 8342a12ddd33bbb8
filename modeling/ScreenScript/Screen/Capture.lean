import ScreenScript.Failure
import ScreenScript.Image.Raster

namespace ScreenScript

def Rgba.ofBytes (bytes : ByteArray) (start : Nat) : Rgba :=
  let byte (i : Nat) : UInt8 := (bytes[start + i]?).getD 0
  ⟨byte 0, byte 1, byte 2, byte 3⟩

namespace Picture

def byteCount (width height : UInt32) : UInt64 :=
  width.toUInt64 * height.toUInt64 * 4

def ofBytes (width height : UInt32) (bytes : ByteArray) : Except Failure Picture :=
  if bytes.size < 4 * (width.toNat * height.toNat) then
    .error (.capture (s!"buffer of {bytes.size} bytes does not hold a {width}x{height} RGBA frame " ++
      s!"({byteCount width height} bytes)"))
  else
    .ok (Raster.generate width.toNat height.toNat fun x y =>
      Rgba.ofBytes bytes (4 * (y * width.toNat + x)))

end Picture

end ScreenScript
