import ScreenScript.Image.Raster

namespace ScreenScript.Image

/-- The source samples that go into one output sample, from the sample `first` on. -/
structure Taps where
  first : Nat
  weights : List Float32

namespace Taps

/-- The greatest natural number that is not above a sample's position, and 0 for a negative one. -/
def floor (x : Float32) : Nat :=
  x.toUInt64.toNat

def ceil (x : Float32) : Nat :=
  if x.toUInt64.toFloat32 < x then floor x + 1 else floor x

/-- The weighted samples of output sample `o`, for `n` source and `m` output samples. -/
def triangle (n m o : Nat) : Taps :=
  let ratio := Float32.ofNat n / Float32.ofNat m
  let reach : Float32 := if ratio < 1.0 then 1.0 else ratio
  let centre := (Float32.ofNat o + 0.5) * ratio
  let first := min (floor (centre - reach)) (n - 1)
  let last := min (max (ceil (centre + reach)) (first + 1)) n
  let centre := centre - 0.5
  let weights := (List.range (last - first)).map fun i =>
    let distance := ((Float32.ofNat (first + i) - centre) / reach).abs
    if distance < 1.0 then 1.0 - distance else 0.0
  let total := weights.foldl (· + ·) 0.0
  { first, weights := weights.map (· / total) }

@[inline]
def apply (taps : Taps) (sample : Nat → Float32) : Float32 :=
  (taps.weights.foldl (fun (i, sum) w => (i + 1, sum + sample i * w)) (taps.first, 0.0)).2

end Taps

def toGray (x : Float32) : UInt8 :=
  let limited : Float32 := if x < 0.0 then 0.0 else if 255.0 < x then 255.0 else x
  let below := limited.toUInt8
  if 0.5 ≤ limited - below.toFloat32 then below + 1 else below

def resize (image : Gray) (width height : Nat) : Gray :=
  if image.width = width ∧ image.height = height then image
  else
    let rows := Array.ofFn fun y : Fin height => Taps.triangle image.height height y
    let columns := Array.ofFn fun x : Fin width => Taps.triangle image.width width x
    let tall : Raster Float32 := Raster.generate image.width height fun x y =>
      (rows.getD y ⟨0, []⟩).apply fun i => (image.get x i).toFloat32
    Raster.generate width height fun x y =>
      toGray ((columns.getD x ⟨0, []⟩).apply fun i => tall.get i y)

def halve (image : Gray) : Gray :=
  resize image (max (image.width / 2) 1) (max (image.height / 2) 1)

end ScreenScript.Image
