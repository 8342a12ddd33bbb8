import ScreenScript.Image.Deflate
import ScreenScript.Image.Raster

namespace ScreenScript.Png

/-- What the samples of a pixel are. -/
inductive Colours where
  | gray
  | rgb
  | palette
  | grayAlpha
  | rgba
  deriving DecidableEq

namespace Colours

def ofNat? : Nat → Option Colours
  | 0 => some gray
  | 2 => some rgb
  | 3 => some palette
  | 4 => some grayAlpha
  | 6 => some rgba
  | _ => none

def channels : Colours → Nat
  | gray | palette => 1
  | grayAlpha => 2
  | rgb => 3
  | rgba => 4

def depths : Colours → List Nat
  | gray => [1, 2, 4, 8, 16]
  | palette => [1, 2, 4, 8]
  | rgb | grayAlpha | rgba => [8, 16]

end Colours

structure Header where
  width : Nat
  height : Nat
  depth : Nat
  colours : Colours
  interlaced : Bool

structure File where
  header : Header
  palette : ByteArray
  transparent : ByteArray
  samples : ByteArray

/-! ## Chunks -/

def byte (bytes : ByteArray) (i : Nat) : Nat :=
  ((bytes[i]?).map UInt8.toNat).getD 0

def word (bytes : ByteArray) (start : Nat) : Nat :=
  (List.range 4).foldl (fun n i => 256 * n + byte bytes (start + i)) 0

def signature : List Nat := [137, 80, 78, 71, 13, 10, 26, 10]

/-- The chunks from a position on, at most so many, by the numbers that their names are. -/
def chunks (bytes : ByteArray) : Nat → Nat → List (Nat × ByteArray)
  | 0, _ => []
  | n + 1, start =>
    let length := word bytes start
    let content := start + 8
    if bytes.size < content + length then []
    else (word bytes (start + 4), bytes.extract content (content + length)) ::
      chunks bytes n (content + length + 4)

def chunkName (name : String) : Nat :=
  name.toList.foldl (fun n c => 256 * n + c.toNat) 0

def contents (all : List (Nat × ByteArray)) (name : String) : ByteArray :=
  (all.filter (·.1 = chunkName name)).foldl (fun joined chunk => joined ++ chunk.2) .empty

def readHeader (content : ByteArray) : Option Header := do
  let colours ← Colours.ofNat? (byte content 9)
  let header : Header := {
    width := word content 0
    height := word content 4
    depth := byte content 8
    colours
    interlaced := byte content 12 = 1 }
  if header.width = 0 ∨ header.height = 0 ∨ !colours.depths.contains header.depth then none
  else return header

def readFile (bytes : ByteArray) : Option File := do
  if (List.range 8).map (byte bytes) ≠ signature then none
  else
    let all := chunks bytes (bytes.size / 12) 8
    return {
      header := ← readHeader (contents all "IHDR")
      palette := contents all "PLTE"
      transparent := contents all "tRNS"
      samples := ← Deflate.inflate? (contents all "IDAT") }

/-! ## Rows -/

/-- Of three numbers around a byte, the one nearest to their plane; the first of equally near ones. -/
def nearestOf (left up corner : Nat) : Nat :=
  let distance (n : Nat) : Nat := (left + up - (corner + n)) + (corner + n - (left + up))
  if distance left ≤ distance up ∧ distance left ≤ distance corner then left
  else if distance up ≤ distance corner then up
  else corner

def predict (filter left up corner : Nat) : Nat :=
  match filter with
  | 1 => left
  | 2 => up
  | 3 => (left + up) / 2
  | 4 => nearestOf left up corner
  | _ => 0

/-- A row of so many bytes, whose differences start at a position; pixels are `stride` bytes apart. -/
def row (samples : ByteArray) (start length stride : Nat) (above : ByteArray) : ByteArray :=
  let filter := byte samples start
  length.fold (fun i _ done =>
    let before (bytes : ByteArray) : Nat := if i < stride then 0 else byte bytes (i - stride)
    let predicted := predict filter (before done) (byte above i) (before above)
    done.push (byte samples (start + 1 + i) + predicted).toUInt8) .empty

/-- A part of a picture that is stored by itself: every so many pixels across and down. -/
structure Pass where
  left : Nat
  top : Nat
  across : Nat
  down : Nat

def passes (interlaced : Bool) : List Pass :=
  if interlaced then
    [⟨0, 0, 8, 8⟩, ⟨4, 0, 8, 8⟩, ⟨0, 4, 4, 8⟩, ⟨2, 0, 4, 4⟩, ⟨0, 2, 2, 4⟩, ⟨1, 0, 2, 2⟩, ⟨0, 1, 1, 2⟩]
  else [⟨0, 0, 1, 1⟩]

namespace Header

def pixelBits (h : Header) : Nat :=
  h.depth * h.colours.channels

def passSize (h : Header) (p : Pass) : Size :=
  ⟨(h.width + p.across - 1 - p.left) / p.across, (h.height + p.down - 1 - p.top) / p.down⟩

def rowLength (h : Header) (width : Nat) : Nat :=
  (width * h.pixelBits + 7) / 8

def passLength (h : Header) (size : Size) : Nat :=
  if size.isEmpty then 0 else size.height * (h.rowLength size.width + 1)

def passRows (h : Header) (samples : ByteArray) (start : Nat) (size : Size) : Array ByteArray :=
  let length := h.rowLength size.width
  let stride := max 1 (h.pixelBits / 8)
  (size.height.fold (fun y _ (rows, above) =>
    let next := row samples (start + y * (length + 1)) length stride above
    (rows.push next, next)) (#[], ByteArray.empty)).1

def layers (h : Header) (samples : ByteArray) : Nat → List Pass → List (Pass × Array ByteArray)
  | _, [] => []
  | start, p :: rest =>
    let size := h.passSize p
    (p, h.passRows samples start size) :: layers h samples (start + h.passLength size) rest

def length (h : Header) : Nat :=
  (passes h.interlaced).foldl (fun total p => total + h.passLength (h.passSize p)) 0

end Header

/-! ## Pixels -/

def sample (depth : Nat) (row : ByteArray) (i : Nat) : Nat :=
  if depth = 16 then 256 * byte row (2 * i) + byte row (2 * i + 1)
  else byte row (i * depth / 8) >>> (8 - depth - i * depth % 8) % Nat.pow 2 depth

def scaled (depth n : Nat) : UInt8 :=
  let most := Nat.pow 2 depth - 1
  UInt8.ofNat ((255 * n + most / 2) / most)

namespace File

/-- The opacity of a colour without alpha: none if it is the transparent colour, and else full. -/
def opacity (f : File) (samples : List Nat) : UInt8 :=
  let transparent := (List.range samples.length).map fun i =>
    256 * byte f.transparent (2 * i) + byte f.transparent (2 * i + 1)
  if !f.transparent.isEmpty && samples = transparent then 0 else 255

def pixel (f : File) (row : ByteArray) (x : Nat) : Rgba :=
  let h := f.header
  let raw (channel : Nat) : Nat := sample h.depth row (x * h.colours.channels + channel)
  let value (channel : Nat) : UInt8 := scaled h.depth (raw channel)
  match h.colours with
  | .gray => ⟨value 0, value 0, value 0, f.opacity [raw 0]⟩
  | .rgb => ⟨value 0, value 1, value 2, f.opacity [raw 0, raw 1, raw 2]⟩
  | .grayAlpha => ⟨value 0, value 0, value 0, value 1⟩
  | .rgba => ⟨value 0, value 1, value 2, value 3⟩
  | .palette =>
    let colour (i : Nat) : UInt8 := (byte f.palette (3 * raw 0 + i)).toUInt8
    ⟨colour 0, colour 1, colour 2, (f.transparent[raw 0]?).getD 255⟩

def picture? (f : File) : Option Picture :=
  let h := f.header
  if f.samples.size < h.length then none
  else
    let layers := h.layers f.samples 0 (passes h.interlaced)
    some (Raster.generate h.width h.height fun x y =>
      match layers.find? fun (p, _) => x % p.across = p.left && y % p.down = p.top with
      | some (p, rows) => f.pixel (rows.getD (y / p.down) .empty) (x / p.across)
      | none => default)

end File

def decode? (bytes : ByteArray) : Option Picture :=
  (readFile bytes).bind File.picture?

end ScreenScript.Png
