import ScreenScript.Failure
import ScreenScript.Geometry

namespace ScreenScript

/-- Captured pixels per logical pixel: a positive, finite number. -/
structure Scale where
  value : Float
  finite : Number.isFinite value = true
  positive : 0.0 < value

namespace Scale

def ofFloat? (value : Float) : Option Scale :=
  if h : Number.isFinite value = true ∧ 0.0 < value then some ⟨value, h.1, h.2⟩ else none

def refusal (value : Float) : String :=
  s!"scale factor must be positive, got {Number.plain value}"

def isNative (s : Scale) : Bool :=
  (s.value - 1.0).abs < 1e-3

def display (s : Scale) : String :=
  Number.fixed 3 s.value ++ "x"

/-- Why sizes have no scale. -/
inductive Fault where
  | emptyScreen (logical : Size)
  | emptyCapture
  | invalidRatio (ratio : Float)

def Fault.message : Fault → String
  | emptyScreen logical => s!"logical screen size is {logical.width}x{logical.height}"
  | emptyCapture => "capture is empty"
  | invalidRatio ratio => s!"computed an invalid ratio {Number.plain ratio}"

def resolve (capture logical : Size) : Except Fault Scale :=
  if logical.isEmpty then .error (.emptyScreen logical)
  else if capture.isEmpty then .error .emptyCapture
  else
    let ratio := Float.ofNat capture.width / Float.ofNat logical.width
    match ofFloat? ratio with
    | some s => .ok s
    | none => .error (.invalidRatio ratio)

structure Resolved where
  scale : Scale
  capture : Size
  logical : Size

inductive Notice where
  | resolved (scale : Scale) (capture : Size)
  | changed (old new : Scale) (capture : Size)

/-- The scale last worked out, if any. -/
structure Cache where
  resolved? : Option Resolved := none

namespace Cache

def current? (c : Cache) : Option Scale :=
  c.resolved?.map Resolved.scale

def hit? (c : Cache) (capture logical : Size) : Option Scale :=
  (c.resolved?.filter fun r => r.capture = capture && r.logical = logical).map Resolved.scale

def observe (c : Cache) (capture logical : Size) : Except Fault (Scale × Cache × Option Notice) :=
  match c.hit? capture logical with
  | some scale => .ok (scale, c, none)
  | none => do
    let scale ← resolve capture logical
    let notice := match c.current? with
      | some old => Notice.changed old scale capture
      | none => Notice.resolved scale capture
    return (scale, ⟨some ⟨scale, capture, logical⟩⟩, some notice)

def invalidate (c : Cache) : Cache :=
  { c with resolved? := none }

end Cache

end Scale

/-! ## From captures to the screen -/

/-- A coordinate kept on an axis of so many pixels; what is no number goes to the origin. -/
def clampAxis (value : Float) (bound : Nat) : Float :=
  let last := Float.ofNat (bound - 1)
  if value.isNaN then 0.0
  else if value < 0.0 then 0.0
  else if last < value then last
  else value

namespace Point

def clamp (p : Point) (bounds : Size) : Point :=
  ⟨clampAxis p.x bounds.width, clampAxis p.y bounds.height⟩

def onScreen (raw : Point) (scale : Scale) (bounds : Size) : Point :=
  clamp ⟨raw.x / scale.value, raw.y / scale.value⟩ bounds

end Point

end ScreenScript
