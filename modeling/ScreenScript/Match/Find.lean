import ScreenScript.Match.Window
import ScreenScript.Screen.Scale
import ScreenScript.Template.Basic

/-!
# Finding a template in a capture

The template is tried at its own size. If that misses and the display is scaled, it is also tried
resized by the scale and by its reciprocal, since it may have been captured on either kind of
display. The best score of all attempts wins, the first of equal ones.
-/

namespace ScreenScript

structure Match where
  found : Bool
  /-- The centre of the best window in the capture, if the template was found. -/
  location : Option Point
  /-- The best score, from 0 to 1. -/
  score : Float
  threshold : Float
  templateScale : Float

structure MatchAttempt where
  factor : Float
  size : Size
  best : BestWindow

/-- The outcome of looking for a template once, with the attempts that had a window. -/
structure Finding where
  result : Match
  attempts : List MatchAttempt

namespace Match

def meets (score threshold : Float) : Bool :=
  threshold ≤ score

def nothing (threshold : Float) : Match :=
  { found := false, location := none, score := 0.0, threshold, templateScale := 1.0 }

def ofAttempt (threshold : Float) (area : Region) (a : MatchAttempt) : Match :=
  let window := a.best.window
  let found := meets window.score threshold
  let centre : Point :=
    ⟨Scalar.ofNat (area.x + window.corner.x) + Scalar.ofNat a.size.width / 2.0,
      Scalar.ofNat (area.y + window.corner.y) + Scalar.ofNat a.size.height / 2.0⟩
  { found, location := if found then some centre else none, score := window.score, threshold
    templateScale := a.factor }

end Match

namespace MatchAttempt

def score (a : MatchAttempt) : Float :=
  a.best.window.score

def best? : List MatchAttempt → Option MatchAttempt
  | [] => none
  | first :: rest => some (rest.foldl (fun best a => if best.score < a.score then a else best) first)

def resizedSide? (side : Nat) (factor : Float) : Option Nat :=
  match Binary64.ofFloat (Float.ofNat side * factor) with
  | .finite false significand exponent =>
    let (num, den) := Number.binaryFraction significand exponent
    let nearest := (2 * num + den) / (2 * den)
    if nearest = 0 then none else some nearest
  | _ => none

def make (pyramid : Pyramid) (image : Gray) (factor : Float) :
    Option MatchAttempt × Pyramid :=
  let (best, pyramid) := bestWindow pyramid image
  (best.map fun best => ⟨factor, image.size, best⟩, pyramid)

def makeResized (pyramid : Pyramid) (image : Gray) (factor : Float) :
    Option MatchAttempt × Pyramid :=
  match resizedSide? image.width factor, resizedSide? image.height factor with
  | some width, some height =>
    if pyramid.base.width < width ∨ pyramid.base.height < height then (none, pyramid)
    else make pyramid (Image.resize image width height) factor
  | _, _ => (none, pyramid)

end MatchAttempt

namespace Template

open MatchAttempt in
def attempts (t : Template) (area : Gray) (scale : Scale) : List MatchAttempt :=
  let (native, pyramid) := make (Pyramid.ofImage area) t.image 1.0
  let satisfied := native.any fun a => Match.meets a.score t.threshold
  if satisfied || scale.isNative then native.toList
  else
    let (larger, pyramid) := makeResized pyramid t.image scale.value
    let (smaller, _) := makeResized pyramid t.image (1.0 / scale.value)
    native.toList ++ larger.toList ++ smaller.toList

def searchArea? (t : Template) (capture : Size) : Option Region :=
  match t.region with
  | some region => region.clip? capture
  | none => if capture.isEmpty then none else some (Region.full capture)

def find (t : Template) (capture : Picture) (scale : Scale) : Finding :=
  match t.searchArea? capture.size with
  | none => ⟨Match.nothing t.threshold, []⟩
  | some area =>
    let attempts := t.attempts ((Picture.luma capture).area area) scale
    match MatchAttempt.best? attempts with
    | none => ⟨Match.nothing t.threshold, []⟩
    | some best => ⟨Match.ofAttempt t.threshold area best, attempts⟩

end Template

end ScreenScript
