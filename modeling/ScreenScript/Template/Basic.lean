import ScreenScript.Failure
import ScreenScript.Image.Raster
import ScreenScript.Text.Lines

namespace ScreenScript

def Template.isThreshold (x : Float) : Bool :=
  0.0 < x && x ≤ 1.0

structure Template where
  id : String
  image : Gray
  threshold : Float
  isThreshold_threshold : Template.isThreshold threshold = true
  region : Option Region := none

namespace Template

inductive Fault where
  | emptyId
  | absoluteId
  | unsafeSegment
  | unsafeCharacter
  | noDirectory
  | noFile (id root : String)
  | undecodable (path reason : String)
  | emptyImage
  | unreadableMetadata (reason : String)
  | invalidMetadata (reason : String)
  | otherId (declared : String)
  | invalidThreshold (threshold : Float)

def Fault.reason : Fault → String
  | emptyId => "id is empty"
  | absoluteId => "id must be a relative path"
  | unsafeSegment => "id contains an empty, '.' or '..' segment"
  | unsafeCharacter => "id may only contain letters, digits, '_', '-', '.' and '/'"
  | noDirectory => "no templates directory configured"
  | noFile id root => s!"no {id}.png, .jpg or .jpeg in {root}"
  | undecodable path reason => s!"cannot decode {path}: {reason}"
  | emptyImage => "image is empty"
  | unreadableMetadata reason => s!"cannot read metadata: {reason}"
  | invalidMetadata reason => s!"invalid metadata: {reason}"
  | otherId declared => s!"metadata declares id '{declared}'"
  | invalidThreshold threshold => s!"threshold {Number.plain threshold} is outside (0, 1]"

def Fault.failure (fault : Fault) (id : String) : Failure :=
  .templateNotFound id fault.reason

def standardThreshold : Float := 0.8

theorem isThreshold_standardThreshold : isThreshold standardThreshold = true := by
  decide +kernel

def ofImage (id : String) (image : Gray) : Template :=
  { id, image, threshold := standardThreshold
    isThreshold_threshold := isThreshold_standardThreshold }

def withThreshold (t : Template) (threshold : Float) : Except Fault Template :=
  if h : isThreshold threshold = true then
    .ok { t with threshold, isThreshold_threshold := h }
  else .error (.invalidThreshold threshold)

def withRegion (t : Template) (region : Region) : Template :=
  { t with region := some region }

def segments (cs : List Char) : List (List Char) :=
  Text.split '/' cs

def isUnsafeSegment (segment : List Char) : Bool :=
  segment.isEmpty || segment = ['.'] || segment = ['.', '.']

def isIdChar (c : Char) : Bool :=
  c.isAlphanum || c = '_' || c = '-' || c = '.' || c = '/'

def checkId (id : String) : Except Fault Unit :=
  let cs := id.toList
  if cs.isEmpty then .error .emptyId
  else if cs.head? = some '/' ∨ cs.getLast? = some '/' then .error .absoluteId
  else if (segments cs).any isUnsafeSegment then .error .unsafeSegment
  else if !cs.all isIdChar then .error .unsafeCharacter
  else .ok ()

end Template

end ScreenScript
