import ScreenScript.Disk.Basic
import ScreenScript.Disk.Path
import ScreenScript.NameMap
import ScreenScript.Template.Basic
import ScreenScript.Template.Metadata

/-!
# Stores of templates

A store keeps every template that it has loaded. Loading has two sections, between which another run
may use the store: a lookup of what is kept, and a fetch that looks again before it reads the
template from the directory of the store.
-/

namespace ScreenScript

namespace Template

def imageExtensions : List String := ["png", "jpg", "jpeg"]

def path (root id extension : String) : String :=
  Path.join root (id ++ "." ++ extension)

def readingMetadata (root id : String) : ExceptT Fault Disk.Reading Template.Metadata := do
  let file := path root id "json"
  if ← Disk.Reading.isFile file then
    match ← Disk.Reading.readText file with
    | .error fault => throw (.unreadableMetadata fault.message)
    | .ok text =>
      match Template.Metadata.read? text with
      | some metadata => return metadata
      | none => throw (.invalidMetadata "not an object of id, threshold and region")
  else return {}

def ofMetadata (id : String) (image : Gray) (metadata : Template.Metadata) :
    Except Fault Template := do
  if let some declared := metadata.id then
    if declared ≠ id then throw (.otherId declared)
  let t := { ofImage id image with region := metadata.region }
  match metadata.threshold with
  | some threshold => t.withThreshold threshold
  | none => return t

def readingImage (root id file : String) : ExceptT Fault Disk.Reading Template := do
  match ← Disk.Reading.readPicture file with
  | .error reason => throw (.undecodable file reason)
  | .ok picture =>
    if picture.isEmpty then throw .emptyImage
    ofMetadata id picture.luma (← readingMetadata root id)

def reading (root? : Option String) (id : String) : ExceptT Fault Disk.Reading Template := do
  checkId id
  let some root := root? | throw .noDirectory
  match ← Disk.Reading.firstFile? (imageExtensions.map (path root id)) with
  | some file => readingImage root id file
  | none => throw (.noFile id root)

def read {σ : Type} (d : Disk σ) (disk : σ) (root? : Option String) (id : String) :
    Except Fault Template :=
  (reading root? id).run.run d disk

end Template

/-- The templates that are kept, with the directory that others are loaded from. -/
structure TemplateStore where
  root : Option String := none
  kept : NameMap Template := ∅

namespace TemplateStore

def isKept (s : TemplateStore) (id : String) : Bool :=
  (s.kept.get? id).isSome

def insert (s : TemplateStore) (t : Template) : TemplateStore :=
  { s with kept := s.kept.insert t.id t }

/-- The first section of loading: the template, if it is kept. -/
def lookup (s : TemplateStore) (id : String) : Option Template :=
  s.kept.get? id

/-- The second section of loading: the template, which is read and kept if it still is not. -/
def fetching (id : String) (s : TemplateStore) : Disk.Reading (Except Failure Template × TemplateStore) :=
  match s.lookup id with
  | some t => pure (.ok t, s)
  | none => do
    match ← (Template.reading s.root id).run with
    | .ok t => return (.ok t, { s with kept := s.kept.insert id t })
    | .error fault => return (.error (fault.failure id), s)

def loading (id : String) (s : TemplateStore) : Disk.Reading (Except Failure Template × TemplateStore) :=
  match s.lookup id with
  | some t => pure (.ok t, s)
  | none => s.fetching id

def fetch {σ : Type} (d : Disk σ) (disk : σ) (id : String) (s : TemplateStore) :
    Except Failure Template × TemplateStore :=
  (s.fetching id).run d disk

def load {σ : Type} (d : Disk σ) (disk : σ) (id : String) (s : TemplateStore) :
    Except Failure Template × TemplateStore :=
  (s.loading id).run d disk

end TemplateStore

end ScreenScript
