import ScreenScript.Disk.Basic
import ScreenScript.Disk.Path
import ScreenScript.Json.Printer
import ScreenScript.Json.Reader
import ScreenScript.Json.Records
import ScreenScript.Time.Timestamp
import ScreenScript.Variables

namespace ScreenScript

structure VariableFile.Entry where
  value : Value
  updated : Timestamp

structure VariableFile where
  path : String
  entries : NameMap VariableFile.Entry := ∅

namespace VariableFile

open Json

/-! ## The text of a file -/

def Entry.toJson (e : Entry) : Json :=
  .object [("value", e.value.toJson), ("updated_at", .string (e.updated.write "Z"))]

def Entry.ofJson? (j : Json) : Option Entry := do
  match ← record? ["value", "updated_at"] false j with
  | [value, updated] =>
    return ⟨← required? Value.ofJson? value, ← Timestamp.read? (← text? updated)⟩
  | _ => none

def entriesToJson (entries : NameMap Entry) : Json :=
  .object (entries.toList.map fun (name, entry) => (name, entry.toJson))

def entriesOfJson? : Json → Option (NameMap Entry)
  | .object members => do
    return .ofList (← members.mapM fun (name, j) => return (name, ← Entry.ofJson? j))
  | _ => none

def write (entries : NameMap Entry) : String :=
  pretty "" (.object [("variables", entriesToJson entries)])

def read? (text : String) : Option (NameMap Entry) := do
  match ← record? ["variables"] false (← Json.read? text) with
  | [none] => return ∅
  | [some members] => entriesOfJson? members
  | _ => none

/-! ## Files on a disk -/

variable {σ : Type}

def load (d : Disk σ) (disk : σ) (path : String) : Except Failure VariableFile :=
  match d.readText path disk with
  | .error .notFound => .ok { path }
  | .error fault => .error (.persistence s!"failed to read {path}: {fault.message}")
  | .ok text =>
    match read? text with
    | some entries => .ok { path, entries }
    | none => .error (.persistence
        s!"{path} is not a valid vars file: expected variables with a value and a time")

def draftPath (path : String) : String :=
  Path.withExtension path "json.tmp"

/-- An operation on the disk, whose fault is a failure to do something with the file. -/
def onDisk (aim : String) (operation : σ → Except Disk.Fault Unit × σ) :
    Attempt (VariableFile × σ) Unit :=
  Attempt.of fun (file, disk) =>
    match operation disk with
    | (.ok (), disk) => (.ok (), file, disk)
    | (.error fault, disk) =>
      (.error (.persistence s!"failed to {aim} {file.path}: {fault.message}"), file, disk)

def save (d : Disk σ) : Attempt (VariableFile × σ) Unit := do
  let (file, _) ← get
  if let some directory := (Path.parent? file.path).filter (!·.isEmpty) then
    onDisk "create directory for" (d.makePrivate directory)
  onDisk "write" (d.writeText (draftPath file.path) (write file.entries))
  onDisk "replace" (d.replace (draftPath file.path) file.path)

def insert (d : Disk σ) (now : Timestamp) (name : String) (value : Value) :
    Attempt (VariableFile × σ) Unit := do
  modify fun (file, disk) => ({ file with entries := file.entries.insert name ⟨value, now⟩ }, disk)
  save d

def remove (d : Disk σ) (name : String) : Attempt (VariableFile × σ) Bool := do
  let (file, _) ← get
  match file.entries.get? name with
  | none => return false
  | some _ =>
    modify fun (file, disk) => ({ file with entries := file.entries.erase name }, disk)
    save d
    return true

def value? (file : VariableFile) (name : String) : Option Value :=
  (file.entries.get? name).map Entry.value

def backing (d : Disk σ) (now : Timestamp) : Backing (VariableFile × σ) where
  read name := do return (← get).1.value? name
  write name value := insert d now name value

end VariableFile

end ScreenScript
