import ScreenScript.Disk.Basic
import ScreenScript.Disk.Node

/-!
# Trees of files

A file system kept in memory. A path is walked part by part from the root or from the working
directory, and every part but the last has to lead to a directory. To read, the whole path is walked;
to make, write or replace something, all parts but the last, which has to be a name.
-/

namespace ScreenScript

/-- All files below the root, and the location of the working directory. -/
structure FileTree where
  root : FileTree.Node := .newDirectory
  home : List String := []

namespace FileTree

/-- The tree that holds only the working directory, which a path leads to from the root. -/
def startingIn (path : String) : FileTree :=
  let home := (Path.parts path).filter (!·.isEmpty)
  { root := Node.newDirectory.put home .newDirectory, home }

/--
What a walk has come to, and the directories on its way, the nearest first, with the names that the
walk took there.
-/
structure Spot where
  node : Node
  way : List (String × Node) := []

namespace Spot

def up (s : Spot) : Spot :=
  match s.way with
  | (_, directory) :: way => ⟨directory, way⟩
  | [] => s

def location (s : Spot) : List String :=
  (s.way.map Prod.fst).reverse

end Spot

/-! ## Walks -/

/-- The longest name that a file can have, in bytes. -/
def longestName : Nat := 255

/-- The longest path that can be walked, in bytes. -/
def longestPath : Nat := 4095

def walk (s : Spot) : List String → Except Disk.Fault Spot
  | [] => .ok s
  | part :: rest =>
    match s.node with
    | .directory _ children =>
      if part.isEmpty || part = "." then walk s rest
      else if part = ".." then walk s.up rest
      else if longestName < part.utf8ByteSize then .error .nameTooLong
      else match children.lookup part with
        | some child => walk ⟨child, (part, s.node) :: s.way⟩ rest
        | none => .error .notFound
    | _ => .error .notDirectory

def origin (t : FileTree) (path : String) : Spot :=
  let top : Spot := { node := t.root }
  if Path.isAbsolute path then top else (walk top t.home).toOption.getD top

def check (path : String) : Except Disk.Fault Unit :=
  if path.contains '\x00' then .error .nulInName
  else if path.isEmpty then .error .notFound
  else if longestPath < path.utf8ByteSize then .error .nameTooLong
  else .ok ()

def spot (t : FileTree) (path : String) : Except Disk.Fault Spot := do
  check path
  walk (t.origin path) (Path.parts path)

def find (t : FileTree) (path : String) : Except Disk.Fault Node :=
  (t.spot path).map Spot.node

/-- The last part of a path, and the directory in which it is looked for. -/
structure Entrance where
  directory : Spot
  last : String
  /-- Whether separators follow the last part, which then has to be a directory. -/
  closed : Bool

namespace Entrance

def isNamed (e : Entrance) : Bool :=
  !(e.last.isEmpty || e.last = "." || e.last = "..")

def location (e : Entrance) : List String :=
  e.directory.location ++ [e.last]

def node? (e : Entrance) : Except Disk.Fault (Option Node) :=
  if longestName < e.last.utf8ByteSize then .error .nameTooLong
  else .ok (e.directory.node.child? e.last)

end Entrance

def entrance (t : FileTree) (path : String) : Except Disk.Fault Entrance := do
  check path
  let names := (Path.parts path).filter (!·.isEmpty)
  let directory ← walk (t.origin path) (names.dropLast ++ [""])
  return ⟨directory, names.getLast?.getD "", path.endsWith "/"⟩

/-! ## Reading -/

def isDirectory (t : FileTree) (path : String) : Bool :=
  match t.find path with
  | .ok node => node.isDirectory
  | .error _ => false

def isFile (path : String) (t : FileTree) : Bool :=
  match t.find path with
  | .ok node => !node.isDirectory
  | .error _ => false

def readText (path : String) (t : FileTree) : Except Disk.Fault String := do
  match ← t.find path with
  | .text content => return content
  | .picture _ _ | .other => throw .notText
  | .directory _ _ => throw .isDirectory

def readPicture (path : String) (t : FileTree) : Except String Picture :=
  match t.find path, (Path.extension? path).bind PictureFormat.ofExtension? with
  | .error fault, _ => .error fault.message
  | .ok (.directory _ _), _ => .error Disk.Fault.isDirectory.message
  | .ok _, none => .error "The image format could not be determined"
  | .ok (.picture format content), some announced =>
    if format = announced then .ok content else .error "Format error decoding image"
  | .ok _, some _ => .error "Format error decoding image"

/-- The files below the working directory with their paths from there, sorted by path. -/
def files (t : FileTree) : List (String × Node) :=
  (NameMap.ofList ((t.origin "").node.files "")).toList

end FileTree

end ScreenScript
