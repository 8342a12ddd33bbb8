import ScreenScript.Disk.Path
import ScreenScript.Image.Png
import ScreenScript.NameMap

namespace ScreenScript

inductive PictureFormat where
  | png
  | jpeg
  deriving DecidableEq, Repr

def PictureFormat.ofExtension? (extension : String) : Option PictureFormat :=
  let lower := String.ofList (extension.toList.map Char.toLower)
  if lower = "png" ∨ lower = "apng" then some png
  else if lower = "jpg" ∨ lower = "jpeg" ∨ lower = "jfif" then some jpeg
  else none

/-- A directory, or a file with what it holds. -/
inductive FileTree.Node where
  | directory (permissions : Nat) (children : List (String × Node))
  | text (content : String)
  | picture (format : PictureFormat) (content : Picture)
  | other

namespace FileTree.Node

def ofBytes (bytes : ByteArray) : Node :=
  match Png.decode? bytes, String.fromUTF8? bytes with
  | some content, _ => .picture .png content
  | none, some content => .text content
  | none, none => .other

def usualPermissions : Nat := 0o755

def newDirectory : Node :=
  directory usualPermissions []

def isDirectory : Node → Bool
  | directory _ _ => true
  | _ => false

def child? (name : String) : Node → Option Node
  | directory _ children => children.lookup name
  | _ => none

def withPermissions (permissions : Nat) : Node → Node
  | directory _ children => directory permissions children
  | file => file

/-- The directory with something at a location in it, in directories that are made for it. -/
def put : Node → List String → Node → Node
  | _, [], new => new
  | directory permissions children, name :: rest, new =>
    let child := (children.lookup name).getD newDirectory
    directory permissions (NameMap.insertEntry name (put child rest new) children)
  | file, _ :: _, _ => file

def erase : Node → List String → Node
  | directory permissions children, [name] =>
    directory permissions (children.filter (·.1 ≠ name))
  | directory permissions children, name :: rest =>
    match children.lookup name with
    | some child => directory permissions (NameMap.insertEntry name (erase child rest) children)
    | none => directory permissions children
  | node, _ => node

mutual

def files (path : String) : Node → List (String × Node)
  | directory _ children => filesAmong path children
  | file => [(path, file)]

def filesAmong (path : String) : List (String × Node) → List (String × Node)
  | [] => []
  | (name, node) :: rest => files (Path.join path name) node ++ filesAmong path rest

end

end FileTree.Node

end ScreenScript
