import ScreenScript.Disk.Tree

namespace ScreenScript.FileTree

def put (t : FileTree) (location : List String) (node : Node) : FileTree :=
  { t with root := t.root.put location node }

/-! ## Directories -/

def make (path : String) (t : FileTree) : Except Disk.Fault FileTree := do
  let e ← t.entrance path
  if !e.isNamed then throw .exists
  match ← e.node? with
  | some _ => throw .exists
  | none => return t.put e.location .newDirectory

/--
Makes the first of some directories, of which each one lies in the next. Those in which it lies are
made first if it cannot be made for want of them.
-/
def makeAll : List String → FileTree → Except Disk.Fault Unit × FileTree
  | [], t => (.ok (), t)
  | path :: above, t =>
    let again (fault : Disk.Fault) (t : FileTree) : Except Disk.Fault Unit × FileTree :=
      (if t.isDirectory path then .ok () else .error fault, t)
    if path.isEmpty then (.ok (), t)
    else match t.make path with
      | .ok t => (.ok (), t)
      | .error .notFound =>
        match makeAll above t with
        | (.error fault, t) => (.error fault, t)
        | (.ok (), t) =>
          match t.make path with
          | .ok t => (.ok (), t)
          | .error fault => again fault t
      | .error fault => again fault t

def makeDirectory (path : String) (t : FileTree) : Except Disk.Fault Unit × FileTree :=
  makeAll (path :: Path.ancestors path) t

def privatePermissions : Nat := 0o700

def makePrivate (path : String) (t : FileTree) : Except Disk.Fault Unit × FileTree :=
  match t.makeDirectory path with
  | (.error fault, t) => (.error fault, t)
  | (.ok (), t) =>
    match t.spot path with
    | .error fault => (.error fault, t)
    | .ok s => (.ok (), t.put s.location (s.node.withPermissions privatePermissions))

/-! ## Files -/

def written (path : String) (file : Node) (t : FileTree) : Except Disk.Fault FileTree := do
  let e ← t.entrance path
  if e.closed || !e.isNamed then throw .isDirectory
  match ← e.node? with
  | some (.directory _ _) => throw .isDirectory
  | _ => return t.put e.location file

def removed (path : String) (t : FileTree) : Except Disk.Fault FileTree := do
  let s ← t.spot path
  if s.node.isDirectory then throw .isDirectory
  return { t with root := t.root.erase s.location }

def replaced (source target : String) (t : FileTree) : Except Disk.Fault FileTree := do
  let departure ← t.entrance source
  let arrival ← t.entrance target
  unless departure.isNamed && arrival.isNamed do throw .busy
  let some file ← departure.node? | throw .notFound
  let old ← arrival.node?
  if file.isDirectory then throw .isDirectory
  if departure.closed || arrival.closed then throw .notDirectory
  if old.any Node.isDirectory then throw .isDirectory
  let t := { t with root := t.root.erase departure.location }
  return t.put arrival.location file

def atOnce (change : FileTree → Except Disk.Fault FileTree) (t : FileTree) :
    Except Disk.Fault Unit × FileTree :=
  match change t with
  | .ok changed => (.ok (), changed)
  | .error fault => (.error fault, t)

def remove (path : String) : FileTree → Except Disk.Fault Unit × FileTree :=
  atOnce (removed path)

/-- The tree with a file or an empty directory at a path, in directories that are made for it. -/
def place (path : String) (node : Node) (t : FileTree) : FileTree :=
  if node.isDirectory then (t.makeDirectory path).2
  else
    let t := (Path.parent? path).elim t fun directory => (t.makeDirectory directory).2
    (t.written path node).toOption.getD t

def disk : Disk FileTree where
  isFile
  readText
  readPicture
  makePrivate
  writeText path content := atOnce (written path (.text content))
  replace source target := atOnce (replaced source target)

end ScreenScript.FileTree
