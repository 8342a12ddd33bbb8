import ScreenScript.Text.Lines

/-!
# Paths

A path is a text with its parts separated by `/`. Empty parts and `.` stand for the directory that
they are in, and `..` for the one above it. These functions look at the text alone. Most of them go
from the last part to the first, since what a path is called stands at its end.
-/

namespace ScreenScript.Path

def split (cs : List Char) : List (List Char) :=
  Text.split '/' cs

def parts (path : String) : List String :=
  (split path.toList).map String.ofList

def isAbsolute (path : String) : Bool :=
  path.startsWith "/"

def join (directory path : String) : String :=
  if isAbsolute path || directory.isEmpty then path
  else if directory.endsWith "/" then directory ++ path
  else directory ++ "/" ++ path

def isIdle (part : List Char) : Bool :=
  part.isEmpty || part = ['.']

def ofLast (parts : List (List Char)) : List Char :=
  ['/'].intercalate parts.reverse

/-- The parts of a path from the last to the first, without the idle ones at its end. -/
def fromLast (cs : List Char) : List (List Char) :=
  (split cs).reverse.dropWhile isIdle

/-! ## Directories above -/

/--
The text of parts that are given from the last to the first, without the idle ones at its end. The
first part of a path is never left out: it is the root if it is empty.
-/
def trimmed : List (List Char) → List Char
  | [] => []
  | [part] => if part.isEmpty then ['/'] else part
  | part :: before => if isIdle part then trimmed before else ofLast (part :: before)

/-- The directories above what some parts lead to, which are given from the last to the first. -/
def above : List (List Char) → List String
  | [] => []
  | [part] => if part.isEmpty then [] else [""]
  | part :: before =>
    if isIdle part then above before else String.ofList (trimmed before) :: above before

/--
The paths of the directories that a path lies in, from the nearest to the root, or to the empty path
if it does not start from the root.
-/
def ancestors (path : String) : List String :=
  above (split path.toList).reverse

/-- The path of the directory that a path lies in: empty for a single part, `none` for the root. -/
def parent? (path : String) : Option String :=
  (ancestors path).head?

/-! ## Names -/

/-- The name of the file or directory that a path leads to, if the path ends with a name. -/
def fileName? (path : String) : Option (List Char) :=
  match fromLast path.toList with
  | part :: _ => if part = ['.', '.'] then none else some part
  | [] => none

/--
A file name in two parts at its last point. A name that only starts with a point has no extension.
-/
def splitExtension (name : List Char) : List Char × Option (List Char) :=
  let back := name.reverse
  let extension := (back.takeWhile (· ≠ '.')).reverse
  match back.dropWhile (· ≠ '.') with
  | [] | [_] => (name, none)
  | _ :: stem => (stem.reverse, some extension)

def extension? (path : String) : Option String := do
  (splitExtension (← fileName? path)).2.map String.ofList

/-- The text up to the stem of its file name, with an extension; without a file name it stays. -/
def setExtension (cs extension : List Char) : List Char :=
  match fromLast cs with
  | part :: before =>
    if part = ['.', '.'] then cs
    else ofLast (((splitExtension part).1 ++ '.' :: extension) :: before)
  | [] => cs

/--
The path with another extension: as many characters as the old extension has are cut off from the
end, and what is left gets the new one. For a name such as `..a` that leaves `..`, which is no file
name.
-/
def withExtension (path extension : String) : String :=
  let cs := path.toList
  let old := (extension? path).elim 0 String.length
  String.ofList (setExtension (cs.take (cs.length - old)) extension.toList)

end ScreenScript.Path
