import ScreenScript.Image.Raster

namespace ScreenScript

inductive Disk.Fault where
  | notFound
  | busy
  | exists
  | notDirectory
  | isDirectory
  | nameTooLong
  | nulInName
  | notText
  deriving DecidableEq, Repr

namespace Disk.Fault

def message : Disk.Fault → String
  | notFound => "No such file or directory (os error 2)"
  | busy => "Device or resource busy (os error 16)"
  | «exists» => "File exists (os error 17)"
  | notDirectory => "Not a directory (os error 20)"
  | isDirectory => "Is a directory (os error 21)"
  | nameTooLong => "File name too long (os error 36)"
  | nulInName => "file name contained an unexpected NUL byte"
  | notText => "stream did not contain valid UTF-8"

end Disk.Fault

/-- A file system whose state is `σ`. -/
structure Disk (σ : Type) where
  isFile : String → σ → Bool
  readText : String → σ → Except Disk.Fault String
  /-- The picture in a file, or why there is none. -/
  readPicture : String → σ → Except String Picture
  /-- Makes a directory and those above it, and closes it to other users. -/
  makePrivate : String → σ → Except Disk.Fault Unit × σ
  /-- Replaces the text of a file, which is made if it is missing. -/
  writeText : String → String → σ → Except Disk.Fault Unit × σ
  replace : String → String → σ → Except Disk.Fault Unit × σ

/-- What is read from a disk, one access after another, until there is a result. -/
inductive Disk.Reading (α : Type) where
  | done (result : α)
  | isFileThen (path : String) (next : Bool → Reading α)
  | readTextThen (path : String) (next : Except Disk.Fault String → Reading α)
  | readPictureThen (path : String) (next : Except String Picture → Reading α)

namespace Disk.Reading

variable {σ α β : Type}

def bind : Reading α → (α → Reading β) → Reading β
  | done result, f => f result
  | isFileThen path next, f => isFileThen path fun answer => bind (next answer) f
  | readTextThen path next, f => readTextThen path fun answer => bind (next answer) f
  | readPictureThen path next, f => readPictureThen path fun answer => bind (next answer) f

instance : Monad Reading where
  pure := done
  bind

def isFile (path : String) : Reading Bool :=
  isFileThen path done

def readText (path : String) : Reading (Except Disk.Fault String) :=
  readTextThen path done

def readPicture (path : String) : Reading (Except String Picture) :=
  readPictureThen path done

def firstFile? : List String → Reading (Option String)
  | [] => return none
  | path :: rest => do if ← isFile path then return some path else firstFile? rest

def run (d : Disk σ) (disk : σ) : Reading α → α
  | done result => result
  | isFileThen path next => run d disk (next (d.isFile path disk))
  | readTextThen path next => run d disk (next (d.readText path disk))
  | readPictureThen path next => run d disk (next (d.readPicture path disk))

end Disk.Reading

end ScreenScript
