import ScreenScript.CommandLine
import ScreenScript.CommandLine.Run
import ScreenScript.CommandLine.Usage
import ScreenScript.Disk.Change

/-!
# The program

Takes the files that a command reads into a tree, does the command on the tree, and writes the file of
variables if it has changed.
-/

open ScreenScript
open ScreenScript.CommandLine (Circumstances Reply)

namespace ScreenScript.Main

def environment : IO Environment := do
  let mut entries : NameMap String := ∅
  for name in ["SIGHTLINE_HOME", "XDG_DATA_HOME", "SIGHTLINE_TEMPLATES", "HOME"] do
    if let some value ← IO.getEnv name then
      entries := entries.insert name value
  return { entries }

def now : IO Timestamp := do
  let (_, path) ← IO.FS.createTempFile
  let time := (← path.metadata).modified
  IO.FS.removeFile path
  return .ofSeconds time.sec time.nsec.toNat

def gather (path : String) : Nat → FileTree → IO FileTree
  | 0, tree => return tree
  | levels + 1, tree => do
    match ← (IO.FS.realPath path).toBaseIO with
    | .error _ => return tree
    | .ok found =>
      if ← found.isDir then
        let mut tree := tree.place path .newDirectory
        if 0 < levels then
          for entry in ← found.readDir do
            tree ← gather (Path.join path entry.fileName) levels tree
        return tree
      else
        match ← (IO.FS.readBinFile path).toBaseIO with
        | .ok bytes => return tree.place path (.ofBytes bytes)
        | .error _ => return tree.place path .other

def templateLevels : Nat := 16

def files (e : Environment) (command : CommandLine.Command) : IO FileTree := do
  let mut tree := FileTree.startingIn (← IO.currentDir).toString
  for path in command.files e do
    tree ← gather path 1 tree
  if let some path := command.templates? e then
    tree ← gather path templateLevels tree
  return tree

def save (path text : String) : IO Unit := do
  if let some directory := (Path.parent? path).filter (!·.isEmpty) then
    IO.FS.createDirAll directory
    IO.setAccessRights directory { user := { read := true, write := true, execution := true } }
  IO.FS.writeFile (VariableFile.draftPath path) text
  IO.FS.rename (VariableFile.draftPath path) path

def saveChange (path : String) (before after : FileTree) : IO Unit := do
  if let .ok text := after.readText path then
    unless (before.readText path).toOption = some text do
      save path text

def print (reply : Reply) : IO UInt32 := do
  IO.print reply.output
  IO.eprint reply.errors
  if let some error := reply.fatal then
    IO.eprintln s!"Error: {error}"
  return reply.exitCode.toUInt32

def perform (command : CommandLine.Command) : IO UInt32 := do
  let e ← environment
  let c : Circumstances := {
    environment := e
    now := ← now
    runId := CommandLine.runId (← IO.getRandomBytes 16).toList }
  let before ← files e command
  let (reply, after) := command.perform FileTree.disk c before
  saveChange e.variablesPath before after
  print reply

end ScreenScript.Main

def main (words : List String) : IO UInt32 := do
  match CommandLine.Command.read words with
  | .ok command => ScreenScript.Main.perform command
  | .error fault =>
    if fault.exitCode = 0 then IO.println fault.message else IO.eprintln fault.message
    return fault.exitCode.toUInt32
