import ScreenScript.CommandLine.Check
import ScreenScript.CommandLine.Example
import ScreenScript.CommandLine.Run
import ScreenScript.CommandLine.Variables

/-!
# The command line

A command is done on a disk. Which of its files and directories a command reads is known before.
-/

namespace ScreenScript.CommandLine

def Command.perform {σ : Type} (d : Disk σ) (c : Circumstances) (disk : σ) :
    Command → Reply × σ
  | .run request => CommandLine.run d c request disk
  | .check request => CommandLine.check d c request disk
  | .lasting request => CommandLine.lasting d c request disk
  | .examples => ({ output := Reply.unlines [exampleText] }, disk)

def Source.file? (source : Source) : Option String :=
  if source.inlineText then none else some source.script

def Command.files (e : Environment) : Command → List String
  | .run request => request.source.file?.toList ++ request.screen.toList ++ [e.variablesPath]
  | .check request => request.source.file?.toList
  | .lasting _ => [e.variablesPath]
  | .examples => []

def Command.templates? (e : Environment) : Command → Option String
  | .run request => some (e.templatesDirectory request.templates)
  | .check request => some (e.templatesDirectory request.templates)
  | _ => none

end ScreenScript.CommandLine
