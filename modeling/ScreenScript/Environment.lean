import ScreenScript.Disk.Path
import ScreenScript.NameMap

namespace ScreenScript

structure Environment where
  entries : NameMap String := ∅
  accountHome : Option String := none
  temporary : String := "/tmp"

namespace Environment

def get? (e : Environment) (name : String) : Option String :=
  (e.entries.get? name).filter (!·.isEmpty)

def home? (e : Environment) : Option String :=
  e.get? "HOME" <|> e.accountHome

def dataDirectory (e : Environment) : String :=
  match e.get? "SIGHTLINE_HOME", e.get? "XDG_DATA_HOME", e.home? with
  | some directory, _, _ => directory
  | none, some data, _ => Path.join data "sightline"
  | none, none, some home => Path.join home ".sightline"
  | none, none, none => Path.join e.temporary "sightline"

def variablesPath (e : Environment) : String :=
  Path.join e.dataDirectory "vars.json"

def templatesDirectory (e : Environment) (given : Option String) : String :=
  (given <|> e.get? "SIGHTLINE_TEMPLATES").getD "templates"

end Environment

end ScreenScript
