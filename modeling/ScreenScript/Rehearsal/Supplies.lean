import ScreenScript.Disk.Change
import ScreenScript.Template.Store
import ScreenScript.Variables

namespace ScreenScript

/-- Variables kept in memory, which refuse to read or to write a chosen name. -/
structure MemoryBacking where
  entries : NameMap Value
  refusesRead : Option String := none
  refusesWrite : Option String := none

def MemoryBacking.backing : Backing MemoryBacking where
  read name := do
    let memory ← get
    if memory.refusesRead = some name then throw (.persistence "scripted read failure")
    return memory.entries.get? name
  write name value := do
    let memory ← get
    if memory.refusesWrite = some name then throw (.persistence "scripted write failure")
    set { memory with entries := memory.entries.insert name value }

/-- The templates and the lasting variables of a rehearsal. -/
structure Supplies where
  templates : TemplateStore := {}
  memory : MemoryBacking := { entries := ∅ }

namespace Supplies

def template (id : String) : Attempt Supplies Template :=
  Attempt.of fun s =>
    let (result, templates) := s.templates.load FileTree.disk {} id
    (result, { s with templates })

def backing : Backing Supplies :=
  MemoryBacking.backing.onPart memory fun memory s => { s with memory }

end Supplies

end ScreenScript
