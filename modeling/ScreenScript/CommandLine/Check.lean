import ScreenScript.CommandLine.Reply
import ScreenScript.Template.Store

namespace ScreenScript.CommandLine

/-- A template that could not be loaded, with the line that names it. -/
structure MissingTemplate where
  id : String
  line : Nat
  message : String

namespace MissingTemplate

def toJson (m : MissingTemplate) : Json :=
  .object [("id", .string m.id), ("line", .integer m.line), ("message", .string m.message)]

end MissingTemplate

variable {σ : Type}

def literalTemplate? (i : Instruction) : Option String :=
  i.target?.bind fun target => target.template.literal?

/-- The templates that instructions name and that cannot be loaded, in the order of the script. -/
def missingTemplates (d : Disk σ) (disk : σ) : List Instruction → TemplateStore → List MissingTemplate
  | [], _ => []
  | i :: rest, store =>
    match literalTemplate? i with
    | none => missingTemplates d disk rest store
    | some id =>
      match store.load d disk id with
      | (.ok _, store) => missingTemplates d disk rest store
      | (.error f, store) => ⟨id, i.line, f.message⟩ :: missingTemplates d disk rest store

def checkReply (json : Bool) (program : Program) (missing : List MissingTemplate) : Reply :=
  let status := if missing.isEmpty then "ok" else "invalid"
  let exitCode := if missing.isEmpty then 0 else Reply.invalidScript
  let defaults := program.defaults.toList.length
  if json then
    .ofJson exitCode (.object ([("status", Json.string status)] ++
      (program.title.map fun title => ("title", Json.string title)).toList ++
      [("instructions", .integer program.size), ("defaults", .integer defaults),
        ("missing_templates", .array (missing.map MissingTemplate.toJson))]))
  else
    { exitCode
      output := Reply.unlines (program.title.toList ++
        [s!"{status}: {program.size} instructions, {defaults} defaults"])
      errors := Reply.unlines (missing.map fun m => s!"Error: line {m.line}: {m.message}") }

def check (d : Disk σ) (c : Circumstances) (request : CheckRequest) (disk : σ) : Reply × σ :=
  request.source.withProgram d disk request.json fun program =>
    let store : TemplateStore := { root := some (c.environment.templatesDirectory request.templates) }
    let instructions := program.walk.map (·.2)
    (checkReply request.json program (missingTemplates d disk instructions store), disk)

end ScreenScript.CommandLine
