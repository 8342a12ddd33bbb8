import ScreenScript.CommandLine.Reply
import ScreenScript.Rehearsal
import ScreenScript.Template.Store
import ScreenScript.Variables.File

namespace ScreenScript.CommandLine

/-! ## Ids -/

def hexByte (byte : UInt8) : List Char :=
  [Nat.digitChar (byte.toNat / 16), Nat.digitChar (byte.toNat % 16)]

def idGroups : List Nat := [4, 2, 2, 2, 6]

def grouped (bytes : List UInt8) : List Nat → List (List UInt8)
  | [] => []
  | count :: rest => bytes.take count :: grouped (bytes.drop count) rest

def runId (bytes : List UInt8) : String :=
  let marked := bytes.mapIdx fun i byte =>
    if i = 6 then byte % 16 + 64 else if i = 8 then byte % 64 + 128 else byte
  "-".intercalate ((grouped marked idGroups).map fun group => String.ofList (group.flatMap hexByte))

/-! ## Runs -/

structure Workspace (σ : Type) where
  templates : TemplateStore
  /-- The file of variables, which only a run that persists uses. -/
  file : VariableFile
  disk : σ

namespace Workspace

variable {σ : Type}

def template (d : Disk σ) (id : String) : Attempt (Workspace σ) Template :=
  Attempt.of fun w =>
    let (result, templates) := w.templates.load d w.disk id
    (result, { w with templates })

def backing (d : Disk σ) (now : Timestamp) : Backing (Workspace σ) :=
  (VariableFile.backing d now).onPart (fun w => (w.file, w.disk))
    fun (file, disk) w => { w with file, disk }

end Workspace

def statusWord : Status → String
  | .completed => "completed"
  | .aborted => "aborted"
  | _ => "failed"

def exitCode : Status → Nat
  | .completed => 0
  | .aborted => Reply.aborted
  | _ => Reply.failed

def reportLines (r : Report) : List String :=
  let id := r.runId.getD "-"
  s!"run {id} (dry run): {statusWord r.status} after {r.executed} instructions in {r.elapsedMs} ms" ::
    match r.failure with
    | none => []
    | some f =>
      [s!"  at instruction {f.index} (line {f.line}, {f.instruction}): {f.failure.message}",
        s!"  suggestion: {f.failure.suggestion}"]

def runReply (json : Bool) (r : Report) : Reply :=
  if json then .ofJson (exitCode r.status) (.object (("dry_run", .bool true) :: r.members))
  else { exitCode := exitCode r.status, output := Reply.unlines (reportLines r) }

def noScreen : String :=
  "no screen source: pass --screen <PNG> for a dry run, or rebuild with --features desktop"

variable {σ : Type}

def runAgainst (d : Disk σ) (c : Circumstances) (request : RunRequest) (program : Program)
    (file : VariableFile) (picture : Picture) (disk : σ) : Reply × σ :=
  let plan : Rehearsal.Plan := { frames := #[picture], logical := request.logical.toArray }
  let store : TemplateStore := { root := some (c.environment.templatesDirectory request.templates) }
  let backing := if request.persist then some (Workspace.backing d c.now) else none
  let world := Rehearsal.world plan (Workspace.template d) backing
  let bindings := request.presets.foldl
    (fun v (name, raw) => Variables.preset v name (Value.infer raw)) {}
  let start : Rehearsal (Workspace σ) :=
    { rest := { templates := store, file, disk } }
  let (report, machine) :=
    (Session.start start program bindings).execute world program (some c.runId)
  (runReply request.json report, machine.session.world.rest.disk)

def openVariables (d : Disk σ) (c : Circumstances) (persist : Bool) (disk : σ) :
    Except Failure VariableFile :=
  let path := c.environment.variablesPath
  if persist then VariableFile.load d disk path else .ok { path }

def run (d : Disk σ) (c : Circumstances) (request : RunRequest) (disk : σ) : Reply × σ :=
  request.source.withProgram d disk request.json fun program =>
    match openVariables d c request.persist disk, request.screen with
    | .error f, _ => (.fatally f.message, disk)
    | .ok _, none => (.fatally noScreen, disk)
    | .ok file, some path =>
      match d.readPicture path disk with
      | .error reason => (.fatally s!"Failed to load screen image {path}: {reason}", disk)
      | .ok picture => runAgainst d c request program file picture disk

end ScreenScript.CommandLine
