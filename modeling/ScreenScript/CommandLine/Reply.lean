import ScreenScript.CommandLine.Command
import ScreenScript.Disk.Basic
import ScreenScript.Environment
import ScreenScript.Json.Printer
import ScreenScript.Json.Records
import ScreenScript.Run.Report
import ScreenScript.Time.Timestamp

namespace ScreenScript

namespace FailureReport

def toJson (f : FailureReport) : Json :=
  .object ([("index", Json.integer f.index), ("line", .integer f.line),
    ("instruction", .string f.instruction), ("code", f.failure.code.toJson),
    ("message", .string f.failure.message), ("suggestion", .string f.failure.suggestion)] ++
    (f.failure.lastScore?.map fun score => ("last_score", Json.real score)).toList)

end FailureReport

namespace Report

def members (r : Report) : List (String × Json) :=
  (r.runId.map fun id => ("run_id", Json.string id)).toList ++
    [("status", .string r.status.name), ("executed", .integer r.executed),
      ("elapsed_ms", .integer r.elapsedMs)] ++
    (r.failure.map fun f => ("failure", f.toJson)).toList

end Report

namespace CommandLine

structure Reply where
  exitCode : Nat := 0
  output : String := ""
  errors : String := ""
  fatal : Option String := none

namespace Reply

def invalidScript : Nat := 1

def failed : Nat := 2

def aborted : Nat := 3

def fatally (error : String) : Reply :=
  { exitCode := failed, fatal := some error }

def unlines (lines : List String) : String :=
  String.join (lines.map (· ++ "\n"))

def ofJson (exitCode : Nat) (j : Json) : Reply :=
  { exitCode, output := unlines [Json.pretty "" j] }

def ofInvalidScript (json : Bool) (f : Failure) : Reply :=
  if json then
    ofJson invalidScript (.object ([("status", Json.string "parse_error"), ("code", f.code.toJson),
      ("message", .string f.message), ("suggestion", .string f.suggestion)] ++
      (f.line?.map fun line => ("line", Json.integer line)).toList))
  else
    { exitCode := invalidScript
      errors := unlines [s!"Error: {f.message}", s!"  suggestion: {f.suggestion}"] }

end Reply

structure Circumstances where
  environment : Environment
  now : Timestamp
  runId : String

variable {σ : Type}

def Source.text (d : Disk σ) (disk : σ) (source : Source) : Except String String :=
  if source.inlineText then .ok source.script
  else (d.readText source.script disk).mapError fun fault =>
    s!"Failed to read script {source.script}: {fault.message}"

def Source.withProgram (d : Disk σ) (disk : σ) (source : Source) (json : Bool)
    (use : Program → Reply × σ) : Reply × σ :=
  match source.text d disk with
  | .error error => (.fatally error, disk)
  | .ok text =>
    match Program.parse text with
    | .error f => (.ofInvalidScript json f, disk)
    | .ok program => use program

end CommandLine

end ScreenScript
