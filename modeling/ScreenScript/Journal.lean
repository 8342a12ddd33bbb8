import ScreenScript.Input
import ScreenScript.Match.Find
import ScreenScript.Value

namespace ScreenScript

inductive Status where
  | ready
  | running
  | matching
  | acting
  | completed
  | failed
  | aborted
  deriving DecidableEq, Repr

namespace Status

def label : Status → String
  | ready => "Ready"
  | running => "Running"
  | matching => "Matching"
  | acting => "Acting"
  | completed => "Completed"
  | failed => "Failed"
  | aborted => "Aborted"

def name : Status → String
  | ready => "ready"
  | running => "running"
  | matching => "matching"
  | acting => "acting"
  | completed => "completed"
  | failed => "failed"
  | aborted => "aborted"

def isTerminal : Status → Bool
  | completed | failed | aborted => true
  | _ => false

end Status

/-- The weight of a log line, from the least to the most. -/
inductive Journal.Level where
  | trace
  | debug
  | info
  | warn
  deriving DecidableEq, Repr

namespace Journal

namespace Level

def name : Level → String
  | trace => "TRACE"
  | debug => "DEBUG"
  | info => "INFO"
  | warn => "WARN"

def weight : Level → Nat
  | trace => 0
  | debug => 1
  | info => 2
  | warn => 3

end Level

inductive Field where
  | text (s : String)
  | count (n : Nat)
  | flag (b : Bool)
  | number (x : Float)
  | score (x : Float)

inductive Entry where
  | status (old new : Status)
  | dispatch (index line : Nat) (keyword : String)
  | skipped (index line : Nat) (failure : Failure)
  | runAborted (place? : Option (Nat × Nat))
  | runFailed (index line : Nat) (failure : Failure)
  | logged (line : Nat) (text : String)
  | launching (line : Nat) (target : String)
  | abortReason (line : Nat) (reason : String)
  | assigning (name : String) (value : Value)
  | branch (template : String) (found : Bool) (score : Float)
  | located (template : String) (score : Float) (raw position : Point) (attempts : UInt32)
  | notFound (index line : Nat) (template : String) (score : Float)
  | scaled (notice : Scale.Notice)
  | capturing
  | polled (template : String) (attempt : UInt32) (finding : Finding)
  | input (event : InputEvent)

structure LogLine where
  level : Level
  message : String
  fields : List (String × Field)

def sizeText (s : Size) : String :=
  s!"Size \x7b width: {s.width}, height: {s.height} \x7d"

/-- The lines of looking for a template once: reduced searches, and the outcome if it had a window. -/
def findingLines (template : String) (f : Finding) : List LogLine :=
  let coarse := f.attempts.filterMap fun a => a.best.coarse?.map fun c =>
    LogLine.mk .trace "coarse search"
      [("level", .count c.level), ("seeds", .count c.seeds), ("factor", .number a.factor)]
  let outcome := if f.attempts.isEmpty then [] else
    [LogLine.mk .trace "match attempt"
      [("template", .text template), ("score", .score f.result.score),
        ("found", .flag f.result.found), ("factor", .number f.result.templateScale)]]
  coarse ++ outcome

def placeFields (index line : Nat) : List (String × Field) :=
  [("index", .count index), ("line", .count line)]

def Entry.lines : Entry → List LogLine
  | status old new => [⟨.debug, "status", [("from", .text old.label), ("to", .text new.label)]⟩]
  | dispatch index line keyword =>
    [⟨.debug, "dispatch", placeFields index line ++ [("instruction", .text keyword)]⟩]
  | skipped index line failure =>
    [⟨.warn, failure.message ++ "; continuing inside try block",
      placeFields index line ++ [("code", .text failure.code.name)]⟩]
  | runAborted none => [⟨.info, "run aborted", []⟩]
  | runAborted (some (index, line)) => [⟨.info, "run aborted", placeFields index line⟩]
  | runFailed index line failure =>
    [⟨.warn, failure.message, placeFields index line ++ [("code", .text failure.code.name)]⟩]
  | logged line text => [⟨.info, text, [("line", .count line)]⟩]
  | launching line target => [⟨.info, "open", [("line", .count line), ("target", .text target)]⟩]
  | abortReason line reason => [⟨.info, "abort: " ++ reason, [("line", .count line)]⟩]
  | assigning name value =>
    [⟨.debug, "set variable", [("name", .text name), ("value", .text value.display)]⟩]
  | branch template found score =>
    [⟨.debug, "if found",
      [("template", .text template), ("found", .flag found), ("score", .score score)]⟩]
  | located template score raw position attempts =>
    [⟨.debug, "target located",
      [("template", .text template), ("score", .score score), ("raw_x", .number raw.x),
        ("raw_y", .number raw.y), ("x", .number position.x), ("y", .number position.y),
        ("attempts", .count attempts.toNat)]⟩]
  | notFound index line template score =>
    [⟨.warn, "best-effort target not found, continuing",
      placeFields index line ++ [("template", .text template), ("score", .score score)]⟩]
  | scaled (.resolved scale capture) =>
    [⟨.debug, "display scale resolved",
      [("scale", .text scale.display), ("capture", .text (sizeText capture))]⟩]
  | scaled (.changed old new capture) =>
    [⟨.info, "display scale changed, re-resolved",
      [("from", .text old.display), ("to", .text new.display),
        ("capture", .text (sizeText capture))]⟩]
  | polled template attempt finding =>
    findingLines template finding ++
      [⟨.debug, "retry attempt",
        [("template", .text template), ("attempt", .count attempt.toNat),
          ("score", .score finding.result.score), ("found", .flag finding.result.found)]⟩]
  | capturing | input _ => []

def log (level : Level) (entries : List Entry) : List LogLine :=
  (entries.flatMap Entry.lines).filter fun l => level.weight ≤ l.level.weight

end Journal

end ScreenScript
