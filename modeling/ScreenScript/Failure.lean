import ScreenScript.Number.Layout

namespace ScreenScript

inductive Failure.Code where
  | templateNotFound
  | matchTimeout
  | parseError
  | scaleResolutionError
  | undefinedVariable
  | inputSimulationError
  | captureError
  | expressionError
  | persistenceError
  | aborted
  deriving DecidableEq, Repr

namespace Failure.Code

def all : List Failure.Code :=
  [templateNotFound, matchTimeout, parseError, scaleResolutionError, undefinedVariable,
    inputSimulationError, captureError, expressionError, persistenceError, aborted]

def name : Failure.Code → String
  | templateNotFound => "TEMPLATE_NOT_FOUND"
  | matchTimeout => "MATCH_TIMEOUT"
  | parseError => "PARSE_ERROR"
  | scaleResolutionError => "SCALE_RESOLUTION_ERROR"
  | undefinedVariable => "UNDEFINED_VARIABLE"
  | inputSimulationError => "INPUT_SIMULATION_ERROR"
  | captureError => "CAPTURE_ERROR"
  | expressionError => "EXPRESSION_ERROR"
  | persistenceError => "PERSISTENCE_ERROR"
  | aborted => "ABORTED"

def ofName? (s : String) : Option Failure.Code :=
  all.find? fun code => code.name = s

end Failure.Code

/-- Why a script could not be read or a run did not complete. -/
inductive Failure where
  | templateNotFound (id reason : String)
  | matchTimeout (template : String) (lastScore threshold : Float) (attempts : UInt32)
      (timeoutMs : Nat)
  | parse (line : Nat) (message : String)
  | scaleResolution (message : String)
  | undefinedVariable (name : String)
  | inputSimulation (message : String)
  | capture (message : String)
  | expression (message : String)
  | persistence (message : String)
  | aborted

namespace Failure

def absentScore : Float := 0.5

def code : Failure → Code
  | templateNotFound .. => .templateNotFound
  | matchTimeout .. => .matchTimeout
  | parse .. => .parseError
  | scaleResolution .. => .scaleResolutionError
  | undefinedVariable .. => .undefinedVariable
  | inputSimulation .. => .inputSimulationError
  | capture .. => .captureError
  | expression .. => .expressionError
  | persistence .. => .persistenceError
  | aborted => .aborted

def message : Failure → String
  | templateNotFound id reason => s!"Template '{id}' not found: {reason}"
  | matchTimeout template lastScore threshold attempts timeoutMs =>
    s!"Template '{template}' not matched within {timeoutMs}ms " ++
      s!"(best score {Number.fixed 3 lastScore}, threshold {Number.fixed 2 threshold}, " ++
      s!"{attempts.toNat} attempts)"
  | parse line message => s!"Parse error on line {line}: {message}"
  | scaleResolution message => s!"Cannot resolve display scale: {message}"
  | undefinedVariable name => s!"Variable '{name}' is not defined"
  | inputSimulation message => s!"Input simulation failed: {message}"
  | capture message => s!"Screen capture failed: {message}"
  | expression message => s!"Invalid expression: {message}"
  | persistence message => s!"Variable persistence failed: {message}"
  | aborted => "Run aborted"

def suggestion : Failure → String
  | templateNotFound id _ =>
    s!"Add '{id}.png' (or .jpg/.jpeg) to the templates directory, or pass --templates"
  | matchTimeout _ lastScore threshold _ _ =>
    if lastScore < absentScore then
      s!"The target does not appear to be on screen (best score {Number.fixed 2 lastScore} vs " ++
        s!"threshold {Number.fixed 2 threshold}). Check that the window is visible, or raise " ++
        "timeout="
    else
      s!"Something similar is on screen but scored below {Number.fixed 2 threshold}. Recapture " ++
        "the template at the current scale or lower its threshold in the sidecar .json"
  | parse .. => "Fix the script line shown; run 'sightline check <script>' to validate"
  | scaleResolution _ =>
    "Check that the capture backend returns a non-empty image and pass --logical WxH " ++
      "if the logical size is not reported"
  | undefinedVariable name =>
    s!"Assign '{name}' earlier in the script, declare 'var {name} = ...', or pass " ++
      s!"--var {name}=VALUE"
  | inputSimulation _ => "Grant the process accessibility/input permissions and retry"
  | capture _ => "Grant screen recording permission or pass --screen <png> for a dry run"
  | expression _ => "Arithmetic needs numeric operands; quote text and use + to concatenate"
  | persistence _ =>
    "Check that the sightline data directory is writable (override with SIGHTLINE_HOME)"
  | aborted => "The run was cancelled; rerun the script to start over"

def lastScore? : Failure → Option Float
  | matchTimeout _ lastScore .. => some lastScore
  | _ => none

def line? : Failure → Option Nat
  | parse line _ => some line
  | _ => none

/-- Whether a `try` block skips the failing instruction: the target was missing or never seen. -/
def isRecoverable (failure : Failure) : Bool :=
  match failure.code with
  | .matchTimeout | .templateNotFound => true
  | _ => false

end Failure

end ScreenScript
