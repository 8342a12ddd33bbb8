import ScreenScript.Expr.Evaluation
import ScreenScript.Screen.Scale
import ScreenScript.Script.Instruction
import ScreenScript.Search.Basic

/-!
# Performing instructions

What the instructions of a script do in a session: the world with its journal, the variables and the
status. The status is `matching` during a search and `acting` while input is sent, and `running`
before and after both, whether they succeed or fail.
-/

namespace ScreenScript

structure Session (σ : Type) where
  search : Search σ
  bindings : Variables := {}
  status : Status := .ready

namespace Session

variable {σ α : Type}

def world (s : Session σ) : σ :=
  s.search.world

/-- The events so far, the last one first. -/
def journal (s : Session σ) : List Journal.Entry :=
  s.search.journal

def onSearch (a : Attempt (Search σ) α) : Attempt (Session σ) α :=
  a.onPart Session.search fun search s => { s with search }

def onWorld (a : Attempt σ α) : Attempt (Session σ) α :=
  onSearch (Search.onWorld a)

def noted (s : Session σ) (entry : Journal.Entry) : Session σ :=
  { s with search := { s.search with journal := entry :: s.search.journal } }

def changed (s : Session σ) (status : Status) : Session σ :=
  if s.status = status then s
  else { s.noted (.status s.status status) with status }

def note (entry : Journal.Entry) : Attempt (Session σ) Unit :=
  modify (noted · entry)

def during (status : Status) (a : Attempt (Session σ) α) : Attempt (Session σ) α :=
  Attempt.of fun s =>
    let (result, after) := a.on (s.changed status)
    (result, after.changed .running)

def lookup (w : World σ) (name : String) : Attempt (Session σ) Value := do
  onWorld ((← get).bindings.get w.backing name)

def render (w : World σ) (p : Phrase) : Attempt (Session σ) String :=
  p.render fun name => do return (← lookup w name).display

def assign (w : World σ) (name : String) (value : Value) : Attempt (Session σ) Unit := do
  let bindings ← onWorld ((← get).bindings.set w.backing name value)
  modify fun s => { s with bindings }

def act (w : World σ) (event : InputEvent) : Attempt (Session σ) Unit :=
  during .acting do
    note (.input event)
    onWorld (w.input event)

def locate (w : World σ) (target : Target) : Attempt (Session σ) (String × Search.Outcome) := do
  let id ← render w target.template
  let template ← onWorld (w.template id)
  let outcome ← during .matching (onSearch (Search.run w template target.policy))
  return (id, outcome)

/-- Looks for a target and does something there; only an optional target may be missing. -/
def visit (w : World σ) (place : Place) (target : Target) (bestEffort : Bool)
    (event : Point → InputEvent) : Attempt (Session σ) Unit := do
  let (id, outcome) ← locate w target
  let result := outcome.result
  match result.location with
  | some raw =>
    let position := raw.onScreen outcome.scale (← onWorld w.logicalSize)
    note (.located id result.score raw position outcome.attempts)
    act w (event position)
  | none =>
    if bestEffort then note (.notFound place.index place.line id result.score)
    else throw (.matchTimeout id result.score result.threshold outcome.attempts
      (Duration.milliseconds target.policy.timeout))

def maxScroll : Nat := 2147483647

def renderOrShow (w : World σ) (p : Phrase) : Attempt (Session σ) String :=
  tryCatch (render w p) fun _ => pure p.written

def perform (w : World σ) (place : Place) : Action → Attempt (Session σ) Unit
  | .click target bestEffort => visit w place target bestEffort .click
  | .hover target bestEffort => visit w place target bestEffort .move
  | .clickAt x y => do
    let x ← x.evaluateNumber (lookup w)
    let y ← y.evaluateNumber (lookup w)
    let bounds ← onWorld w.logicalSize
    act w (.click (Point.clamp ⟨x, y⟩ bounds))
  | .scroll direction amount => do
    let steps ← amount.evaluateCount (lookup w)
    let (dx, dy) := direction.delta (min steps.toNat maxScroll : Nat)
    act w (.scroll dx dy)
  | .wait nanoseconds => do
    if !(← onSearch (Search.onClock (w.sleep nanoseconds))) then throw .aborted
  | .type p => do act w (.type (← render w p))
  | .press p => do act w (.press (← render w p))
  | .log p => do note (.logged place.line (← render w p))
  | .launch p => do
    let target ← render w p
    note (.launching place.line target)
    act w (.launch target)
  | .assign name e => do
    let value ← e.evaluate (lookup w)
    note (.assigning name value)
    assign w name value
  | .abort reason => do
    if let some p := reason then note (.abortReason place.line (← renderOrShow w p))
    throw .aborted

end Session

end ScreenScript
