import ScreenScript.Run.Machine
import ScreenScript.Script.Block

namespace ScreenScript

structure FailureReport where
  index : Nat
  line : Nat
  instruction : String
  failure : Failure

structure Report where
  runId : Option String := none
  status : Status
  executed : Nat
  elapsedMs : Nat
  failure : Option FailureReport := none

namespace Session

variable {σ : Type}

def start (world : σ) (program : Program) (bindings : Variables := {}) : Session σ where
  search := { world }
  bindings := bindings.setDefaults program.defaults

def fresh (s : Session σ) : Session σ :=
  let search := { world := s.world, cache := s.search.cache.invalidate }
  changed { s with search, status := .ready } .running

def settle (ending : Ending) (s : Session σ) : Session σ × Option FailureReport :=
  match ending with
  | .completed => (s.changed .completed, none)
  | .stopped place? .aborted =>
    ((s.changed .aborted).noted (.runAborted (place?.map fun i => (i.index, i.line))), none)
  | .stopped none _ => (s.changed .failed, none)
  | .stopped (some i) failure =>
    ((s.changed .failed).noted (.runFailed i.index i.line failure),
      some ⟨i.index, i.line, i.keyword, failure⟩)

def inWorld (s : Session σ) (world : σ) : Session σ :=
  { s with search := { s.search with world } }

def execute (w : World σ) (program : Program) (s : Session σ) (runId : Option String := none) :
    Report × Machine σ :=
  let (started, world) := w.now s.world
  let (ending, last) := (Machine.start program (s.inWorld world).fresh).run w
  let (session, failure) := settle ending last.session
  let (ended, world) := w.now session.world
  ({ runId, status := session.status, executed := last.executed
     elapsedMs := Duration.milliseconds (ended - started), failure },
    { last with session := session.inWorld world })

end Session

end ScreenScript
