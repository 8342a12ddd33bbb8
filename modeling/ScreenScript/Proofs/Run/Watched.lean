import ScreenScript.Proofs.Run.Projection

namespace ScreenScript

variable {σ α : Type}

inductive Call where
  | capture
  | logicalSize
  | input (event : InputEvent)
  | sleep (nanoseconds : Nat)
  | template (id : String)
  | read (name : String)
  | write (name : String) (value : Value)
  | now

structure Moment where
  call : Call
  /-- Whether an abort was asked for when the call was made. -/
  late : Bool

structure Watched (σ : Type) where
  world : σ
  moments : List Moment := []

namespace Watched

def after (w : Surroundings σ) (call : Call) (world : σ) (t : Watched σ) : Watched σ :=
  { world, moments := ⟨call, w.aborted t.world⟩ :: t.moments }

def attempt (w : Surroundings σ) (call : Call) (a : Attempt σ α) : Attempt (Watched σ) α :=
  a.onPart Watched.world (after w call)

def answer (w : Surroundings σ) (call : Call) (a : StateM σ α) : StateM (Watched σ) α := fun t =>
  let (x, world) := a t.world
  (x, t.after w call world)

def backing (w : Surroundings σ) (b : Backing σ) : Backing (Watched σ) where
  read name := attempt w (.read name) (b.read name)
  write name value := attempt w (.write name value) (b.write name value)

end Watched

def Surroundings.watched (w : Surroundings σ) : Surroundings (Watched σ) where
  capture := Watched.attempt w .capture w.capture
  logicalSize := Watched.attempt w .logicalSize w.logicalSize
  input event := Watched.attempt w (.input event) (w.input event)
  sleep nanoseconds := Watched.answer w (.sleep nanoseconds) (w.sleep nanoseconds)
  template id := Watched.attempt w (.template id) (w.template id)
  backing := w.backing.map (Watched.backing w)
  now := Watched.answer w .now w.now
  aborted t := w.aborted t.world

theorem Surroundings.watched_projects (w : Surroundings σ) : w.watched.Projects Watched.world w where
  aborted _ := rfl
  capture _ := rfl
  logicalSize _ := rfl
  input _ _ := rfl
  sleep _ _ := rfl
  template _ _ := rfl
  backing := by
    change Option.Rel _ (w.backing.map (Watched.backing w)) w.backing
    cases w.backing with
    | none => exact .none
    | some b => exact .some ⟨fun _ _ => rfl, fun _ _ _ => rfl⟩
  now _ := rfl

def World.watched (w : World σ) : World (Watched σ) where
  toSurroundings := w.toSurroundings.watched
  searches_end template policy started := Search.wellFounded_again_of_projects
    w.toSurroundings.watched_projects (w.searches_end template policy started)

/-! ## Runs -/

def Search.unwatched (t : Search (Watched σ)) : Search σ where
  world := t.world.world
  cache := t.cache
  journal := t.journal

def Session.unwatched (t : Session (Watched σ)) : Session σ where
  search := t.search.unwatched
  bindings := t.bindings
  status := t.status

def Machine.unwatched (m : Machine (Watched σ)) : Machine σ where
  session := m.session.unwatched
  frames := m.frames
  executed := m.executed

namespace Session

def watched (s : Session σ) : Session (Watched σ) where
  search := { world := { world := s.world }, cache := s.search.cache, journal := s.journal }
  bindings := s.bindings
  status := s.status

theorem execute_watched (w : World σ) (program : Program) (s : Session σ)
    (runId : Option String) :
    s.execute w program runId = ((s.watched.execute w.watched program runId).1,
      (s.watched.execute w.watched program runId).2.unwatched) :=
  execute_project (f := Watched.world) (w := w) w.watched_projects program s.watched runId

end Session

end ScreenScript
