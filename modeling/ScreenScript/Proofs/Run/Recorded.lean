import ScreenScript.Proofs.Run.Watched

namespace ScreenScript

variable {σ α : Type}

/-- A state of a world with the calls so far, each with the state that it was made in, the last one first. -/
structure Recorded (σ : Type) where
  world : σ
  calls : List (Call × σ) := []

def Call.capturedIn? : Call × σ → Option σ
  | (capture, state) => some state
  | _ => none

def Call.event? : Call → Option InputEvent
  | input event => some event
  | _ => none

namespace Recorded

def captures (calls : List (Call × σ)) : List σ :=
  calls.filterMap Call.capturedIn?

def inputs (calls : List (Call × σ)) : List InputEvent :=
  calls.filterMap fun (call, _) => call.event?

theorem captures_append (own base : List (Call × σ)) :
    captures (own ++ base) = captures own ++ captures base :=
  List.filterMap_append

theorem inputs_append (own base : List (Call × σ)) : inputs (own ++ base) = inputs own ++ inputs base :=
  List.filterMap_append

def after (call : Call) (world : σ) (t : Recorded σ) : Recorded σ :=
  { world, calls := (call, t.world) :: t.calls }

def attempt (call : Call) (a : Attempt σ α) : Attempt (Recorded σ) α :=
  a.onPart Recorded.world (after call)

def answer (call : Call) (a : StateM σ α) : StateM (Recorded σ) α := fun t =>
  let (x, world) := a t.world
  (x, t.after call world)

def backing (b : Backing σ) : Backing (Recorded σ) where
  read name := attempt (.read name) (b.read name)
  write name value := attempt (.write name value) (b.write name value)

end Recorded

def Surroundings.recorded (w : Surroundings σ) : Surroundings (Recorded σ) where
  capture := Recorded.attempt .capture w.capture
  logicalSize := Recorded.attempt .logicalSize w.logicalSize
  input event := Recorded.attempt (.input event) (w.input event)
  sleep nanoseconds := Recorded.answer (.sleep nanoseconds) (w.sleep nanoseconds)
  template id := Recorded.attempt (.template id) (w.template id)
  backing := w.backing.map Recorded.backing
  now := Recorded.answer .now w.now
  aborted t := w.aborted t.world

theorem Surroundings.recorded_projects (w : Surroundings σ) :
    w.recorded.Projects Recorded.world w where
  aborted _ := rfl
  capture _ := rfl
  logicalSize _ := rfl
  input _ _ := rfl
  sleep _ _ := rfl
  template _ _ := rfl
  backing := by
    change Option.Rel _ (w.backing.map Recorded.backing) w.backing
    cases w.backing with
    | none => exact .none
    | some b => exact .some ⟨fun _ _ => rfl, fun _ _ _ => rfl⟩
  now _ := rfl

def World.recorded (w : World σ) : World (Recorded σ) where
  toSurroundings := w.toSurroundings.recorded
  searches_end template policy started := Search.wellFounded_again_of_projects
    w.toSurroundings.recorded_projects (w.searches_end template policy started)

namespace Session

def recorded (s : Session σ) : Session (Recorded σ) where
  search := { world := { world := s.world }, cache := s.search.cache, journal := s.journal }
  bindings := s.bindings
  status := s.status

theorem execute_recorded (w : World σ) (program : Program) (s : Session σ) (runId : Option String) :
    s.execute w program runId = ((s.recorded.execute w.recorded program runId).1,
      (s.recorded.execute w.recorded program runId).2.project Recorded.world) :=
  execute_project (f := Recorded.world) (w := w) w.recorded_projects program s.recorded runId

end Session

/-! ## The calls of a step -/

def Recorded.onto (base : List (Call × σ)) (t : Recorded σ) : Recorded σ :=
  { t with calls := t.calls ++ base }

theorem Surroundings.recorded_projects_onto (w : Surroundings σ) (base : List (Call × σ)) :
    w.recorded.Projects (Recorded.onto base) w.recorded where
  aborted _ := rfl
  capture _ := rfl
  logicalSize _ := rfl
  input _ _ := rfl
  sleep _ _ := rfl
  template _ _ := rfl
  backing := by
    change Option.Rel _ (w.backing.map Recorded.backing) (w.backing.map Recorded.backing)
    cases w.backing with
    | none => exact .none
    | some b => exact .some ⟨fun _ _ => rfl, fun _ _ _ => rfl⟩
  now _ := rfl

def Session.unrecorded (s : Session (Recorded σ)) : Session (Recorded σ) :=
  s.project fun t => { t with calls := [] }

theorem Session.exists_step_unrecorded {w : World σ} {i : Instruction} {s t : Session (Recorded σ)}
    {result : Except Failure Flow} (h : (step w.recorded i).on s = (result, t)) :
    ∃ u, (step w.recorded i).on s.unrecorded = (result, u) ∧
      t.world.calls = u.world.calls ++ s.world.calls := by
  have accord := accord_over (v := w.recorded) (w := w.recorded)
    (w.recorded_projects_onto s.world.calls)
  obtain ⟨same, seen⟩ := accord.agrees_step i s.unrecorded s rfl
  rw [h] at same seen
  refine ⟨((step w.recorded i).on s.unrecorded).2, Prod.ext same rfl, ?_⟩
  exact (congrArg (fun v : Session (Recorded σ) => v.world.calls) seen).symm

end ScreenScript
