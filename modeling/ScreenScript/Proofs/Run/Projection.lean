import ScreenScript.Proofs.Run.Accord
import ScreenScript.Proofs.Run.Steps

namespace ScreenScript

open Attempt (Agrees)

variable {τ σ α : Type}

def Attempt.Projects (f : τ → σ) (a : Attempt τ α) (b : Attempt σ α) : Prop :=
  ∀ t, Prod.map id f (a.on t) = b.on (f t)

def Backing.Projects (f : τ → σ) (b : Backing τ) (c : Backing σ) : Prop :=
  (∀ name, (b.read name).Projects f (c.read name)) ∧
    ∀ name value, (b.write name value).Projects f (c.write name value)

structure Surroundings.Projects (f : τ → σ) (v : Surroundings τ) (w : Surroundings σ) : Prop where
  aborted : ∀ t, v.aborted t = w.aborted (f t)
  capture : v.capture.Projects f w.capture
  logicalSize : v.logicalSize.Projects f w.logicalSize
  input : ∀ event, (v.input event).Projects f (w.input event)
  sleep : ∀ nanoseconds t, Prod.map id f (v.sleep nanoseconds t) = w.sleep nanoseconds (f t)
  template : ∀ id, (v.template id).Projects f (w.template id)
  backing : Option.Rel (Backing.Projects f) v.backing w.backing
  now : ∀ t, Prod.map id f (v.now t) = w.now (f t)

/-! ## Searches -/

namespace Search

variable {f : τ → σ} {v : Surroundings τ} {w : Surroundings σ}

def project (f : τ → σ) (t : Search τ) : Search σ where
  world := f t.world
  cache := t.cache
  journal := t.journal

def Over (f : τ → σ) (t : Search τ) (s : Search σ) : Prop :=
  t.project f = s

theorem agrees_over_onWorld {a : Attempt τ α} {b : Attempt σ α} (h : a.Projects f b) :
    Agrees (Over f) (Over f) (onWorld a) (onWorld b) := by
  rintro t _ rfl
  obtain ⟨same, after⟩ := Prod.mk.inj (h t.world)
  exact ⟨same, congrArg (fun world => ({ t.project f with world } : Search σ)) after⟩

theorem agrees_over_onClock {a : StateM τ α} {b : StateM σ α}
    (h : ∀ t, Prod.map id f (a t) = b (f t)) :
    Agrees (Over f) (Over f) (onClock a) (onClock b) := by
  rintro t _ rfl
  obtain ⟨same, after⟩ := Prod.mk.inj (h t.world)
  exact ⟨congrArg Except.ok same, congrArg (fun world => ({ t.project f with world } : Search σ)) after⟩

theorem agrees_over_note (f : τ → σ) (entry : Journal.Entry) :
    Agrees (Over f) (Over f) (note entry) (note entry) := by
  rintro t _ rfl
  exact ⟨rfl, rfl⟩

theorem accord_over (h : v.Projects f w) : Accord v w (Over f) where
  aborted := by
    rintro t _ rfl
    exact h.aborted t.world
  cache := by
    rintro t _ rfl
    rfl
  remember := by
    rintro t _ cache rfl _
    rfl
  note entry _ := agrees_over_note f entry
  capture := by
    have noted : Agrees (fun t s => Over f t s ∧ v.aborted t.world = false) (Over f)
        (note .capturing) (note .capturing) :=
      fun t s related => agrees_over_note f .capturing t s related.1
    exact Attempt.agrees_bind noted (fun _ => agrees_over_onWorld h.capture) fun _ _ => id
  logicalSize := agrees_over_onWorld h.logicalSize
  sleep nanoseconds := agrees_over_onClock (h.sleep nanoseconds)
  now := agrees_over_onClock h.now

theorem again_project (h : v.Projects f w) {template : Template} {policy : Policy} {started : Nat}
    {after before : UInt32 × Search τ} (again : Again v template policy started after before) :
    Again w template policy started (after.1, after.2.project f) (before.1, before.2.project f) := by
  obtain ⟨counted, made⟩ := again
  obtain ⟨same, seen⟩ := (accord_over h).agrees_round template policy started before.1 before.2
    (before.2.project f) rfl
  rw [made] at same seen
  exact ⟨counted, Prod.ext same.symm seen.symm⟩

theorem wellFounded_again_of_projects (h : v.Projects f w) {template : Template} {policy : Policy}
    {started : Nat} (searches_end : WellFounded (Again w template policy started)) :
    WellFounded (Again v template policy started) :=
  Subrelation.wf (again_project h)
    (InvImage.wf (fun s : UInt32 × Search τ => (s.1, s.2.project f)) searches_end)

end Search

/-! ## Instructions -/

namespace Session

variable {f : τ → σ} {v : World τ} {w : World σ}

def project (f : τ → σ) (t : Session τ) : Session σ where
  search := t.search.project f
  bindings := t.bindings
  status := t.status

def Over (f : τ → σ) (t : Session τ) (s : Session σ) : Prop :=
  t.project f = s

theorem project_noted (t : Session τ) (entry : Journal.Entry) :
    (t.noted entry).project f = (t.project f).noted entry :=
  rfl

theorem project_changed (t : Session τ) (status : Status) :
    (t.changed status).project f = (t.project f).changed status := by
  change (ite _ _ _ : Session τ).project f = ite (t.status = status) _ _
  split <;> rfl

theorem agrees_over_note (f : τ → σ) (entry : Journal.Entry) :
    Agrees (Over f) (Over f) (note entry) (note entry) := by
  rintro t _ rfl
  exact ⟨rfl, rfl⟩

theorem agrees_over_onSearch {a : Attempt (Search τ) α} {b : Attempt (Search σ) α}
    (h : Agrees (Search.Over f) (Search.Over f) a b) :
    Agrees (Over f) (Over f) (onSearch a) (onSearch b) := by
  rintro t _ rfl
  obtain ⟨same, seen⟩ := h t.search (t.search.project f) rfl
  exact ⟨same, congrArg (fun search => ({ t.project f with search } : Session σ)) seen⟩

theorem agrees_over_onWorld {a : Attempt τ α} {b : Attempt σ α} (h : a.Projects f b) :
    Agrees (Over f) (Over f) (onWorld a) (onWorld b) :=
  agrees_over_onSearch (Search.agrees_over_onWorld h)

theorem agrees_over_during (status : Status) {a : Attempt (Session τ) α}
    {b : Attempt (Session σ) α} (h : Agrees (Over f) (Over f) a b) :
    Agrees (Over f) (Over f) (during status a) (during status b) := by
  rintro t _ rfl
  obtain ⟨same, seen⟩ := h (t.changed status) ((t.project f).changed status)
    (project_changed t status)
  refine ⟨same, ?_⟩
  change Session.project f (Session.changed _ .running) = _
  rw [project_changed]
  exact congrArg (Session.changed · .running) seen

theorem alike_over {b : Option (Backing τ)} {c : Option (Backing σ)}
    (h : Option.Rel (Backing.Projects f) b c) : Option.Rel (Alike (Over f)) b c := by
  cases h with
  | none => exact .none
  | some projects =>
      exact .some ⟨fun name => agrees_over_onWorld (projects.1 name),
        fun name value => agrees_over_onWorld (projects.2 name value)⟩

theorem accord_over (h : v.Projects f w.toSurroundings) : Accord v w (Over f) (Over f) where
  weaken _ _ := id
  note entry _ := agrees_over_note f entry
  bindings := by
    rintro t _ rfl
    rfl
  rebind := by
    rintro t _ bindings rfl
    rfl
  backing := alike_over h.backing
  template id := agrees_over_onWorld (h.template id)
  logicalSize := agrees_over_onWorld h.logicalSize
  sleep nanoseconds := agrees_over_onSearch (Search.agrees_over_onClock (h.sleep nanoseconds))
  search template policy := agrees_over_during .matching
    (agrees_over_onSearch ((Search.accord_over h).agrees_run template policy))
  act event := agrees_over_during .acting (Attempt.agrees_bind (agrees_over_note f (.input event))
    (fun _ => agrees_over_onWorld (h.input event)) fun _ _ => id)

end Session

/-! ## Runs -/

namespace Machine

variable {f : τ → σ} {v : World τ} {w : World σ}

def project (f : τ → σ) (m : Machine τ) : Machine σ where
  session := m.session.project f
  frames := m.frames
  executed := m.executed

def Step.project (f : τ → σ) : Step τ → Step σ
  | .ended ending m => .ended ending (m.project f)
  | .goesOn m => .goesOn (m.project f)

theorem moves_project (h : v.Projects f w.toSurroundings) {m : Machine τ} {step : Step τ}
    (moves : Moves v m step) : Moves w (m.project f) (step.project f) := by
  have wish : w.aborted (m.project f).session.world = v.aborted m.session.world :=
    (h.aborted m.session.world).symm
  -- The two steps look at the same frames; only what the instruction does could differ.
  have made_project {i : Instruction} {result : Except Failure Flow} {session : Session τ}
      (made : (Session.step v i).on (m.dispatched i) = (result, session)) :
      (Session.step w i).on ((m.project f).dispatched i) = (result, session.project f) := by
    obtain ⟨same, seen⟩ := (Session.accord_over h).agrees_step i (m.dispatched i)
      ((m.project f).dispatched i) rfl
    rw [made] at same seen
    exact Prod.ext same.symm seen.symm
  cases moves with
  | aborted asked => exact .aborted (wish.trans asked)
  | completed calm finished => exact .completed (wish.trans calm) finished
  | again calm frames finished more => exact .again (wish.trans calm) frames finished more
  | left calm frames finished last => exact .left (wish.trans calm) frames finished last
  | did calm frames found made => exact .did (wish.trans calm) frames found (made_project made)
  | @skipped g below i failure session calm frames found made guarded recoverable =>
      exact Moves.skipped (w := w) (m := m.project f) (wish.trans calm) frames found
        (made_project made) guarded recoverable
  | failed calm frames found made uncaught =>
      exact .failed (wish.trans calm) frames found (made_project made) uncaught

theorem run_project (h : v.Projects f w.toSurroundings) (m : Machine τ) :
    (m.project f).run w = ((m.run v).1, (m.run v).2.project f) := by
  fun_induction Machine.run v m with
  | case1 m ending last ended =>
      have ended' := next_of_moves (moves_project h (next_eq_iff.1 ended))
      rw [run_eq, ended']
      rfl
  | case2 m n goesOn ih =>
      have goesOn' := next_of_moves (moves_project h (next_eq_iff.1 goesOn))
      rw [run_eq, goesOn']
      exact ih

end Machine

namespace Session

variable {f : τ → σ} {v : World τ} {w : World σ}

theorem project_settle (ending : Ending) (t : Session τ) :
    settle ending (t.project f) = ((settle ending t).1.project f, (settle ending t).2) := by
  rcases ending with _ | ⟨_ | i, failure⟩
  · exact congrArg (·, none) (project_changed t .completed).symm
  · cases failure <;> simp only [settle, project_noted, project_changed]
  · cases failure <;> simp only [settle, project_noted, project_changed]

theorem project_inWorld (t : Session τ) (world : τ) :
    (t.inWorld world).project f = (t.project f).inWorld (f world) :=
  rfl

theorem project_fresh (t : Session τ) : t.fresh.project f = (t.project f).fresh :=
  project_changed _ .running

theorem project_launch (h : v.Projects f w.toSurroundings) (program : Program) (t : Session τ) :
    (t.project f).launch w program = (t.launch v program).project f := by
  obtain ⟨-, after⟩ := Prod.mk.inj (h.now t.world)
  have world : (w.now (t.project f).world).2 = f (v.now t.world).2 := after.symm
  rw [launch, world, ← project_inWorld, ← project_fresh]
  rfl

theorem project_settled (h : v.Projects f w.toSurroundings) (program : Program) (t : Session τ) :
    (t.project f).settled w program =
      ((t.settled v program).1.project f, (t.settled v program).2) := by
  rw [settled, project_launch h, Machine.run_project h]
  exact project_settle _ _

theorem execute_project (h : v.Projects f w.toSurroundings) (program : Program) (t : Session τ)
    (runId : Option String) :
    (t.project f).execute w program runId =
      ((t.execute v program runId).1, (t.execute v program runId).2.project f) := by
  obtain ⟨started, -⟩ := Prod.mk.inj (h.now t.world)
  obtain ⟨ended, last⟩ := Prod.mk.inj (h.now (t.settled v program).1.world)
  have started' : (w.now (t.project f).world).1 = (v.now t.world).1 := started.symm
  have ended' : (w.now ((t.settled v program).1.project f).world).1 =
      (v.now (t.settled v program).1.world).1 := ended.symm
  have last' : (w.now ((t.settled v program).1.project f).world).2 =
      f (v.now (t.settled v program).1.world).2 := last.symm
  rw [execute_eq, execute_eq, project_settled h, project_launch h, Machine.run_project h, started',
    ended', last']
  rfl

end Session

end ScreenScript
