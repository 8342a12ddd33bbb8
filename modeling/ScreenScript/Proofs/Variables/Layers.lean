import ScreenScript.Proofs.NameMap
import ScreenScript.Proofs.Variables.FailedWrite
import ScreenScript.Rehearsal.Supplies

/-!
# Layers of variables over whole histories

A history is what some edits of variables, successful and failed ones, have led to. Each layer of the
variables is given by the edits that succeeded: bound variables have the values that were bound last, and
the defaults are those declared last (`History.layered_after`). The backing store sees the assignments
and nothing else (`History.world_after`), and those that succeeded overwrite the contents of a lawful one
(`History.contents_after`).
-/

namespace ScreenScript

variable {σ : Type}

structure Backing.Lawful (b : Backing σ) (contents : σ → String → Option Value) : Prop where
  read {name : String} {s t : σ} {found : Option Value}
    (h : (b.read name).on s = (.ok found, t)) : found = contents s name ∧ contents t = contents s
  refusesRead {name : String} {s t : σ} {e : Failure}
    (h : (b.read name).on s = (.error e, t)) : contents t = contents s
  write {name : String} {value : Value} {s t : σ} (h : (b.write name value).on s = (.ok (), t))
    (other : String) : contents t other = if other = name then some value else contents s other
  refusesWrite {name : String} {value : Value} {s t : σ} {e : Failure}
    (h : (b.write name value).on s = (.error e, t)) : contents t = contents s

namespace Variables

/-- A call that changes variables. -/
inductive Edit where
  | set (name : String) (value : Value)
  | preset (name : String) (value : Value)
  | setDefaults (defaults : NameMap Value)

namespace Edit

def make (backing : Option (Backing σ)) (v : Variables) : Edit → Attempt σ Variables
  | set name value => v.set backing name value
  | preset name value => pure (v.preset name value)
  | setDefaults defaults => pure (v.setDefaults defaults)

/-- The name and the value that a call assigns, and writes through to the backing store. -/
def assigned? : Edit → Option (String × Value)
  | set name value => some (name, value)
  | preset .. | setDefaults _ => none

def bound? : Edit → Option (String × Value)
  | set name value | preset name value => some (name, value)
  | setDefaults _ => none

def declared? : Edit → Option (NameMap Value)
  | set .. | preset .. => none
  | setDefaults defaults => some defaults

end Edit

def lastBound (done : List Edit) : String → Option Value :=
  NameMap.lastOf (done.filterMap Edit.bound?)

def lastSet (done : List Edit) : String → Option Value :=
  NameMap.lastOf (done.filterMap Edit.assigned?)

def lastDefaults (done : List Edit) : NameMap Value :=
  (done.filterMap Edit.declared?).getLast?.getD ∅

/-- Variables after some edits, with those that succeeded, first to last, and the world they are in. -/
structure History (σ : Type) where
  done : List Edit := []
  vars : Variables := {}
  world : σ

namespace History

/-- The history after another edit. One that fails leaves the variables as they are. -/
def edit (backing : Option (Backing σ)) (h : History σ) (e : Edit) : History σ :=
  match (e.make backing h.vars).on h.world with
  | (.ok vars, world) => { done := h.done ++ [e], vars, world }
  | (.error _, world) => { h with world }

def after (backing : Option (Backing σ)) (world : σ) (edits : List Edit) : History σ :=
  edits.foldl (edit backing) { world }

/-! ## One edit -/

inductive Edited (backing : Option (Backing σ)) (h : History σ) : Edit → History σ → Prop where
  | refused {b : Backing σ} {name : String} {value : Value} {e : Failure} {t : σ}
    (backed : backing = some b) (refused : (b.write name value).on h.world = (.error e, t)) :
    Edited backing h (.set name value) { h with world := t }
  | written {b : Backing σ} {name : String} {value : Value} {t : σ} (backed : backing = some b)
    (written : (b.write name value).on h.world = (.ok (), t)) :
    Edited backing h (.set name value)
      { done := h.done ++ [.set name value], vars := h.vars.preset name value, world := t }
  | unbacked (name : String) (value : Value) (unbacked : backing = none) :
    Edited backing h (.set name value)
      { h with done := h.done ++ [.set name value], vars := h.vars.preset name value }
  | preset (name : String) (value : Value) :
    Edited backing h (.preset name value)
      { h with done := h.done ++ [.preset name value], vars := h.vars.preset name value }
  | declared (defaults : NameMap Value) :
    Edited backing h (.setDefaults defaults)
      { h with done := h.done ++ [.setDefaults defaults], vars := h.vars.setDefaults defaults }

theorem edited (backing : Option (Backing σ)) (h : History σ) (e : Edit) :
    Edited backing h e (h.edit backing e) := by
  cases e with
  | preset name value => exact .preset name value
  | setDefaults defaults => exact .declared defaults
  | set name value =>
      cases backing with
      | none => exact .unbacked name value rfl
      | some b =>
          rcases written : (b.write name value).on h.world with ⟨result, t⟩
          cases result with
          | error failure =>
              rw [edit, Edit.make, set_on_error h.vars written]
              exact .refused rfl written
          | ok _ =>
              have set_on : (set (some b) h.vars name value).on h.world =
                  (.ok (h.vars.preset name value), t) := by
                unfold set
                rw [Attempt.on_bind, written]
                rfl
              rw [edit, Edit.make, set_on]
              exact .written rfl written

theorem edit_set_of_error {backing : Option (Backing σ)} {h : History σ} {name : String} {value : Value}
    {e : Failure} {t : σ} (failed : (h.vars.set backing name value).on h.world = (.error e, t)) :
    h.edit backing (.set name value) = { h with world := t } := by
  rw [edit, Edit.make, failed]

structure Layered (h : History σ) : Prop where
  bound : ∀ name, h.vars.bound.get? name = lastBound h.done name
  defaults : h.vars.defaults = lastDefaults h.done

theorem lastBound_concat (done : List Edit) (e : Edit) (other : String) :
    lastBound (done ++ [e]) other = match e.bound? with
      | some (name, value) => if other = name then some value else lastBound done other
      | none => lastBound done other := by
  rw [lastBound, lastBound, List.filterMap_append]
  cases bound : e.bound? with
  | none => simp [bound]
  | some pair =>
      have single : [e].filterMap Edit.bound? = [pair] := by simp [bound]
      rw [single, NameMap.lastOf_concat]

theorem lastSet_concat (done : List Edit) (e : Edit) (other : String) :
    lastSet (done ++ [e]) other = match e.assigned? with
      | some (name, value) => if other = name then some value else lastSet done other
      | none => lastSet done other := by
  rw [lastSet, lastSet, List.filterMap_append]
  cases assigned : e.assigned? with
  | none => simp [assigned]
  | some pair =>
      have single : [e].filterMap Edit.assigned? = [pair] := by simp [assigned]
      rw [single, NameMap.lastOf_concat]

theorem Layered.preset {h : History σ} (layered : h.Layered) {e : Edit} {name : String} {value : Value}
    (binds : e.bound? = some (name, value)) (world : σ) :
    Layered { done := h.done ++ [e], vars := h.vars.preset name value, world } where
  bound other := by
    dsimp only [Variables.preset]
    rw [lastBound_concat, binds, NameMap.get?_insert, layered.bound]
  defaults := by
    have undeclared : e.declared? = none := by
      cases e with
      | set | preset => rfl
      | setDefaults => cases binds
    dsimp only [Variables.preset]
    rw [layered.defaults, lastDefaults, lastDefaults, List.filterMap_append]
    simp [undeclared]

theorem Layered.edit {h : History σ} (layered : h.Layered) (backing : Option (Backing σ)) (e : Edit) :
    (h.edit backing e).Layered := by
  have outcome := h.edited backing e
  generalize h.edit backing e = h' at outcome ⊢
  cases outcome with
  | refused backed refused => exact ⟨layered.bound, layered.defaults⟩
  | written backed written => exact layered.preset rfl _
  | unbacked name value unbacked => exact layered.preset rfl _
  | preset name value => exact layered.preset rfl _
  | declared defaults =>
      refine ⟨fun other => ?_, ?_⟩
      · rw [lastBound_concat]
        exact layered.bound other
      · simp [Variables.setDefaults, lastDefaults, Edit.declared?]

theorem world_edit (b : Backing σ) (h : History σ) (e : Edit) :
    (h.edit (some b) e).world = match e.assigned? with
      | some (name, value) => ((b.write name value).on h.world).2
      | none => h.world := by
  have outcome := h.edited (some b) e
  generalize h.edit (some b) e = h' at outcome ⊢
  cases outcome with
  | refused backed refused =>
      cases backed
      exact (congrArg Prod.snd refused).symm
  | written backed written =>
      cases backed
      exact (congrArg Prod.snd written).symm
  | unbacked name value unbacked => cases unbacked
  | preset | declared => rfl

theorem world_edit_none (h : History σ) (e : Edit) : (h.edit none e).world = h.world := by
  cases e with
  | set | preset | setDefaults => rfl

theorem contents_edit {b : Backing σ} {contents : σ → String → Option Value} (lawful : b.Lawful contents)
    {h : History σ} {start : String → Option Value}
    (overwritten : ∀ name, contents h.world name = (lastSet h.done name).or (start name)) (e : Edit)
    (name : String) :
    contents (h.edit (some b) e).world name =
      (lastSet (h.edit (some b) e).done name).or (start name) := by
  have outcome := h.edited (some b) e
  generalize h.edit (some b) e = h' at outcome ⊢
  cases outcome with
  | refused backed refused =>
      -- A refused assignment is not among those done, and the contents stay.
      cases backed
      rw [lawful.refusesWrite refused]
      exact overwritten name
  | @written b' other value t backed written =>
      cases backed
      dsimp only
      rw [lawful.write written, lastSet_concat]
      dsimp only [Edit.assigned?]
      split
      · rfl
      · exact overwritten name
  | unbacked _ _ unbacked => cases unbacked
  | preset | declared =>
      dsimp only
      rw [lastSet_concat]
      exact overwritten name

/-! ## Whole histories -/

theorem after_induction {P : History σ → Prop} {backing : Option (Backing σ)} {s : σ}
    (start : P { world := s }) (edit : ∀ h e, P h → P (h.edit backing e)) (edits : List Edit) :
    P (after backing s edits) := by
  induction edits using List.reverseRecOn with
  | nil => exact start
  | append_singleton edits e ih =>
      rw [after, List.foldl_concat]
      exact edit _ e ih

theorem layered_after (backing : Option (Backing σ)) (s : σ) (edits : List Edit) :
    (after backing s edits).Layered :=
  after_induction ⟨fun _ => rfl, rfl⟩ (fun _ e layered => layered.edit backing e) edits

theorem contents_after {b : Backing σ} {contents : σ → String → Option Value} (lawful : b.Lawful contents)
    (s : σ) (edits : List Edit) (name : String) :
    contents (after (some b) s edits).world name =
      (lastSet (after (some b) s edits).done name).or (contents s name) :=
  after_induction (P := fun h => ∀ name, contents h.world name = (lastSet h.done name).or (contents s name))
    (fun _ => rfl) (fun _ e overwritten => contents_edit lawful overwritten e) edits name

def replayed (b : Backing σ) (assignments : List (String × Value)) (s : σ) : σ :=
  assignments.foldl (fun s (name, value) => ((b.write name value).on s).2) s

theorem world_after (b : Backing σ) (s : σ) (edits : List Edit) :
    (after (some b) s edits).world = replayed b (edits.filterMap Edit.assigned?) s := by
  induction edits using List.reverseRecOn with
  | nil => rfl
  | append_singleton edits e ih =>
      have last : after (some b) s (edits ++ [e]) = (after (some b) s edits).edit (some b) e := by
        rw [after, List.foldl_concat, after]
      rw [last, world_edit, ih, List.filterMap_append, replayed, replayed, List.foldl_append]
      cases assigned : e.assigned? with
      | none => simp [assigned]
      | some pair => simp [assigned]

theorem world_after_none (s : σ) (edits : List Edit) : (after none s edits).world = s :=
  after_induction (P := fun h => h.world = s) rfl (fun h e same => (world_edit_none h e).trans same) edits

end History

def lastDefault (done : List Edit) (name : String) : Except Failure Value :=
  match (lastDefaults done).get? name with
  | some value => .ok value
  | none => .error (.undefinedVariable name)

/-- What a variable is read as when nothing is bound in the run. -/
def readThrough (backing : Option (Backing σ)) (default : Except Failure Value) (name : String) (s : σ) :
    Except Failure Value × σ :=
  match backing with
  | none => (default, s)
  | some b => match (b.read name).on s with
    | (.ok (some value), t) => (.ok value, t)
    | (.ok none, t) => (default, t)
    | (.error e, t) => (.error e, t)

theorem get_on (backing : Option (Backing σ)) (v : Variables) (name : String) (s : σ) :
    (v.get backing name).on s = match v.bound.get? name with
      | some value => (.ok value, s)
      | none => readThrough backing (v.default? name) name s := by
  unfold get readThrough
  cases v.bound.get? name with
  | some value => rfl
  | none =>
      cases backing with
      | none => cases v.default? name <;> rfl
      | some b =>
          dsimp only
          rw [Attempt.on_bind]
          rcases (b.read name).on s with ⟨result, t⟩
          match result with
          | .error e => rfl
          | .ok (some value) => rfl
          | .ok none => cases v.default? name <;> rfl

/--
The layers of variables after any edits, some of which may have failed. A variable has the value that
was bound to it last; else the backing store decides, also if it fails to read the variable; else it has
its current default. An assignment that is refused changes nothing in the run. The backing store sees
the assignments in their order, and nothing else. So the contents of a lawful one are overwritten by the
assignments that succeeded, and new variables with this store are read accordingly.
-/
theorem layers_after (backing : Option (Backing σ)) (s : σ) (edits : List Edit) (h : History σ)
    (made : History.after backing s edits = h) :
    (∀ name, (h.vars.get backing name).on h.world = match lastBound h.done name with
      | some value => (.ok value, h.world)
      | none => readThrough backing (lastDefault h.done name) name h.world) ∧
    (∀ name value e t, (h.vars.set backing name value).on h.world = (.error e, t) →
      h.edit backing (.set name value) = { h with world := t }) ∧
    (backing = none → h.world = s) ∧
    ∀ b, backing = some b → h.world = History.replayed b (edits.filterMap Edit.assigned?) s ∧
      ∀ contents, b.Lawful contents →
        (∀ name, contents h.world name = (lastSet h.done name).or (contents s name)) ∧
        ∀ name found t, (b.read name).on h.world = (.ok found, t) →
          found = (lastSet h.done name).or (contents s name) ∧
          (({} : Variables).get backing name).on h.world =
            (match (lastSet h.done name).or (contents s name) with
              | some value => .ok value
              | none => .error (.undefinedVariable name), t) := by
  subst made
  refine ⟨fun name => ?_, fun _ _ _ _ => History.edit_set_of_error, ?_, ?_⟩
  · have layered := History.layered_after backing s edits
    rw [get_on, layered.bound, default?, layered.defaults]
    rfl
  · rintro rfl
    exact History.world_after_none s edits
  · rintro b rfl
    refine ⟨History.world_after b s edits, fun contents lawful => ?_⟩
    have overwritten := History.contents_after lawful s edits
    refine ⟨overwritten, fun name found t read => ?_⟩
    have current := (lawful.read read).1.trans (overwritten name)
    refine ⟨current, ?_⟩
    rw [get_on]
    dsimp only [readThrough]
    rw [read, ← current]
    cases found with
    | some value => rfl
    | none => rfl

end Variables

/-! ## Variables kept in memory -/

namespace MemoryBacking

theorem read_on (name : String) (memory : MemoryBacking) :
    (backing.read name).on memory =
      (if memory.refusesRead = some name then .error (.persistence "scripted read failure")
        else .ok (memory.entries.get? name), memory) := by
  have got : (get : Attempt MemoryBacking _).on memory = (.ok memory, memory) := rfl
  dsimp only [backing]
  rw [Attempt.on_bind, got]
  dsimp only
  split
  · rfl
  · rfl

theorem write_on (name : String) (value : Value) (memory : MemoryBacking) :
    (backing.write name value).on memory =
      if memory.refusesWrite = some name then (.error (.persistence "scripted write failure"), memory)
      else (.ok (), { memory with entries := memory.entries.insert name value }) := by
  have got : (get : Attempt MemoryBacking _).on memory = (.ok memory, memory) := rfl
  dsimp only [backing]
  rw [Attempt.on_bind, got]
  dsimp only
  split
  · rfl
  · rfl

theorem lawful_backing : backing.Lawful fun memory => memory.entries.get? where
  read {name s t found} h := by
    rw [read_on] at h
    split at h
    · cases h
    · cases h
      exact ⟨rfl, rfl⟩
  refusesRead {name s t e} h := by
    rw [read_on] at h
    cases (Prod.mk.inj h).2
    rfl
  write {name value s t} h other := by
    rw [write_on] at h
    split at h
    · cases h
    · cases h
      exact NameMap.get?_insert _ _ _ _
  refusesWrite {name value s t e} h := by
    rw [write_on] at h
    split at h
    · cases h
      rfl
    · cases h

def refusing : MemoryBacking :=
  { entries := .ofList [("x", .text "old")], refusesWrite := some "y" }

theorem layers_after_refusal :
    ∃ h, Variables.History.after (some backing) refusing
        [.set "x" (.text "1"), .preset "x" (.text "2"), .set "y" (.text "3"),
          .setDefaults (.ofList [("y", .text "4")])] = h ∧
      (h.vars.get (some backing) "x").on h.world = (.ok (.text "2"), h.world) ∧
      (h.vars.get (some backing) "y").on h.world = (.ok (.text "4"), h.world) ∧
      h.world.entries.get? "x" = some (.text "1") ∧ h.world.entries.get? "y" = none ∧
      (({} : Variables).get (some backing) "x").on h.world = (.ok (.text "1"), h.world) := by
  refine ⟨_, rfl, ?_⟩
  obtain ⟨read, -, -, behind⟩ := Variables.layers_after (some backing) refusing
    [.set "x" (.text "1"), .preset "x" (.text "2"), .set "y" (.text "3"),
      .setDefaults (.ofList [("y", .text "4")])] _ rfl
  obtain ⟨-, stored⟩ := behind backing rfl
  obtain ⟨contents, fresh⟩ := stored _ lawful_backing
  exact ⟨read "x", read "y", contents "x", contents "y", (fresh "x" _ _ rfl).2⟩

end MemoryBacking

/-! ## Variables kept in a file -/

/-- An assignment that a file refuses is read by new variables all the same, though none has succeeded. -/
theorem VariableFile.get_after_refused :
    let b := backing FileTree.disk ⟨0, 0, 0⟩
    let start := (VariableFile.mk "vars.json" ∅, blocked)
    let h := Variables.History.after (some b) start [.set "x" (.number 1.0)]
    h.done = [] ∧ h.vars.bound.get? "x" = none ∧
      (({} : Variables).get (some b) "x").on start = (.error (.undefinedVariable "x"), start) ∧
      (({} : Variables).get (some b) "x").on h.world = (.ok (.number 1.0), h.world) := by
  intro b start h
  have refused := @Variables.set_on_error _ b {} _ _ start _ _ (insert_blocked ⟨0, 0, 0⟩ "x" (.number 1.0))
  have left : h = { world := (⟨"vars.json", (∅ : NameMap Entry).insert "x" ⟨.number 1.0, ⟨0, 0, 0⟩⟩⟩,
      blocked) } :=
    Variables.History.edit_set_of_error refused
  rw [left]
  exact ⟨rfl, rfl, rfl, rfl⟩

end ScreenScript
