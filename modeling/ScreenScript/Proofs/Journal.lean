import ScreenScript.Journal

namespace ScreenScript.Journal

def status : List Entry → Status
  | [] => .ready
  | .status _ new :: _ => new
  | _ :: before => status before

def changes : List Entry → List (Status × Status)
  | [] => []
  | .status old new :: before => changes before ++ [(old, new)]
  | _ :: before => changes before

def lastDispatch? : List Entry → Option (Nat × Nat × String)
  | [] => none
  | .dispatch index line keyword :: _ => some (index, line, keyword)
  | _ :: before => lastDispatch? before

def IsPhase (s : Status) : Prop :=
  s = .matching ∨ s = .acting

def course (phases : List Status) : List (Status × Status) :=
  (.ready, .running) :: phases.flatMap fun phase => [(.running, phase), (phase, .running)]

/-- The changes that lead to a status. -/
def Path : Status → List (Status × Status) → Prop
  | .ready, changes => changes = []
  | .running, changes => ∃ phases, (∀ phase ∈ phases, IsPhase phase) ∧ changes = course phases
  | s, changes => ∃ phases, (∀ phase ∈ phases, IsPhase phase) ∧
      changes = course phases ++ [(.running, s)]

theorem Path.enter {changes : List (Status × Status)} (h : Path .running changes) {s : Status}
    (started : s ≠ .ready) (other : s ≠ .running) : Path s (changes ++ [(.running, s)]) := by
  obtain ⟨phases, each, rfl⟩ := h
  cases s with
  | ready => exact absurd rfl started
  | running => exact absurd rfl other
  | matching | acting | completed | failed | aborted => exact ⟨phases, each, rfl⟩

theorem Path.leave {changes : List (Status × Status)} {s : Status} (phase : IsPhase s)
    (h : Path s changes) : Path .running (changes ++ [(s, .running)]) := by
  have through : ∃ phases, (∀ phase ∈ phases, IsPhase phase) ∧
      changes = course phases ++ [(.running, s)] := by
    rcases phase with rfl | rfl <;> exact h
  obtain ⟨phases, each, rfl⟩ := through
  refine ⟨phases ++ [s], ?_, by simp [course]⟩
  intro p member
  rcases List.mem_append.1 member with earlier | last
  · exact each p earlier
  · rwa [List.mem_singleton.1 last]

/-- What holds of a journal in some status, after some dispatch. -/
structure Stands (s : Status) (last? : Option (Nat × Nat × String)) (journal : List Entry) :
    Prop where
  path : Path s (changes journal)
  status_eq : status journal = s
  dispatch_eq : lastDispatch? journal = last?
  capturing : ∀ before, .capturing :: before <:+ journal → status before = .matching
  input : ∀ event before, .input event :: before <:+ journal → status before = .acting

namespace Stands

variable {s t : Status} {last? next? : Option (Nat × Nat × String)} {journal : List Entry}
  {entry : Entry}

theorem cons (h : Stands s last? journal) (path : Path t (changes (entry :: journal)))
    (status_eq : status (entry :: journal) = t)
    (dispatch_eq : lastDispatch? (entry :: journal) = next?)
    (capturing : entry = .capturing → s = .matching)
    (input : ∀ event, entry = .input event → s = .acting) :
    Stands t next? (entry :: journal) where
  path := path
  status_eq := status_eq
  dispatch_eq := dispatch_eq
  capturing := by
    intro before suffix
    rcases List.suffix_cons_iff.1 suffix with whole | earlier
    · cases whole
      exact h.status_eq.trans (capturing rfl)
    · exact h.capturing before earlier
  input := by
    intro event before suffix
    rcases List.suffix_cons_iff.1 suffix with whole | earlier
    · cases whole
      exact h.status_eq.trans (input event rfl)
    · exact h.input event before earlier

theorem start : Stands .running none [.status .ready .running] where
  path := ⟨[], by simp, rfl⟩
  status_eq := rfl
  dispatch_eq := rfl
  capturing := by
    intro before suffix
    simp [List.suffix_cons_iff] at suffix
  input := by
    intro event before suffix
    simp [List.suffix_cons_iff] at suffix

theorem capture (h : Stands .matching last? journal) :
    Stands .matching last? (.capturing :: journal) :=
  h.cons h.path h.status_eq h.dispatch_eq (fun _ => rfl) (by simp)

theorem act (h : Stands .acting last? journal) (event : InputEvent) :
    Stands .acting last? (.input event :: journal) :=
  h.cons h.path h.status_eq h.dispatch_eq (by simp) (by simp)

theorem dispatch (h : Stands s last? journal) (index line : Nat) (keyword : String) :
    Stands s (some (index, line, keyword)) (.dispatch index line keyword :: journal) :=
  h.cons h.path h.status_eq rfl (by simp) (by simp)

theorem enter (h : Stands .running last? journal) (started : t ≠ .ready) (other : t ≠ .running) :
    Stands t last? (.status .running t :: journal) :=
  h.cons (h.path.enter started other) rfl h.dispatch_eq (by simp) (by simp)

theorem leave (h : Stands s last? journal) (phase : IsPhase s) :
    Stands .running last? (.status s .running :: journal) :=
  h.cons (h.path.leave phase) rfl h.dispatch_eq (by simp) (by simp)

end Stands

/-- An event that is neither a change of the status nor a dispatch, a capture or an input. -/
def Quiet : Entry → Prop
  | .status .. | .dispatch .. | .capturing | .input _ => False
  | _ => True

theorem Stands.note {s : Status} {last? : Option (Nat × Nat × String)} {journal : List Entry}
    {entry : Entry} (h : Stands s last? journal) (quiet : Quiet entry) :
    Stands s last? (entry :: journal) := by
  have changes_eq : changes (entry :: journal) = changes journal := by
    cases entry <;> first | rfl | exact quiet.elim
  have status_eq : status (entry :: journal) = status journal := by
    cases entry <;> first | rfl | exact quiet.elim
  have dispatch_eq : lastDispatch? (entry :: journal) = lastDispatch? journal := by
    cases entry <;> first | rfl | exact quiet.elim
  refine h.cons (changes_eq ▸ h.path) (status_eq.trans h.status_eq)
    (dispatch_eq.trans h.dispatch_eq) ?_ ?_
  · rintro rfl
    exact quiet.elim
  · rintro event rfl
    exact quiet.elim

end ScreenScript.Journal
