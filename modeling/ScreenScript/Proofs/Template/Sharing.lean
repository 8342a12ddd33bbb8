import Mathlib.Logic.Function.Basic
import ScreenScript.Proofs.Template.Store

/-!
# Shared stores

Many callers may load from one store while the directory below it changes. Each of the two sections of
loading is one step, and any steps of other callers may come in between. Once a template is kept, only
an insertion under the same id replaces it (`Step.lookup_eq`), so all callers get the same template
(`loads_agree`): one that looked in vain looks again before it reads.
-/

namespace ScreenScript.TemplateStore

/-- A store in use, with the id that each caller waits to fetch since its lookup was in vain. -/
structure Shared (ι σ : Type) where
  store : TemplateStore
  disk : σ
  waiting : ι → Option String

inductive Event (ι : Type) where
  | missed (caller : ι) (id : String)
  | answered (caller : ι) (id : String) (answer : Except Failure Template) (fromDisk : Bool)
  | inserted (t : Template)
  | changed

variable {ι σ : Type} {id : String} {events : List (Event ι)}

/-- No template with the id is inserted. -/
def Untouched (id : String) (events : List (Event ι)) : Prop :=
  ∀ t, .inserted t ∈ events → t.id ≠ id

theorem Untouched.tail {event : Event ι} (h : Untouched id (event :: events)) : Untouched id events :=
  fun t mem => h t (List.mem_cons_of_mem _ mem)

variable [DecidableEq ι] {d : Disk σ} {s s' : Shared ι σ} {t : Template}

inductive Step (d : Disk σ) (s : Shared ι σ) : Event ι → Shared ι σ → Prop where
  | hit {caller : ι} {id : String} {t : Template} (idle : s.waiting caller = none)
    (kept : s.store.lookup id = some t) : Step d s (.answered caller id (.ok t) false) s
  | missed {caller : ι} {id : String} (idle : s.waiting caller = none)
    (absent : s.store.lookup id = none) :
    Step d s (.missed caller id) { s with waiting := Function.update s.waiting caller (some id) }
  | fetched {caller : ι} {id : String} {answer : Except Failure Template} {store : TemplateStore}
    (waits : s.waiting caller = some id) (made : s.store.fetch d s.disk id = (answer, store)) :
    Step d s (.answered caller id answer (!s.store.isKept id))
      ⟨store, s.disk, Function.update s.waiting caller none⟩
  | inserted (t : Template) : Step d s (.inserted t) { s with store := s.store.insert t }
  | changed (disk : σ) : Step d s .changed { s with disk }

inductive Runs (d : Disk σ) : Shared ι σ → List (Event ι) → Shared ι σ → Prop where
  | nil {s : Shared ι σ} : Runs d s [] s
  | cons {s m s' : Shared ι σ} {event : Event ι} {events : List (Event ι)} (step : Step d s event m)
    (rest : Runs d m events s') : Runs d s (event :: events) s'

theorem Runs.exists_of_append {before after : List (Event ι)} (run : Runs d s (before ++ after) s') :
    ∃ m, Runs d s before m ∧ Runs d m after s' := by
  induction before generalizing s with
  | nil => exact ⟨s, .nil, run⟩
  | cons event before ih =>
      cases run with
      | cons step rest =>
          obtain ⟨m, first, last⟩ := ih rest
          exact ⟨m, .cons step first, last⟩

/-! ## One step -/

theorem Step.store_cases {event : Event ι} (step : Step d s event s') :
    s'.store = s.store ∨
    (∃ new, event = .inserted new ∧ s'.store = s.store.insert new) ∨
    (∃ caller new, event = .answered caller new.id (.ok new) true ∧
      s.store.lookup new.id = none ∧ s'.store = s.store.insert new) := by
  cases step with
  | hit | missed | changed => exact .inl rfl
  | inserted new => exact .inr (.inl ⟨new, rfl, rfl⟩)
  | @fetched caller id answer store waits made =>
      have outcome := fetches d s.disk id s.store
      rw [made] at outcome
      cases outcome with
      | kept | failed => exact .inl rfl
      | @read new absent read =>
          -- The caller looks again before it reads, so what it reads was not kept.
          have same : new.id = id := Template.id_of_read read
          subst same
          have missing : s.store.isKept new.id = false :=
            Option.isSome_eq_false_iff.2 (Option.isNone_iff_eq_none.2 absent)
          rw [missing]
          exact .inr (.inr ⟨caller, new, rfl, absent, rfl⟩)

theorem Step.lookup_eq {event : Event ι} (step : Step d s event s') (kept : s.store.lookup id = some t)
    (untouched : Untouched id [event]) : s'.store.lookup id = some t := by
  obtain same | ⟨new, rfl, grown⟩ | ⟨caller, new, rfl, absent, grown⟩ := step.store_cases
  · rw [same, kept]
  · have other : id ≠ new.id := (untouched new List.mem_cons_self).symm
    rw [grown, lookup_insert, if_neg other, kept]
  · have other : id ≠ new.id := by
      rintro rfl
      rw [absent] at kept
      cases kept
    rw [grown, lookup_insert, if_neg other, kept]

theorem Step.answer_eq {caller : ι} {answer : Except Failure Template} {fromDisk : Bool}
    (step : Step d s (.answered caller id answer fromDisk) s') (kept : s.store.lookup id = some t) :
    answer = .ok t ∧ fromDisk = false := by
  cases step with
  | hit idle found =>
      rw [kept] at found
      cases found
      exact ⟨rfl, rfl⟩
  | fetched waits made =>
      rw [fetch_of_lookup kept] at made
      cases made
      have held : s.store.isKept id = true := Option.isSome_iff_exists.2 ⟨t, kept⟩
      rw [held]
      exact ⟨rfl, rfl⟩

theorem Step.lookup_of_answered {caller : ι} {fromDisk : Bool}
    (step : Step d s (.answered caller id (.ok t) fromDisk) s') : s'.store.lookup id = some t := by
  cases step with
  | hit idle kept => exact kept
  | fetched waits made =>
      have outcome := fetches d s.disk id s.store
      rw [made] at outcome
      cases outcome with
      | kept found => exact found
      | read absent read => rw [lookup_insert, if_pos (Template.id_of_read read).symm]

theorem Runs.lookup_eq (run : Runs d s events s') (kept : s.store.lookup id = some t)
    (untouched : Untouched id events) : s'.store.lookup id = some t := by
  induction run with
  | nil => exact kept
  | cons step rest ih =>
      have first : Untouched id [_] := fun new mem =>
        untouched new (List.mem_cons.2 (.inl (List.mem_singleton.1 mem)))
      exact ih (step.lookup_eq kept first) untouched.tail

theorem Runs.answer_eq (run : Runs d s events s') (kept : s.store.lookup id = some t)
    (untouched : Untouched id events) {caller : ι} {answer : Except Failure Template} {fromDisk : Bool}
    (mem : .answered caller id answer fromDisk ∈ events) : answer = .ok t ∧ fromDisk = false := by
  obtain ⟨before, after, rfl⟩ := List.append_of_mem mem
  obtain ⟨m, first, rest⟩ := run.exists_of_append
  have still : m.store.lookup id = some t := by
    apply first.lookup_eq kept
    exact fun new mem => untouched new (List.mem_append_left _ mem)
  cases rest with
  | cons step _ => exact step.answer_eq still

theorem Runs.agree (run : Runs d s events s') (untouched : Untouched id events) {caller caller' : ι}
    {t' : Template} {fromDisk fromDisk' : Bool} (mem : .answered caller id (.ok t) fromDisk ∈ events)
    (mem' : .answered caller' id (.ok t') fromDisk' ∈ events) : t = t' := by
  -- Whichever answer comes first leaves its template in the store, where the other finds it.
  induction run with
  | nil => cases mem
  | cons step rest ih =>
      rcases List.mem_cons.1 mem with here | later
      · subst here
        rcases List.mem_cons.1 mem' with same | later'
        · cases same
          rfl
        · have answer := (rest.answer_eq step.lookup_of_answered untouched.tail later').1
          exact (Except.ok.inj answer).symm
      · rcases List.mem_cons.1 mem' with here' | later'
        · subst here'
          have answer := (rest.answer_eq step.lookup_of_answered untouched.tail later).1
          exact Except.ok.inj answer
        · exact ih untouched.tail later later'

def Named (s : TemplateStore) : Prop :=
  ∀ id t, s.lookup id = some t → t.id = id

theorem Named.insert {store : TemplateStore} (named : store.Named) (t : Template) :
    (store.insert t).Named := by
  intro id other kept
  rw [lookup_insert] at kept
  by_cases same : id = t.id
  · rw [if_pos same] at kept
    cases kept
    exact same.symm
  · rw [if_neg same] at kept
    exact named id other kept

theorem Step.named {event : Event ι} (step : Step d s event s') (named : s.store.Named) :
    s'.store.Named := by
  obtain same | ⟨new, -, grown⟩ | ⟨-, new, -, -, grown⟩ := step.store_cases
  · rwa [same]
  · rw [grown]
    exact named.insert new
  · rw [grown]
    exact named.insert new

theorem Runs.named (run : Runs d s events s') (named : s.store.Named) : s'.store.Named := by
  induction run with
  | nil => exact named
  | cons step rest ih => exact ih (step.named named)

end ScreenScript.TemplateStore
