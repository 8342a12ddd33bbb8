import ScreenScript.Proofs.Journal
import ScreenScript.Proofs.Run.Frames
import ScreenScript.Proofs.Run.Watched
import ScreenScript.Proofs.Script.Numbering

/-!
# The protocol of a run

A session tells the truth (`Session.Told`) if its journal stands as it should in the status of the
session and has noted every capture and every input at its call. Searches and inputs keep this in the
phases `matching` and `acting`, which every attempt leaves again, whether it fails or not
(`Session.keeps_told_during`), so instructions keep it in the status `running` (`Session.habit_told`). With
the place that the frames give to the last instruction, this is the protocol of the whole run and its
report (`Session.execute_protocol`).
-/

namespace ScreenScript

open Attempt (Keeps)
open Journal (IsPhase Quiet Stands)

variable {σ α : Type}

/-! ## Calls that are noted -/

def Call.isNoted : Call → Bool
  | capture | input _ => true
  | _ => false

def Journal.Entry.call? : Journal.Entry → Option Call
  | .capturing => some .capture
  | .input event => some (.input event)
  | _ => none

theorem Journal.Entry.call?_of_quiet {entry : Journal.Entry} (quiet : Quiet entry) :
    entry.call? = none := by
  cases entry <;> first | rfl | exact quiet.elim

def Watched.noted (t : Watched σ) : List Call :=
  (t.moments.map Moment.call).filter Call.isNoted

/-! ## Searches -/

namespace Search

structure Told (status : Status) (last? : Option (Nat × Nat × String))
    (t : Search (Watched σ)) : Prop where
  stands : Stands status last? t.journal
  calls : t.journal.filterMap Journal.Entry.call? = t.world.noted

variable {status : Status} {last? : Option (Nat × Nat × String)}

theorem Told.after {t : Search (Watched σ)} (told : t.Told status last?) (w : Surroundings σ)
    {call : Call} (unnoted : call.isNoted = false) (world : σ) :
    Told status last? { t with world := t.world.after w call world } where
  stands := told.stands
  calls := by
    rw [told.calls, Watched.noted, Watched.noted, Watched.after, List.map_cons,
      List.filter_cons_of_neg (by rw [unnoted]; exact Bool.false_ne_true)]

theorem keeps_note {entry : Journal.Entry} (quiet : Quiet entry) :
    Keeps (Told status last?) (Told status last?) (note (σ := Watched σ) entry) := by
  intro t told
  refine ⟨told.stands.note quiet, ?_⟩
  change List.filterMap _ (entry :: t.journal) = _
  rw [List.filterMap_cons_none (Journal.Entry.call?_of_quiet quiet)]
  exact told.calls

theorem keeps_attempt (w : Surroundings σ) {call : Call} (unnoted : call.isNoted = false)
    (a : Attempt σ α) :
    Keeps (Told status last?) (Told status last?) (onWorld (Watched.attempt w call a)) :=
  fun _ told => told.after w unnoted _

theorem keeps_answer (w : Surroundings σ) {call : Call} (unnoted : call.isNoted = false)
    (a : StateM σ α) :
    Keeps (Told status last?) (Told status last?) (onClock (Watched.answer w call a)) :=
  fun _ told => told.after w unnoted _

theorem habit_told (w : Surroundings σ) (last? : Option (Nat × Nat × String)) :
    Habit w.watched (Told .matching last?) where
  remember _ _ told _ := ⟨told.stands, told.calls⟩
  note entry reports := by
    apply keeps_note
    cases entry <;> trivial
  capture := by
    rintro t ⟨told, -⟩
    refine ⟨told.stands.capture, ?_⟩
    exact congrArg (Call.capture :: ·) told.calls
  logicalSize := keeps_attempt w rfl _
  sleep _ := keeps_answer w rfl _
  now := keeps_answer w rfl _

end Search

/-! ## Instructions -/

namespace Session

structure Told (status : Status) (last? : Option (Nat × Nat × String))
    (t : Session (Watched σ)) : Prop where
  search : t.search.Told status last?
  status_eq : t.status = status

variable {status : Status} {last? : Option (Nat × Nat × String)} {t : Session (Watched σ)}

theorem Told.noted (told : t.Told status last?) {entry : Journal.Entry} (quiet : Quiet entry) :
    (t.noted entry).Told status last? :=
  ⟨Search.keeps_note quiet t.search told.search, told.status_eq⟩

theorem Told.dispatched (told : t.Told status last?) (index line : Nat) (keyword : String) :
    (t.noted (.dispatch index line keyword)).Told status (some (index, line, keyword)) :=
  ⟨⟨told.search.stands.dispatch index line keyword, told.search.calls⟩, told.status_eq⟩

theorem Told.enter (told : t.Told .running last?) (started : status ≠ .ready)
    (other : status ≠ .running) : (t.changed status).Told status last? := by
  rw [changed, told.status_eq, if_neg other.symm]
  exact ⟨⟨told.search.stands.enter started other, told.search.calls⟩, rfl⟩

theorem Told.leave (told : t.Told status last?) (phase : IsPhase status) :
    (t.changed .running).Told .running last? := by
  have other : status ≠ .running := by
    rcases phase with rfl | rfl <;> decide
  rw [changed, told.status_eq, if_neg other]
  exact ⟨⟨told.search.stands.leave phase, told.search.calls⟩, rfl⟩

theorem keeps_onSearch {a : Attempt (Search (Watched σ)) α}
    (h : Keeps (Search.Told status last?) (Search.Told status last?) a) :
    Keeps (Told status last?) (Told status last?) (onSearch a) :=
  fun t told => ⟨h t.search told.search, told.status_eq⟩

theorem keeps_told_during {a : Attempt (Session (Watched σ)) α} (phase : IsPhase status)
    (h : Keeps (Told status last?) (Told status last?) a) :
    Keeps (Told .running last?) (Told .running last?) (during status a) := by
  -- The phase is left whether the attempt in it fails or not.
  refine keeps_during ?_ h fun t told => told.leave phase
  intro t told
  rcases phase with rfl | rfl
  · exact told.enter (by decide) (by decide)
  · exact told.enter (by decide) (by decide)

theorem keeps_input (w : World σ) (event : InputEvent) :
    Keeps (Told .acting last?) (Told .acting last?)
      (note (.input event) >>= fun _ => onWorld (w.watched.input event)) := by
  intro t told
  refine ⟨⟨told.search.stands.act event, ?_⟩, told.status_eq⟩
  exact congrArg (Call.input event :: ·) told.search.calls

theorem habit_told (w : World σ) (last? : Option (Nat × Nat × String)) :
    Habit w.watched (Told .running last?) (Told .running last?) where
  weaken _ := id
  note entry remarks := by
    refine keeps_onSearch (Search.keeps_note ?_)
    cases entry <;> trivial
  rebind _ _ told := ⟨told.search, told.status_eq⟩
  read b backed name := by
    obtain ⟨b, -, rfl⟩ := Option.map_eq_some_iff.1 backed
    exact keeps_onSearch (Search.keeps_attempt w.toSurroundings rfl _)
  write b backed name value := by
    obtain ⟨b, -, rfl⟩ := Option.map_eq_some_iff.1 backed
    exact keeps_onSearch (Search.keeps_attempt w.toSurroundings rfl _)
  template id := keeps_onSearch (Search.keeps_attempt w.toSurroundings rfl _)
  logicalSize := keeps_onSearch (Search.keeps_attempt w.toSurroundings rfl _)
  sleep _ := keeps_onSearch (Search.keeps_answer w.toSurroundings rfl _)
  search template policy := keeps_told_during (.inl rfl)
    (keeps_onSearch ((Search.habit_told w.toSurroundings last?).keeps_run template policy))
  act event := keeps_told_during (.inr rfl) (keeps_input w event)

theorem told_launch (w : World σ) (program : Program) (s : Session σ) :
    (s.watched.launch w.watched program).session.Told .running none :=
  ⟨⟨Stands.start, rfl⟩, rfl⟩

end Session

/-! ## Runs -/

namespace Machine

variable {w : World σ} {m n : Machine (Watched σ)} {last? : Option (Nat × Nat × String)}

theorem told_of_made (told : m.session.Told .running last?) {i : Instruction}
    {result : Except Failure Flow} {after : Session (Watched σ)}
    (made : (Session.step w.watched i).on (m.dispatched i) = (result, after)) :
    after.Told .running (some (i.index, i.line, i.keyword)) := by
  have kept := (Session.habit_told w _).keeps_step i _ (told.dispatched i.index i.line i.keyword)
  change Session.Told _ _ ((Session.step w.watched i).on (m.dispatched i)).2 at kept
  rwa [made] at kept

theorem exists_told_of_passes {s : Session σ} {program : Program}
    (passes : Passes w.watched (s.watched.launch w.watched program) m) :
    ∃ last?, m.session.Told .running last? := by
  refine passes.keeps_session (I := fun t => ∃ last?, t.Told .running last?)
    ⟨none, Session.told_launch w program s⟩ ?_ ?_
  · rintro k i result after ⟨last?, told⟩ _ made
    exact ⟨_, told_of_made told made⟩
  · rintro t index line failure ⟨last?, told⟩
    exact ⟨last?, told.noted trivial⟩

end Machine

/--
Whether a report names the instruction that was dispatched last, at its place in the program, where no
`try` around it could skip the failure. In a program that was read, nothing else has its number.
-/
def FailureReport.Names (f : FailureReport) (program : Program) (journal : List Journal.Entry) :
    Prop :=
  Journal.lastDispatch? journal = some (f.index, f.line, f.instruction) ∧
    ∃ around i, (around, i) ∈ program.places ∧ (around.length, i) ∈ program.walk ∧
      f.index = i.index ∧ f.line = i.line ∧ f.instruction = i.keyword ∧
      (f.failure.code = .matchTimeout ∨ f.failure.code = .templateNotFound →
        ∀ j ∈ around, j.isGuard = false) ∧
      ∀ source base, Program.parse source base = .ok program →
        ∀ place ∈ program.places, place.2.index = f.index → place = (around, i)

/-- What holds of every run, by its report, the machine at its end and the calls that it made. -/
structure Session.Protocol (program : Program) (report : Report) (last : Machine σ)
    (calls : List Call) : Prop where
  terminal : report.status.isTerminal = true
  status_eq : last.session.status = report.status
  changes : ∃ phases : List Status, (∀ phase ∈ phases, phase = .matching ∨ phase = .acting) ∧
    Journal.changes last.session.journal = Journal.course phases ++ [(.running, report.status)]
  /-- What the journal has noted are the captures and inputs, in their order. -/
  calls_eq : last.session.journal.filterMap Journal.Entry.call? = calls.filter Call.isNoted
  capturing : ∀ before, .capturing :: before <:+ last.session.journal →
    Journal.status before = .matching
  input : ∀ event before, .input event :: before <:+ last.session.journal →
    Journal.status before = .acting
  frames : last.frames = []
  failure_iff : report.failure.isSome = true ↔ report.status = .failed
  failure : ∀ f, report.failure = some f → f.Names program last.session.journal

namespace Session

theorem Told.path {status : Status} {last? : Option (Nat × Nat × String)}
    {t : Session (Watched σ)} (told : t.Told status last?) (terminal : status.isTerminal = true) :
    ∃ phases : List Status, (∀ phase ∈ phases, phase = .matching ∨ phase = .acting) ∧
      Journal.changes t.journal = Journal.course phases ++ [(.running, status)] := by
  have path := told.search.stands.path
  cases status with
  | completed | failed | aborted => exact path
  | ready | running | matching | acting => cases terminal

theorem isRecoverable_of_code {failure : Failure}
    (code : failure.code = .matchTimeout ∨ failure.code = .templateNotFound) :
    failure.isRecoverable = true := by
  rw [Failure.isRecoverable]
  rcases code with code | code <;> rw [code]

theorem names_of_place {program : Program} {around : List Instruction} {i : Instruction}
    {failure : Failure} {journal : List Journal.Entry} (place : (around, i) ∈ program.places)
    (uncaught : failure.isRecoverable = true → around.any Instruction.isGuard = false)
    (dispatched : Journal.lastDispatch? journal = some (i.index, i.line, i.keyword)) :
    FailureReport.Names ⟨i.index, i.line, i.keyword, failure⟩ program journal := by
  refine ⟨dispatched, around, i, place, Program.mem_walk_of_mem_places place, rfl, rfl, rfl, ?_, ?_⟩
  · intro code j member
    have unguarded := List.any_eq_false.1 (uncaught (isRecoverable_of_code code)) j member
    exact Bool.eq_false_iff.2 unguarded
  · intro source base read other member same
    exact Program.places_unique read member place same

theorem exists_told_of_finish {w : World σ} {program : Program} {s : Session σ}
    {m : Machine (Watched σ)} {out : Session (Watched σ) × Option FailureReport}
    (passes : Machine.Passes w.watched (s.watched.launch w.watched program) m)
    (finish : Finish w.watched m out) :
    ∃ status last?, out.1.Told status last? ∧ status.isTerminal = true ∧
      (out.2.isSome = true ↔ status = .failed) ∧
      ∀ f, out.2 = some f → f.Names program out.1.journal := by
  obtain ⟨last?, told⟩ := Machine.exists_told_of_passes passes
  cases finish with
  | completed _ =>
      exact ⟨.completed, last?, told.enter (by decide) (by decide), rfl, by simp, by simp⟩
  | aborted _ =>
      have closed : (m.session.changed .aborted).Told .aborted last? :=
        told.enter (by decide) (by decide)
      exact ⟨.aborted, last?, closed.noted trivial, rfl, by simp, by simp⟩
  | @gaveUp f below i after _ _ _ made =>
      have closed : (after.changed .aborted).Told .aborted _ :=
        (Machine.told_of_made told made).enter (by decide) (by decide)
      exact ⟨.aborted, _, closed.noted trivial, rfl, by simp, by simp⟩
  | @failed f below i failure after _ frames found made _ uncaught =>
      have closed : (after.changed .failed).Told .failed _ :=
        (Machine.told_of_made told made).enter (by decide) (by decide)
      have noted : Told .failed _ ((after.changed .failed).noted
          (.runFailed i.index i.line failure)) := closed.noted trivial
      obtain ⟨around, place, guarded⟩ := Machine.exists_place_of_passes passes frames found
      refine ⟨.failed, _, noted, rfl, by simp, ?_⟩
      rintro _ ⟨⟩
      exact names_of_place place (fun h => guarded.symm.trans (uncaught h))
        noted.search.stands.dispatch_eq

/--
Every run keeps to the protocol of its status: it starts, goes through phases of matching and acting,
and comes to one final status. Its journal has every capture and input, in the phase where it belongs,
and its report names the instruction that failed.
-/
theorem execute_protocol (w : World σ) (program : Program) (s : Session σ)
    (runId : Option String) :
    Protocol program (s.execute w program runId).1 (s.execute w program runId).2
      ((s.watched.execute w.watched program runId).2.session.world.moments.map Moment.call) := by
  obtain ⟨m, passes, finish⟩ := exists_finish w.watched program s.watched
  obtain ⟨status, last?, told, terminal, failure_iff, failure⟩ :=
    exists_told_of_finish passes finish
  obtain rfl := told.status_eq
  have frames : ((s.watched.launch w.watched program).run w.watched).2.frames = [] :=
    Machine.frames_of_ends (Machine.ends_run w.watched _)
  rw [execute_watched, execute_eq]
  exact {
    terminal
    status_eq := rfl
    changes := told.path terminal
    calls_eq := told.search.calls
    capturing := told.search.stands.capturing
    input := told.search.stands.input
    frames
    failure_iff
    failure }

end Session

end ScreenScript
