import ScreenScript.Proofs.Run.Accord
import ScreenScript.Proofs.Run.Frames

namespace ScreenScript

open Attempt (Keeps)

variable {σ α : Type}

inductive Machine.Dispatches (w : World σ) (start : Machine σ) (i : Instruction)
    (result : Except Failure Flow) : Prop where
  | intro {m : Machine σ} {f : Frame} {below : List Frame} {after : Session σ}
    (passes : Passes w start m) (calm : w.aborted m.session.world = false)
    (frames : m.frames = f :: below) (found : f.body[f.done]? = some i)
    (made : (Session.step w i).on (m.dispatched i) = (result, after))

def Journal.Entry.skip? : Journal.Entry → Option (Nat × Nat × Failure)
  | .skipped index line failure => some (index, line, failure)
  | _ => none

def Journal.skips (journal : List Journal.Entry) : List (Nat × Nat × Failure) :=
  journal.filterMap Journal.Entry.skip?

open Journal (skips)

variable {list : List (Nat × Nat × Failure)}

theorem Journal.skips_cons {entry : Journal.Entry} (other : entry.skip? = none)
    (journal : List Journal.Entry) : skips (entry :: journal) = skips journal :=
  List.filterMap_cons_none other

namespace Search

theorem keeps_skips_note (entry : Journal.Entry) (other : entry.skip? = none) :
    Keeps (fun s => skips s.journal = list) (fun s => skips s.journal = list)
      (note (σ := σ) entry) := by
  intro s same
  change skips (entry :: s.journal) = list
  rw [Journal.skips_cons other, same]

theorem habit_skips (w : Surroundings σ) (list : List (Nat × Nat × Failure)) :
    Habit w fun s => skips s.journal = list where
  remember _ _ same _ := same
  note entry reports := by
    apply keeps_skips_note entry
    cases entry <;> first | rfl | exact reports.elim
  capture s same := keeps_skips_note .capturing rfl s same.1
  logicalSize _ := id
  sleep _ _ := id
  now _ := id

end Search

namespace Session

theorem skips_noted (s : Session σ) (entry : Journal.Entry) (other : entry.skip? = none) :
    skips (s.noted entry).journal = skips s.journal :=
  Journal.skips_cons other s.journal

theorem skips_changed (s : Session σ) (status : Status) :
    skips (s.changed status).journal = skips s.journal := by
  unfold changed
  split
  · rfl
  · exact skips_noted s _ rfl

theorem keeps_skips_during (status : Status) {a : Attempt (Session σ) α}
    (h : Keeps (fun s => skips s.journal = list) (fun s => skips s.journal = list) a) :
    Keeps (fun s => skips s.journal = list) (fun s => skips s.journal = list) (during status a) :=
  keeps_during (fun s same => (skips_changed s status).trans same) h
    fun s same => (skips_changed s .running).trans same

theorem habit_skips (w : World σ) (list : List (Nat × Nat × Failure)) :
    Habit w (fun s => skips s.journal = list) (fun s => skips s.journal = list) where
  weaken _ := id
  note entry remarks s same := by
    have other : entry.skip? = none := by
      cases entry <;> first | rfl | exact remarks.elim
    exact (skips_noted s entry other).trans same
  rebind _ _ := id
  read _ _ _ _ := id
  write _ _ _ _ _ := id
  template _ _ := id
  logicalSize _ := id
  sleep _ _ := id
  search template policy := by
    apply keeps_skips_during
    exact fun s same => (Search.habit_skips w.toSurroundings list).keeps_run template policy s.search same
  act event := by
    apply keeps_skips_during
    exact fun s same => (skips_noted s (.input event) rfl).trans same

end Session

namespace Machine

variable {w : World σ} {start m : Machine σ}

theorem skips_of_made {i : Instruction} {result : Except Failure Flow} {after : Session σ}
    (made : (Session.step w i).on (m.dispatched i) = (result, after)) :
    skips after.journal = skips m.session.journal := by
  have noted : skips (m.dispatched i).journal = skips m.session.journal :=
    Session.skips_noted m.session _ rfl
  have kept := (Session.habit_skips w _).keeps_step i (m.dispatched i) noted
  rwa [made] at kept

def Explained (w : World σ) (start : Machine σ) (list : List (Nat × Nat × Failure)) : Prop :=
  ∀ index line failure, (index, line, failure) ∈ list →
    ∃ i, start.Dispatches w i (.error failure) ∧ index = i.index ∧ line = i.line

theorem explained_of_passes (none : skips start.session.journal = []) (passes : Passes w start m) :
    Explained w start (skips m.session.journal) := by
  induction passes with
  | here =>
      rw [none]
      nofun
  | @on m next passes moves ih =>
      cases moves with
      | again | left => exact ih
      | did calm frames found made =>
          rw [skips_of_made made]
          exact ih
      | @skipped f below i failure session calm frames found made =>
          change Explained w start ((i.index, i.line, failure) :: skips session.journal)
          rw [skips_of_made made]
          intro index line failure' member
          rcases List.mem_cons.1 member with new | old
          · cases new
            exact ⟨i, .intro passes calm frames found made, rfl, rfl⟩
          · exact ih index line failure' old

end Machine

/-! ## Runs of programs -/

variable {w : World σ} {program : Program} {s : Session σ}

theorem Machine.Dispatches.exists_place {i : Instruction} {result : Except Failure Flow}
    (h : Dispatches w (s.launch w program) i result) : ∃ around, (around, i) ∈ program.places := by
  obtain ⟨passes, calm, frames, found, made⟩ := h
  obtain ⟨around, place, -⟩ := Machine.exists_place_of_passes passes frames found
  exact ⟨around, place⟩

namespace Session

theorem skips_launch (w : World σ) (program : Program) (s : Session σ) :
    skips (s.launch w program).session.journal = [] :=
  rfl

theorem explained_of_finish {m : Machine σ} {out : Session σ × Option FailureReport}
    (passes : Machine.Passes w (s.launch w program) m) (finish : Finish w m out) :
    Machine.Explained w (s.launch w program) (skips out.1.journal) := by
  have explained := Machine.explained_of_passes (skips_launch w program s) passes
  cases finish with
  | completed calm => rwa [skips_changed]
  | aborted asked =>
      rw [skips_noted _ _ rfl, skips_changed]
      exact explained
  | gaveUp calm frames found made =>
      rw [skips_noted _ _ rfl, skips_changed, Machine.skips_of_made made]
      exact explained
  | failed calm frames found made other uncaught =>
      rw [skips_noted _ _ rfl, skips_changed, Machine.skips_of_made made]
      exact explained

theorem exists_dispatches_of_skipped {runId : Option String} {index line : Nat} {failure : Failure}
    (h : .skipped index line failure ∈ (s.execute w program runId).2.session.journal) :
    ∃ i, (s.launch w program).Dispatches w i (.error failure) ∧ index = i.index ∧ line = i.line := by
  obtain ⟨m, passes, finish⟩ := exists_finish w program s
  rw [execute_eq] at h
  exact explained_of_finish passes finish index line failure (List.mem_filterMap.2 ⟨_, h, rfl⟩)

theorem exists_dispatches_of_failure {runId : Option String} {f : FailureReport}
    (h : (s.execute w program runId).1.failure = some f) :
    ∃ i, (s.launch w program).Dispatches w i (.error f.failure) ∧
      f.index = i.index ∧ f.line = i.line := by
  obtain ⟨m, passes, finish⟩ := exists_finish w program s
  rw [execute_eq] at h
  generalize s.settled w program = out at finish h
  cases finish with
  | completed | aborted | gaveUp => cases h
  | failed calm frames found made other uncaught =>
      cases h
      exact ⟨_, .intro passes calm frames found made, rfl, rfl⟩

end Session

end ScreenScript
