import Mathlib.Logic.Function.Basic
import ScreenScript.Proofs.Variables.Reopening

/-!
# Files of variables that are shared

Several handles may be open on one file of variables. Each of them reads the file once, when it is opened,
and saves all its variables with every change: it makes the change in memory, writes the draft and
replaces the file by it, with steps of other handles in between. Reading the file, writing the draft and
replacing the file are one step each, and such steps in a row are a call (`runs_insert_iff`). All handles
use one draft, so if two saves overlap one of them fails for want of it (`Step.tangled`). As long as none
fails, the file has the variables of the handle that saved last and nothing else (`Runs.savedBy`): what
another one saved is lost unless the last one found it there when it was opened (`saved_last`).
-/

namespace ScreenScript.VariableFile

inductive Stage where
  | idle
  /-- The change is made in memory, and the directory of the file is there. -/
  | begun
  | drafted

/-- A disk, and the handles that are open with the variables that they have in memory. -/
structure Shared (ι σ : Type) where
  disk : σ
  handles : ι → Option (NameMap Entry × Stage)

/-- A step of a handle. All of them succeed. -/
inductive Event (ι : Type) where
  | opened (handle : ι) (entries : NameMap Entry)
  | begun (handle : ι) (now : Timestamp) (name : String) (value : Value)
  | drafted (handle : ι)
  | replaced (handle : ι)

variable {ι σ : Type}

def Event.handle : Event ι → ι
  | opened handle _ | begun handle .. | drafted handle | replaced handle => handle

def makeDirectory (d : Disk σ) (path : String) (disk : σ) : Except Disk.Fault Unit × σ :=
  match (Path.parent? path).filter (!·.isEmpty) with
  | some directory => d.makePrivate directory disk
  | none => (.ok (), disk)

variable [DecidableEq ι] {d : Disk σ} {Fit : σ → Prop} {path : String} {s m s' : Shared ι σ}
  {event : Event ι} {events before after : List (Event ι)} {h : ι} {entries : NameMap Entry}
  {stage : Stage}

inductive Step (d : Disk σ) (path : String) (s : Shared ι σ) : Event ι → Shared ι σ → Prop where
  | opened {h : ι} {entries : NameMap Entry} (fresh : s.handles h = none)
    (loaded : load d s.disk path = .ok { path, entries }) :
    Step d path s (.opened h entries)
      ⟨s.disk, Function.update s.handles h (some (entries, .idle))⟩
  | begun {h : ι} {entries : NameMap Entry} {disk : σ} (now : Timestamp) (name : String) (value : Value)
    (idle : s.handles h = some (entries, .idle)) (made : makeDirectory d path s.disk = (.ok (), disk)) :
    Step d path s (.begun h now name value)
      ⟨disk, Function.update s.handles h (some (entries.insert name ⟨value, now⟩, .begun))⟩
  | drafted {h : ι} {entries : NameMap Entry} {disk : σ} (begun : s.handles h = some (entries, .begun))
    (written : d.writeText (draftPath path) (write entries) s.disk = (.ok (), disk)) :
    Step d path s (.drafted h) ⟨disk, Function.update s.handles h (some (entries, .drafted))⟩
  | replaced {h : ι} {entries : NameMap Entry} {disk : σ}
    (drafted : s.handles h = some (entries, .drafted))
    (moved : d.replace (draftPath path) path s.disk = (.ok (), disk)) :
    Step d path s (.replaced h) ⟨disk, Function.update s.handles h (some (entries, .idle))⟩

inductive Runs (d : Disk σ) (path : String) : Shared ι σ → List (Event ι) → Shared ι σ → Prop where
  | nil {s : Shared ι σ} : Runs d path s [] s
  | cons {s m s' : Shared ι σ} {event : Event ι} {events : List (Event ι)}
    (step : Step d path s event m) (rest : Runs d path m events s') : Runs d path s (event :: events) s'

theorem Runs.append (run : Runs d path s before m) (rest : Runs d path m after s') :
    Runs d path s (before ++ after) s' := by
  induction run with
  | nil => exact rest
  | cons step _ ih => exact .cons step (ih rest)

theorem Runs.exists_of_append (run : Runs d path s (before ++ after) s') :
    ∃ m, Runs d path s before m ∧ Runs d path m after s' := by
  induction before generalizing s with
  | nil => exact ⟨s, .nil, run⟩
  | cons event before ih =>
      cases run with
      | cons step rest =>
          obtain ⟨m, first, last⟩ := ih rest
          exact ⟨m, .cons step first, last⟩

/-! ## Calls that nobody comes in between -/

theorem onDisk_on_eq_ok {aim : String} {operation : σ → Except Disk.Fault Unit × σ}
    {file file' : VariableFile} {disk disk' : σ} :
    (onDisk aim operation).on (file, disk) = (.ok (), file', disk') ↔
      file' = file ∧ operation disk = (.ok (), disk') := by
  rw [onDisk_on]
  rcases operation disk with ⟨outcome, after⟩
  cases outcome with
  | error fault => simp
  | ok _ => simp [eq_comm]

theorem save_on_eq_ok {file file' : VariableFile} {disk disk' : σ} :
    (save d).on (file, disk) = (.ok (), file', disk') ↔
      file' = file ∧ ∃ disk₁ disk₂, makeDirectory d file.path disk = (.ok (), disk₁) ∧
        d.writeText (draftPath file.path) (write file.entries) disk₁ = (.ok (), disk₂) ∧
        d.replace (draftPath file.path) file.path disk₂ = (.ok (), disk') := by
  have got : (get : Attempt (VariableFile × σ) _).on (file, disk) = (.ok (file, disk), file, disk) := rfl
  have finish : ∀ {disk₁}, (do
        onDisk "write" (d.writeText (draftPath file.path) (write file.entries))
        onDisk "replace" (d.replace (draftPath file.path) file.path) :
          Attempt (VariableFile × σ) Unit).on (file, disk₁) = (.ok (), file', disk') ↔
      file' = file ∧ ∃ disk₂,
        d.writeText (draftPath file.path) (write file.entries) disk₁ = (.ok (), disk₂) ∧
        d.replace (draftPath file.path) file.path disk₂ = (.ok (), disk') := by
    intro disk₁
    rw [Attempt.on_bind_eq_ok]
    constructor
    · rintro ⟨⟨⟩, ⟨file₂, disk₂⟩, first, last⟩
      obtain ⟨rfl, written⟩ := onDisk_on_eq_ok.1 first
      obtain ⟨rfl, moved⟩ := onDisk_on_eq_ok.1 last
      exact ⟨rfl, disk₂, written, moved⟩
    · rintro ⟨rfl, disk₂, written, moved⟩
      exact ⟨(), (_, disk₂), onDisk_on_eq_ok.2 ⟨rfl, written⟩, onDisk_on_eq_ok.2 ⟨rfl, moved⟩⟩
  unfold save makeDirectory
  rw [Attempt.on_bind, got]
  dsimp only
  cases parent : (Path.parent? file.path).filter (!·.isEmpty) with
  | none =>
      constructor
      · intro saved
        obtain ⟨same, disk₂, written, moved⟩ := finish.1 saved
        exact ⟨same, disk, disk₂, rfl, written, moved⟩
      · rintro ⟨same, disk₁, disk₂, made, written, moved⟩
        cases made
        exact finish.2 ⟨same, disk₂, written, moved⟩
  | some directory =>
      constructor
      · intro saved
        obtain ⟨⟨⟩, ⟨file₁, disk₁⟩, first, later⟩ := Attempt.on_bind_eq_ok.1 saved
        obtain ⟨rfl, made⟩ := onDisk_on_eq_ok.1 first
        obtain ⟨same, disk₂, written, moved⟩ := finish.1 later
        exact ⟨same, disk₁, disk₂, made, written, moved⟩
      · rintro ⟨same, disk₁, disk₂, made, written, moved⟩
        have later := finish.2 ⟨same, disk₂, written, moved⟩
        exact Attempt.on_bind_eq_ok.2 ⟨(), (file, disk₁), onDisk_on_eq_ok.2 ⟨rfl, made⟩, later⟩

theorem runs_insert_iff {now : Timestamp} {name : String} {value : Value}
    (idle : s.handles h = some (entries, .idle)) :
    Runs d path s [.begun h now name value, .drafted h, .replaced h] s' ↔
      ∃ file disk, (insert d now name value).on ({ path, entries }, s.disk) = (.ok (), file, disk) ∧
        s' = ⟨disk, Function.update s.handles h (some (file.entries, .idle))⟩ := by
  have called (file : VariableFile) (disk : σ) :
      (save d).on ({ path, entries := entries.insert name ⟨value, now⟩ }, s.disk) =
        (.ok (), file, disk) ↔ _ := save_on_eq_ok
  constructor
  · intro run
    rcases run with _ | ⟨first, _ | ⟨second, _ | ⟨third, rest⟩⟩⟩
    cases rest
    cases first with
    | begun now name value idle' made =>
        cases idle.symm.trans idle'
        cases second with
        | drafted begun written =>
            cases (Function.update_self ..).symm.trans begun
            cases third with
            | replaced drafted moved =>
                cases (Function.update_self ..).symm.trans drafted
                refine ⟨_, _, (called _ _).2 ⟨rfl, _, _, made, written, moved⟩, ?_⟩
                dsimp only
                rw [Function.update_idem, Function.update_idem]
  · rintro ⟨file, disk, inserted, rfl⟩
    obtain ⟨rfl, disk₁, disk₂, made, written, moved⟩ := (called file disk).1 inserted
    let later (stage : Stage) := Function.update s.handles h
      (some ((entries.insert name ⟨value, now⟩ : NameMap Entry), stage))
    have again (stage stage' : Stage) : Function.update (later stage) h
        (some (entries.insert name ⟨value, now⟩, stage')) = later stage' := Function.update_idem ..
    have first : Step d path s (.begun h now name value) ⟨disk₁, later .begun⟩ :=
      .begun now name value idle made
    have second : Step d path ⟨disk₁, later .begun⟩ (.drafted h) ⟨disk₂, later .drafted⟩ := by
      rw [← again .begun .drafted]
      exact .drafted (Function.update_self ..) written
    have third : Step d path ⟨disk₂, later .drafted⟩ (.replaced h) ⟨disk, later .idle⟩ := by
      rw [← again .drafted .idle]
      exact .replaced (Function.update_self ..) moved
    exact .cons first (.cons second (.cons third .nil))

/-! ## One step -/

theorem makeDirectory_laws (laws : d.Drafts Fit path (draftPath path)) {disk : σ} (fit : Fit disk) :
    Fit (makeDirectory d path disk).2 ∧
      d.readText path (makeDirectory d path disk).2 = d.readText path disk ∧
      d.readText (draftPath path) (makeDirectory d path disk).2 = d.readText (draftPath path) disk := by
  unfold makeDirectory
  cases parent : (Path.parent? path).filter (!·.isEmpty) with
  | none => exact ⟨fit, rfl, rfl⟩
  | some directory =>
      obtain ⟨above, named⟩ := Option.filter_eq_some_iff.1 parent
      have named : directory.isEmpty = false := by simpa using named
      exact ⟨laws.makePrivate_fit above named fit, laws.makePrivate_keeps above named fit,
        laws.makePrivate_keepsDraft above named fit⟩

theorem Step.handles_of_ne (step : Step d path s event s') (ne : h ≠ event.handle) :
    s'.handles h = s.handles h := by
  cases step with
  | opened | begun | drafted | replaced => exact Function.update_of_ne ne ..

inductive Moved (h : ι) (entries : NameMap Entry) : Stage → Event ι → NameMap Entry → Stage → Prop where
  | other {stage : Stage} {event : Event ι} (ne : h ≠ event.handle) :
    Moved h entries stage event entries stage
  | begun (now : Timestamp) (name : String) (value : Value) :
    Moved h entries .idle (.begun h now name value) (entries.insert name ⟨value, now⟩) .begun
  | drafted : Moved h entries .begun (.drafted h) entries .drafted
  | replaced : Moved h entries .drafted (.replaced h) entries .idle

theorem Step.moved (step : Step d path s event s') (held : s.handles h = some (entries, stage)) :
    ∃ entries' stage', s'.handles h = some (entries', stage') ∧
      Moved h entries stage event entries' stage' := by
  by_cases this : h = event.handle
  · subst this
    cases step with
    | opened fresh loaded => cases fresh.symm.trans held
    | begun now name value idle made =>
        cases idle.symm.trans held
        exact ⟨_, _, Function.update_self .., .begun now name value⟩
    | drafted begun written =>
        cases begun.symm.trans held
        exact ⟨_, _, Function.update_self .., .drafted⟩
    | replaced drafted moved =>
        cases drafted.symm.trans held
        exact ⟨_, _, Function.update_self .., .replaced⟩
  · exact ⟨entries, stage, (step.handles_of_ne this).trans held, .other this⟩

theorem Step.fit (step : Step d path s event s') (laws : d.Drafts Fit path (draftPath path))
    (fit : Fit s.disk) : Fit s'.disk := by
  cases step with
  | opened => exact fit
  | begun now name value idle made =>
      have kept := (makeDirectory_laws laws fit).1
      rwa [made] at kept
  | @drafted h entries disk begun written =>
      have kept : Fit (d.writeText (draftPath path) (write entries) s.disk).2 := laws.writeText_fit fit
      rwa [written] at kept
  | replaced drafted moved =>
      have kept := laws.replace_fit fit
      rwa [moved] at kept

theorem Step.readText_eq (step : Step d path s event s') (laws : d.Drafts Fit path (draftPath path))
    (fit : Fit s.disk) (other : event ≠ .replaced event.handle) :
    d.readText path s'.disk = d.readText path s.disk := by
  cases step with
  | opened => rfl
  | begun now name value idle made =>
      have kept := (makeDirectory_laws laws fit).2.1
      rwa [made] at kept
  | @drafted h entries disk begun written =>
      have kept : d.readText path (d.writeText (draftPath path) (write entries) s.disk).2 =
        d.readText path s.disk := laws.writeText_keeps fit
      rwa [written] at kept
  | replaced => exact absurd rfl other

def Shared.Drafting (s : Shared ι σ) (h : ι) : Prop :=
  ∃ entries, s.handles h = some (entries, .drafted)

theorem Step.drafting (step : Step d path s event s') (drafting : s.Drafting h) :
    event = .replaced h ∨ h ≠ event.handle ∧ s'.Drafting h := by
  obtain ⟨entries, held⟩ := drafting
  obtain ⟨entries', stage', held', moved⟩ := step.moved held
  cases moved with
  | other ne => exact .inr ⟨ne, entries, held'⟩
  | replaced => exact .inl rfl

theorem Step.draft_of_replaced (step : Step d path s (.replaced h) s')
    (laws : d.Drafts Fit path (draftPath path)) (fit : Fit s.disk) :
    d.readText (draftPath path) s.disk ≠ .error .notFound ∧
      d.readText (draftPath path) s'.disk = .error .notFound ∧
      d.readText path s'.disk = d.readText (draftPath path) s.disk := by
  cases step with
  | replaced drafted moved =>
      have succeeds : (d.replace (draftPath path) path s.disk).1 = .ok () := by rw [moved]
      have gone := laws.replace_takesDraft fit succeeds
      have read := laws.replace_reads fit succeeds
      rw [moved] at gone read
      exact ⟨laws.replace_needsDraft fit succeeds, gone, read⟩

/-! ## Saves that overlap -/

inductive Tangled (d : Disk σ) (path : String) (s : Shared ι σ) : Prop where
  | two {h h' : ι} (ne : h ≠ h') (first : s.Drafting h) (second : s.Drafting h')
  | lost {h : ι} (drafting : s.Drafting h)
    (gone : d.readText (draftPath path) s.disk = .error .notFound)

theorem Step.tangled (step : Step d path s event s') (laws : d.Drafts Fit path (draftPath path))
    (fit : Fit s.disk) (tangled : Tangled d path s) : Tangled d path s' := by
  cases tangled with
  | @two h h' ne first second =>
      -- The handle that replaces the file takes the only draft, which the other one waits for.
      rcases step.drafting first with rfl | ⟨-, first'⟩
      · rcases step.drafting second with same | ⟨-, second'⟩
        · cases same
          exact absurd rfl ne
        · exact .lost second' (step.draft_of_replaced laws fit).2.1
      · rcases step.drafting second with rfl | ⟨-, second'⟩
        · exact .lost first' (step.draft_of_replaced laws fit).2.1
        · exact .two ne first' second'
  | @lost h drafting gone =>
      rcases step.drafting drafting with rfl | ⟨other, drafting'⟩
      · exact absurd gone (step.draft_of_replaced laws fit).1
      · cases step with
        | opened fresh loaded => exact .lost drafting' gone
        | begun now name value idle made =>
            have kept := (makeDirectory_laws laws fit).2.2
            rw [made] at kept
            exact .lost drafting' (kept.trans gone)
        | drafted begun written =>
            -- There is a draft again, but now two handles want it.
            exact .two other drafting' ⟨_, Function.update_self ..⟩
        | replaced drafted moved =>
            have replaced : Step d path s (.replaced _) _ := .replaced drafted moved
            exact absurd gone (replaced.draft_of_replaced laws fit).1

/-- Whether all open handles have finished their changes. -/
def Shared.Quiet (s : Shared ι σ) : Prop :=
  ∀ h entries stage, s.handles h = some (entries, stage) → stage = .idle

omit [DecidableEq ι] in
theorem Shared.Quiet.not_drafting (quiet : s.Quiet) (h : ι) : ¬ s.Drafting h := by
  rintro ⟨entries, held⟩
  cases quiet h entries _ held

theorem Runs.fit (run : Runs d path s events s') (laws : d.Drafts Fit path (draftPath path))
    (fit : Fit s.disk) : Fit s'.disk := by
  induction run with
  | nil => exact fit
  | cons step rest ih => exact ih (step.fit laws fit)

theorem Runs.not_tangled (run : Runs d path s events s') (laws : d.Drafts Fit path (draftPath path))
    (fit : Fit s.disk) (quiet : s'.Quiet) : ¬ Tangled d path s := by
  intro tangled
  induction run with
  | nil =>
      cases tangled with
      | two ne first second => exact quiet.not_drafting _ first
      | lost drafting gone => exact quiet.not_drafting _ drafting
  | cons step rest ih => exact ih (step.fit laws fit) quiet (step.tangled laws fit tangled)

/-! ## What the draft and the file hold -/

def DraftHeld (d : Disk σ) (path : String) (s : Shared ι σ) : Prop :=
  ∀ h entries, s.handles h = some (entries, .drafted) →
    d.readText (draftPath path) s.disk = .ok (write entries)

theorem Step.draftHeld (step : Step d path s event s') (laws : d.Drafts Fit path (draftPath path))
    (fit : Fit s.disk) (untangled : ¬ Tangled d path s') (held : DraftHeld d path s) :
    DraftHeld d path s' := by
  intro k entries' drafted'
  by_cases same : k = event.handle
  · subst same
    cases step with
    | opened fresh loaded => cases (Function.update_self ..).symm.trans drafted'
    | begun now name value idle made => cases (Function.update_self ..).symm.trans drafted'
    | replaced drafted moved => cases (Function.update_self ..).symm.trans drafted'
    | drafted begun written =>
        cases (Function.update_self ..).symm.trans drafted'
        have succeeds : (d.writeText (draftPath path) (write entries') s.disk).1 = .ok () := by
          rw [written]
        have read := laws.writeText_reads fit succeeds
        rwa [written] at read
  · have drafted := (step.handles_of_ne same).symm.trans drafted'
    have before := held k entries' drafted
    cases step with
    | opened fresh loaded => exact before
    | begun now name value idle made =>
        have kept := (makeDirectory_laws laws fit).2.2
        rw [made] at kept
        exact kept.trans before
    | drafted begun written =>
        -- The draft would be overwritten, but then the saves overlap, and one fails later on.
        exact absurd (.two same ⟨_, drafted'⟩ ⟨_, Function.update_self ..⟩) untangled
    | replaced drafted₁ moved =>
        have replaced : Step d path s (.replaced _) _ := .replaced drafted₁ moved
        exact absurd (.lost ⟨_, drafted'⟩ (replaced.draft_of_replaced laws fit).2.1) untangled

theorem Runs.draftHeld (run : Runs d path s before m) (rest : Runs d path m after s')
    (laws : d.Drafts Fit path (draftPath path)) (fit : Fit s.disk) (quiet : s'.Quiet)
    (held : DraftHeld d path s) : DraftHeld d path m := by
  induction run with
  | nil => exact held
  | cons step run ih =>
      have fit' := step.fit laws fit
      have untangled := (run.append rest).not_tangled laws fit' quiet
      exact ih rest fit' (step.draftHeld laws fit untangled held)

def SavedBy (d : Disk σ) (path : String) (s : Shared ι σ) (h : ι) : Prop :=
  ∃ entries stage, s.handles h = some (entries, stage) ∧
    (stage = .idle → d.readText path s.disk = .ok (write entries))

theorem Step.savedBy_of_replaced (step : Step d path s (.replaced h) s')
    (laws : d.Drafts Fit path (draftPath path)) (fit : Fit s.disk) (held : DraftHeld d path s) :
    SavedBy d path s' h := by
  have read := (step.draft_of_replaced laws fit).2.2
  cases step with
  | replaced drafted moved =>
      exact ⟨_, _, Function.update_self .., fun _ => read.trans (held h _ drafted)⟩

theorem Step.savedBy (step : Step d path s event s') (laws : d.Drafts Fit path (draftPath path))
    (fit : Fit s.disk) (other : event ≠ .replaced event.handle) (saved : SavedBy d path s h) :
    SavedBy d path s' h := by
  obtain ⟨entries, stage, held, text⟩ := saved
  obtain ⟨entries', stage', held', moved⟩ := step.moved held
  have same := step.readText_eq laws fit other
  cases moved with
  | other ne => exact ⟨entries, stage, held', fun idle => same.trans (text idle)⟩
  | begun | drafted => exact ⟨_, _, held', nofun⟩
  | replaced => exact absurd rfl other

/-- Whether the file is not replaced in the course of some events. -/
def Kept (events : List (Event ι)) : Prop :=
  ∀ h, .replaced h ∉ events

omit [DecidableEq ι] in
theorem Kept.head (kept : Kept (event :: events)) : event ≠ .replaced event.handle :=
  fun same => kept event.handle (List.mem_cons.2 (.inl same.symm))

omit [DecidableEq ι] in
theorem Kept.tail (kept : Kept (event :: events)) : Kept events :=
  fun h member => kept h (List.mem_cons_of_mem _ member)

theorem Runs.savedBy (run : Runs d path s events s') (laws : d.Drafts Fit path (draftPath path))
    (fit : Fit s.disk) (kept : Kept events) (saved : SavedBy d path s h) : SavedBy d path s' h := by
  induction run with
  | nil => exact saved
  | cons step rest ih => exact ih (step.fit laws fit) kept.tail (step.savedBy laws fit kept.head saved)

theorem Runs.readText_eq (run : Runs d path s events s') (laws : d.Drafts Fit path (draftPath path))
    (fit : Fit s.disk) (kept : Kept events) : d.readText path s'.disk = d.readText path s.disk := by
  induction run with
  | nil => rfl
  | cons step rest ih =>
      exact (ih (step.fit laws fit) kept.tail).trans (step.readText_eq laws fit kept.head)

/-! ## What the handles have in memory -/

def Event.inserted? (h : ι) : Event ι → Option (String × Entry)
  | begun handle now name value => if handle = h then some (name, ⟨value, now⟩) else none
  | opened .. | drafted _ | replaced _ => none

/-- The bindings that a handle makes in the course of some events. -/
def inserted (h : ι) (events : List (Event ι)) : List (String × Entry) :=
  events.filterMap (Event.inserted? h)

def overwritten (entries : NameMap Entry) (changes : List (String × Entry)) : NameMap Entry :=
  changes.foldl (fun entries (name, e) => entries.insert name e) entries

theorem inserted?_of_ne (ne : h ≠ event.handle) : event.inserted? h = none := by
  cases event with
  | begun handle now name value => exact if_neg (Ne.symm ne)
  | opened | drafted | replaced => rfl

theorem inserted_eq_nil (other : ∀ event ∈ events, event.handle ≠ h) : inserted h events = [] :=
  List.filterMap_eq_nil_iff.2 fun event member => inserted?_of_ne (other event member).symm

theorem inserted_append (h : ι) (before after : List (Event ι)) :
    inserted h (before ++ after) = inserted h before ++ inserted h after :=
  List.filterMap_append ..

theorem Step.memory (step : Step d path s event s') (held : s.handles h = some (entries, stage)) :
    ∃ stage', s'.handles h = some (overwritten entries (inserted h [event]), stage') := by
  obtain ⟨entries', stage', held', moved⟩ := step.moved held
  refine ⟨stage', held'.trans ?_⟩
  cases moved with
  | other ne =>
      rw [inserted, List.filterMap_cons_none (inserted?_of_ne ne)]
      rfl
  | begun now name value => simp [inserted, Event.inserted?, overwritten]
  | drafted | replaced => rfl

theorem Runs.memory (run : Runs d path s events s') (held : s.handles h = some (entries, stage)) :
    ∃ stage', s'.handles h = some (overwritten entries (inserted h events), stage') := by
  induction run generalizing entries stage with
  | nil => exact ⟨stage, held⟩
  | @cons s m s' event events step rest ih =>
      obtain ⟨stage', held'⟩ := step.memory held
      obtain ⟨stage'', held''⟩ := ih held'
      refine ⟨stage'', ?_⟩
      rw [← List.singleton_append, inserted_append, overwritten, List.foldl_append]
      exact held''

theorem Runs.handles_of_ne (run : Runs d path s events s') (other : ∀ event ∈ events, event.handle ≠ h) :
    s'.handles h = s.handles h := by
  induction run with
  | nil => rfl
  | cons step rest ih =>
      have later := ih fun event member => other event (List.mem_cons_of_mem _ member)
      exact later.trans (step.handles_of_ne (other _ List.mem_cons_self).symm)

theorem Runs.handles_of_fresh (run : Runs d path s events s') (fresh : s.handles h = none) :
    (∀ event ∈ events, event.handle ≠ h) ∨
    ∃ before loaded after, events = before ++ .opened h loaded :: after ∧
      (∀ event ∈ before, event.handle ≠ h) ∧
      ∃ stage, s'.handles h = some (overwritten loaded (inserted h events), stage) := by
  induction run with
  | nil => exact .inl nofun
  | @cons s m s' event events step rest ih =>
      by_cases this : h = event.handle
      · subst this
        right
        cases step with
        | begun now name value idle made => cases fresh.symm.trans idle
        | drafted begun written => cases fresh.symm.trans begun
        | replaced drafted moved => cases fresh.symm.trans drafted
        | @opened h loaded fresh' read =>
            obtain ⟨stage, held⟩ := rest.memory (Function.update_self ..)
            exact ⟨[], loaded, events, rfl, nofun, stage, held⟩
      · have nothing : inserted h (event :: events) = inserted h events :=
          List.filterMap_cons_none (inserted?_of_ne this)
        rcases ih ((step.handles_of_ne this).trans fresh) with others | found
        · left
          intro event' member
          rcases List.mem_cons.1 member with rfl | later
          · exact Ne.symm this
          · exact others event' later
        · obtain ⟨before, loaded, after, rfl, others, held⟩ := found
          refine .inr ⟨event :: before, loaded, after, rfl, ?_, by rwa [nothing]⟩
          intro event' member
          rcases List.mem_cons.1 member with rfl | later
          · exact Ne.symm this
          · exact others event' later

/-! ## Changes that are not saved -/

def Shared.Busy (s : Shared ι σ) (h : ι) : Prop :=
  ∃ entries stage, s.handles h = some (entries, stage) ∧ stage ≠ .idle

theorem Step.busy (step : Step d path s event s') (other : event ≠ .replaced event.handle)
    (busy : s.Busy h) : s'.Busy h := by
  obtain ⟨entries, stage, held, ne⟩ := busy
  obtain ⟨entries', stage', held', moved⟩ := step.moved held
  cases moved with
  | other => exact ⟨entries, stage, held', ne⟩
  | begun | drafted => exact ⟨_, _, held', nofun⟩
  | replaced => exact absurd rfl other

theorem Runs.busy (run : Runs d path s events s') (kept : Kept events) (busy : s.Busy h) : s'.Busy h := by
  induction run with
  | nil => exact busy
  | cons step rest ih => exact ih kept.tail (step.busy kept.head busy)

theorem Runs.inserted_eq_nil_of_kept (run : Runs d path s events s') (kept : Kept events)
    (quiet : s'.Quiet) (h : ι) : inserted h events = [] := by
  induction run with
  | nil => rfl
  | @cons s m s' event events step rest ih =>
      have later := ih kept.tail quiet
      cases made : event.inserted? h with
      | none => exact (List.filterMap_cons_none made).trans later
      | some change =>
          -- A change that was begun keeps its handle busy until the file is replaced.
          have this : h = event.handle := by
            by_contra ne
            rw [inserted?_of_ne ne] at made
            cases made
          subst this
          have busy : m.Busy event.handle := by
            cases step with
            | begun => exact ⟨_, _, Function.update_self .., nofun⟩
            | opened | drafted | replaced => cases made
          obtain ⟨entries, stage, held, ne⟩ := rest.busy kept.tail busy
          exact absurd (quiet _ _ _ held) ne

/-! ## Whole runs -/

theorem Runs.savedBy_last (run : Runs d path s (before ++ .replaced h :: after) s')
    (laws : d.Drafts Fit path (draftPath path)) (fit : Fit s.disk) (quiet : s'.Quiet)
    (kept : Kept after) (held : DraftHeld d path s) : SavedBy d path s' h := by
  obtain ⟨m, first, rest⟩ := run.exists_of_append
  have fit' := first.fit laws fit
  have held' := first.draftHeld rest laws fit quiet held
  cases rest with
  | cons step rest =>
      exact rest.savedBy laws (step.fit laws fit') kept (step.savedBy_of_replaced laws fit' held')

theorem Runs.text_eq (run : Runs d path s events s') (laws : d.Drafts Fit path (draftPath path))
    (fit : Fit s.disk) (fresh : ∀ h, s.handles h = none) (quiet : s'.Quiet)
    (last : ∃ before after, events = before ++ .replaced h :: after ∧ Kept after) :
    ∃ before loaded after, events = before ++ .opened h loaded :: after ∧
      (∀ event ∈ before, event.handle ≠ h) ∧
      s'.handles h = some (overwritten loaded (inserted h events), .idle) ∧
      d.readText path s'.disk = .ok (write (overwritten loaded (inserted h events))) := by
  obtain ⟨before', after', whole, kept⟩ := last
  rcases run.handles_of_fresh (fresh h) with others | ⟨before, loaded, after, opened, first, stage, held⟩
  · have this := others (.replaced h) (by simp [whole])
    exact absurd rfl this
  · have none : DraftHeld d path s := by
      intro k entries drafted
      cases (fresh k).symm.trans drafted
    obtain ⟨entries, stage', held', text⟩ := (whole ▸ run).savedBy_last laws fit quiet kept none
    cases held.symm.trans held'
    obtain rfl := quiet h _ _ held
    exact ⟨before, loaded, after, opened, first, held, text rfl⟩

omit [DecidableEq ι] in
theorem kept_or_last (events : List (Event ι)) :
    Kept events ∨ ∃ h before after, events = before ++ .replaced h :: after ∧ Kept after := by
  induction events with
  | nil => exact .inl nofun
  | cons event events ih =>
      rcases ih with kept | ⟨h, before, after, rfl, kept⟩
      · cases event with
        | replaced h => exact .inr ⟨h, [], events, rfl, kept⟩
        | opened | begun | drafted =>
            left
            intro h member
            rcases List.mem_cons.1 member with same | later
            · cases same
            · exact kept h later
      · exact .inr ⟨h, event :: before, after, rfl, kept⟩

omit [DecidableEq ι] in
theorem eq_of_last {h' : ι} (whole : before ++ [.replaced h'] = events ++ .replaced h :: after)
    (kept : Kept after) : h = h' := by
  rcases List.eq_nil_or_concat after with rfl | ⟨init, last, rfl⟩
  · cases (List.append_inj' whole rfl).2
    rfl
  · rw [List.concat_eq_append, ← List.cons_append, ← List.append_assoc] at whole
    cases (List.append_inj' whole rfl).2
    exact absurd (by simp) (kept h')

theorem get?_overwritten (entries : NameMap Entry) (changes : List (String × Entry)) (name : String) :
    (overwritten entries changes).get? name =
      (NameMap.lastOf changes name).or (entries.get? name) :=
  NameMap.get?_foldl_insert changes entries name

theorem Runs.get?_loaded {s s' : Shared Bool σ} {before after : List (Event Bool)} {last : Bool}
    {loaded : NameMap Entry} {name : String} {e : Entry}
    (run : Runs d path s (before ++ .opened last loaded :: after) s')
    (laws : d.Drafts Fit path (draftPath path)) (fit : Fit s.disk) (fresh : ∀ h, s.handles h = none)
    (quiet : s'.Quiet) (others : ∀ event ∈ before, event.handle ≠ last)
    (alone : ∀ event ∈ after, event.handle = last)
    (faithful : ∀ entries stage, s'.handles (!last) = some (entries, stage) → Faithful entries)
    (bound : NameMap.lastOf (inserted (!last) (before ++ .opened last loaded :: after)) name = some e) :
    loaded.get? name = some e := by
  obtain ⟨m, first, rest⟩ := run.exists_of_append
  -- From the moment `last` is opened the other one does nothing, so it had finished before that.
  have silent : ∀ event ∈ .opened last loaded :: after, event.handle ≠ !last := by
    intro event member
    have same : event.handle = last := by
      rcases List.mem_cons.1 member with rfl | later
      · rfl
      · exact alone event later
    rw [same]
    exact (Bool.eq_not_self last).1
  have same : s'.handles (!last) = m.handles (!last) := rest.handles_of_ne silent
  have opening : m.handles last = none ∧ load d m.disk path = .ok { path, entries := loaded } := by
    cases rest with
    | cons step rest =>
        cases step with
        | opened fresh read => exact ⟨fresh, read⟩
  have quiet' : m.Quiet := by
    intro h entries stage open'
    by_cases this : h = last
    · rw [this, opening.1] at open'
      cases open'
    · rw [Bool.eq_not.2 this, ← same] at open'
      exact quiet _ _ _ open'
  rw [inserted_append, inserted_eq_nil silent, List.append_nil] at bound
  rcases kept_or_last before with kept | ⟨h, found⟩
  · rw [first.inserted_eq_nil_of_kept kept quiet'] at bound
    cases bound
  · obtain rfl : h = !last := by
      obtain ⟨_, _, whole, -⟩ := found
      exact Bool.eq_not.2 (others (.replaced h) (by simp [whole]))
    obtain ⟨-, loaded', -, -, -, held, text⟩ := first.text_eq laws fit fresh quiet' found
    have read := (faithful _ _ (same.trans held)).load text
    cases read.symm.trans opening.2
    rw [get?_overwritten, bound]
    rfl

/--
Two handles may be opened at any moment on one file, and their changes may come in any order, also with
the steps of one between those of the other. If all changes succeed, and the handles bind different
names, the file in the end has the variables of the handle that saved last: what it found when it was
opened, overwritten by what it bound. So all that it bound is there, and what the other one bound is
there exactly if it was there when the last one was opened. That is so if the last one was opened after
all changes of the other, and if these are read back as they were written. If nothing was bound the file
is as before.
-/
theorem saved_last {s s' : Shared Bool σ} {events : List (Event Bool)}
    (laws : d.Drafts Fit path (draftPath path)) (fit : Fit s.disk) (fresh : ∀ h, s.handles h = none)
    (run : Runs d path s events s') (quiet : s'.Quiet)
    (disjoint : ∀ h name e e', (name, e) ∈ inserted h events → (name, e') ∉ inserted (!h) events) :
    ((∀ h, inserted h events = []) ∧ d.readText path s'.disk = d.readText path s.disk) ∨
    ∃ last before loaded after file,
      (∃ before after, events = before ++ .replaced last :: after ∧ Kept after) ∧
      events = before ++ .opened last loaded :: after ∧
      file = overwritten loaded (inserted last events) ∧
      d.readText path s'.disk = .ok (write file) ∧
      (∀ name e, NameMap.lastOf (inserted last events) name = some e → file.get? name = some e) ∧
      (∀ name e, NameMap.lastOf (inserted (!last) events) name = some e →
        (file.get? name = some e ↔ loaded.get? name = some e)) ∧
      ((∀ event ∈ after, event.handle = last) →
        (∀ entries stage, s'.handles (!last) = some (entries, stage) → Faithful entries) →
        ∀ name e, NameMap.lastOf (inserted (!last) events) name = some e → file.get? name = some e) := by
  rcases kept_or_last events with kept | ⟨last, found⟩
  · exact .inl ⟨run.inserted_eq_nil_of_kept kept quiet, run.readText_eq laws fit kept⟩
  obtain ⟨before, loaded, after, rfl, others, held, text⟩ := run.text_eq laws fit fresh quiet found
  have shared : ∀ name e, NameMap.lastOf (inserted (!last) (before ++ .opened last loaded :: after)) name =
      some e → (overwritten loaded (inserted last (before ++ .opened last loaded :: after))).get? name =
        loaded.get? name := by
    intro name e bound
    rw [get?_overwritten]
    cases own : NameMap.lastOf (inserted last (before ++ .opened last loaded :: after)) name with
    | none => rfl
    | some e' =>
        exact absurd (NameMap.mem_of_lastOf bound) (disjoint last name e' e (NameMap.mem_of_lastOf own))
  refine .inr ⟨last, before, loaded, after, _, found, rfl, rfl, text, ?_, ?_, ?_⟩
  · intro name e bound
    rw [get?_overwritten, bound]
    rfl
  · intro name e bound
    rw [shared name e bound]
  · intro alone faithful name e bound
    rw [shared name e bound]
    exact run.get?_loaded laws fit fresh quiet others alone faithful bound

/-! ## In a root directory -/

theorem PlainPath.drafts {path : String} (plain : PlainPath path) :
    FileTree.disk.Drafts FileTree.AtRoot path (draftPath path) :=
  FileTree.disk_drafts plain.plain plain.draft plain.ne plain.parent

structure Clear (path : String) (t : FileTree) : Prop where
  atRoot : t.AtRoot
  draft : (t.root.child? (draftPath path)).any FileTree.Node.isDirectory = false
  file : (t.root.child? path).any FileTree.Node.isDirectory = false

theorem exists_insert_plain {path : String} (plain : PlainPath path) {t : FileTree} (clear : Clear path t)
    (entries : NameMap Entry) (now : Timestamp) (name : String) (value : Value) :
    ∃ t', (insert FileTree.disk now name value).on ({ path, entries }, t) =
        (.ok (), { path, entries := entries.insert name ⟨value, now⟩ }, t') ∧
      Clear path t' ∧ FileTree.disk.readText path t' = .ok (write (entries.insert name ⟨value, now⟩)) := by
  have plain' : PlainPath (VariableFile.mk path (entries.insert name ⟨value, now⟩)).path := plain
  have saved := save_plain plain' clear.atRoot
  rw [clear.draft, clear.file] at saved
  have atRoot := (clear.atRoot.put (draftPath path)
    (.text (write (entries.insert name ⟨value, now⟩)))).replaced (draftPath path) path
    (.text (write (entries.insert name ⟨value, now⟩)))
  refine ⟨_, saved, ⟨atRoot, ?_, ?_⟩, (FileTree.readText_plain atRoot plain.plain).trans ?_⟩
  all_goals
    have directory := FileTree.Node.isDirectory_put clear.atRoot.root (draftPath path)
      (.text (write (entries.insert name ⟨value, now⟩)))
    dsimp only [FileTree.put]
    rw [FileTree.Node.child?_put (FileTree.Node.isDirectory_erase directory _)]
  · rw [if_neg plain.ne.symm, FileTree.Node.child?_erase directory, if_pos rfl]
    rfl
  · rw [if_pos rfl]
    rfl
  · rw [if_pos rfl]

theorem exists_runs_insert_plain {path : String} (plain : PlainPath path) {s : Shared ι FileTree}
    (clear : Clear path s.disk) {entries : NameMap Entry} (idle : s.handles h = some (entries, .idle))
    (now : Timestamp) (name : String) (value : Value) :
    ∃ disk, Runs FileTree.disk path s [.begun h now name value, .drafted h, .replaced h]
        ⟨disk, Function.update s.handles h (some (entries.insert name ⟨value, now⟩, .idle))⟩ ∧
      Clear path disk ∧
      FileTree.disk.readText path disk = .ok (write (entries.insert name ⟨value, now⟩)) := by
  obtain ⟨disk, inserted, clear', text⟩ := exists_insert_plain plain clear entries now name value
  exact ⟨disk, (runs_insert_iff idle).2 ⟨_, disk, inserted, rfl⟩, clear', text⟩

theorem clear_empty : Clear "vars.json" {} :=
  ⟨atRoot_empty, rfl, rfl⟩

def epoch : Timestamp :=
  ⟨0, 0, 0⟩

theorem proper_epoch : epoch.Proper :=
  ⟨by decide, by decide, .inl (by decide)⟩

theorem faithful_insert_text (name s : String) :
    Faithful ((∅ : NameMap Entry).insert name ⟨.text s, epoch⟩) := by
  intro other e found
  rw [NameMap.get?_insert] at found
  split at found
  · cases found
    exact ⟨proper_epoch, Value.reread?_text s⟩
  · cases found

def binds (h : ι) (name s : String) : List (Event ι) :=
  [.begun h epoch name (.text s), .drafted h, .replaced h]

/-- Two handles are opened before either changes anything. What the first saves is lost. -/
theorem exists_lost : ∃ s', Runs FileTree.disk "vars.json" (⟨{}, fun _ => none⟩ : Shared Bool FileTree)
      ([.opened false ∅, .opened true ∅] ++ binds false "x" "1" ++ binds true "y" "2") s' ∧
    s'.Quiet ∧
    ∃ file, load FileTree.disk s'.disk "vars.json" = .ok file ∧ file.value? "x" = none := by
  have opened (s : Shared Bool FileTree) (h : Bool) (empty : s.disk = {}) (fresh : s.handles h = none) :
      Step FileTree.disk "vars.json" s (.opened h ∅)
        ⟨s.disk, Function.update s.handles h (some (∅, .idle))⟩ := by
    refine .opened fresh ?_
    rw [empty]
    exact load_vars_empty
  let both : Bool → Option (NameMap Entry × Stage) :=
    Function.update (Function.update (fun _ => none) false (some (∅, .idle))) true (some (∅, .idle))
  let x : NameMap Entry := (∅ : NameMap Entry).insert "x" ⟨.text "1", epoch⟩
  have first := opened ⟨{}, fun _ => none⟩ false rfl rfl
  have second := opened ⟨{}, Function.update (fun _ => none) false (some (∅, .idle))⟩ true rfl rfl
  obtain ⟨disk, run, clear, -⟩ := exists_runs_insert_plain (s := ⟨{}, both⟩) (h := false) plainPath_vars
    clear_empty (show both false = some (∅, .idle) from rfl) epoch "x" (.text "1")
  obtain ⟨disk', run', -, text⟩ := exists_runs_insert_plain
    (s := ⟨disk, Function.update both false (some (x, .idle))⟩) (h := true) plainPath_vars clear
    (show Function.update both false (some (x, .idle)) true = some (∅, .idle) from rfl)
    epoch "y" (.text "2")
  refine ⟨_, (Runs.append (.cons first (.cons second .nil)) run).append run', ?_, _,
    (faithful_insert_text "y" "2").load text, rfl⟩
  intro h entries stage held
  cases h with
  | false =>
      cases held
      rfl
  | true =>
      cases held
      rfl

def one : NameMap Entry :=
  (∅ : NameMap Entry).insert "x" ⟨.text "1", epoch⟩

def apart : List (Event Bool) :=
  [.opened false ∅] ++ binds false "x" "1" ++ [.opened true one] ++ binds true "y" "2"

theorem exists_runs_apart : ∃ s', Runs FileTree.disk "vars.json"
    (⟨{}, fun _ => none⟩ : Shared Bool FileTree) apart s' ∧ s'.Quiet ∧
      s'.handles false = some (one, .idle) := by
  let alone : Bool → Option (NameMap Entry × Stage) :=
    Function.update (fun _ => none) false (some (∅, .idle))
  let done : Bool → Option (NameMap Entry × Stage) := Function.update alone false (some (one, .idle))
  have first : Step FileTree.disk "vars.json" (⟨{}, fun _ => none⟩ : Shared Bool FileTree)
    (.opened false ∅) ⟨{}, alone⟩ := .opened rfl load_vars_empty
  obtain ⟨disk, run, clear, text⟩ := exists_runs_insert_plain (s := ⟨{}, alone⟩) (h := false)
    plainPath_vars clear_empty (show alone false = some (∅, .idle) from rfl) epoch "x" (.text "1")
  have second : Step FileTree.disk "vars.json" (⟨disk, done⟩ : Shared Bool FileTree) (.opened true one)
    ⟨disk, Function.update done true (some (one, .idle))⟩ :=
    .opened rfl ((faithful_insert_text "x" "1").load text)
  obtain ⟨disk', run', -, -⟩ := exists_runs_insert_plain
    (s := ⟨disk, Function.update done true (some (one, .idle))⟩) (h := true) plainPath_vars clear
    (show Function.update done true (some (one, .idle)) true = some (one, .idle) from rfl)
    epoch "y" (.text "2")
  refine ⟨_, ((Runs.append (.cons first .nil) run).append (.cons second .nil)).append run', ?_, rfl⟩
  intro h entries stage held
  cases h with
  | false =>
      cases held
      rfl
  | true =>
      cases held
      rfl

theorem saved_last_apart : ∃ s', Runs FileTree.disk "vars.json"
    (⟨{}, fun _ => none⟩ : Shared Bool FileTree) apart s' ∧
      ∃ file, FileTree.disk.readText "vars.json" s'.disk = .ok (write file) ∧
        file.get? "x" = some ⟨.text "1", epoch⟩ ∧ file.get? "y" = some ⟨.text "2", epoch⟩ := by
  obtain ⟨s', run, quiet, held⟩ := exists_runs_apart
  have disjoint : ∀ h name e e', (name, e) ∈ inserted h apart → (name, e') ∉ inserted (!h) apart := by
    intro h name e e' member member'
    cases h with
    | false =>
        have x : name = "x" := (Prod.mk.inj (List.mem_singleton.1 member)).1
        have y : name = "y" := (Prod.mk.inj (List.mem_singleton.1 member')).1
        exact absurd (x.symm.trans y) (by decide)
    | true =>
        have y : name = "y" := (Prod.mk.inj (List.mem_singleton.1 member)).1
        have x : name = "x" := (Prod.mk.inj (List.mem_singleton.1 member')).1
        exact absurd (x.symm.trans y) (by decide)
  rcases saved_last plainPath_vars.drafts atRoot_empty (fun _ => rfl) run quiet disjoint with
    ⟨nothing, -⟩ | ⟨last, before, loaded, after, file, ⟨_, _, whole, kept⟩, opened, -, text, own, -, both⟩
  · cases nothing false
  · have ends : apart.dropLast ++ [.replaced true] = _ := whole
    obtain rfl : last = true := eq_of_last ends kept
    have alone : ∀ event ∈ after, event.handle = true := by
      rcases before with _ | ⟨_, _ | ⟨_, _ | ⟨_, _ | ⟨_, _ | ⟨_, later⟩⟩⟩⟩⟩
      · cases opened
      · cases opened
      · cases opened
      · cases opened
      · cases opened
        simp [binds, Event.handle]
      · have after_eq : binds true "y" "2" = later ++ .opened true loaded :: after :=
          congrArg (List.drop 5) opened
        have member : .opened true loaded ∈ binds true "y" "2" := by simp [after_eq]
        simp [binds] at member
    refine ⟨s', run, file, text, both alone ?_ _ _ rfl, own _ _ rfl⟩
    intro entries stage same
    cases held.symm.trans same
    exact faithful_insert_text "x" "1"

end ScreenScript.VariableFile
