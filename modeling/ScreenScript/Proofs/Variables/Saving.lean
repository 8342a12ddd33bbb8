import ScreenScript.Proofs.Disk.Replaces
import ScreenScript.Proofs.NameMap
import ScreenScript.Variables.File

namespace ScreenScript

variable {σ : Type}

namespace VariableFile

/-! ## Saving -/

theorem onDisk_on (aim : String) (operation : σ → Except Disk.Fault Unit × σ) (file : VariableFile)
    (disk : σ) :
    (onDisk aim operation).on (file, disk) =
      (match (operation disk).1 with
        | .ok () => .ok ()
        | .error fault => .error (.persistence s!"failed to {aim} {file.path}: {fault.message}"),
      file, (operation disk).2) := by
  rcases h : operation disk with ⟨result, after⟩
  cases result <;> simp [onDisk, Attempt.of, Attempt.on, h]

inductive Saved (d : Disk σ) (Fit : σ → Prop) (file : VariableFile) (disk : σ) :
    Except Failure Unit × VariableFile × σ → Prop where
  | written {after : σ} (fit : Fit after)
      (text : d.readText file.path after = .ok (write file.entries)) :
      Saved d Fit file disk (.ok (), file, after)
  | failed {message : String} {after : σ} (fit : Fit after)
      (text : d.readText file.path after = d.readText file.path disk) :
      Saved d Fit file disk (.error (.persistence message), file, after)

theorem replace_on {d : Disk σ} {Fit : σ → Prop} {file : VariableFile} {start disk : σ}
    (laws : d.Replaces Fit file.path (draftPath file.path)) (fit : Fit disk)
    (same : d.readText file.path disk = d.readText file.path start) :
    Saved d Fit file start
      ((do
        onDisk "write" (d.writeText (draftPath file.path) (write file.entries))
        onDisk "replace" (d.replace (draftPath file.path) file.path) :
          Attempt (VariableFile × σ) Unit).on (file, disk)) := by
  have fitDraft : Fit (d.writeText (draftPath file.path) (write file.entries) disk).2 :=
    laws.writeText_fit fit
  have kept : d.readText file.path (d.writeText (draftPath file.path) (write file.entries) disk).2 =
      d.readText file.path disk := laws.writeText_keeps fit
  rw [Attempt.on_bind, onDisk_on]
  cases drafted : (d.writeText (draftPath file.path) (write file.entries) disk).1 with
  | error fault => exact .failed fitDraft (kept.trans same)
  | ok _ =>
      have draft := laws.writeText_reads fit drafted
      dsimp only
      rw [onDisk_on]
      cases replaced : (d.replace (draftPath file.path) file.path
          (d.writeText (draftPath file.path) (write file.entries) disk).2).1 with
      | error fault =>
          have unchanged := laws.replace_keeps fitDraft (by simp [replaced])
          exact .failed (laws.replace_fit fitDraft) (unchanged.trans (kept.trans same))
      | ok _ =>
          have changed := laws.replace_reads fitDraft replaced
          exact .written (laws.replace_fit fitDraft) (changed.trans draft)

theorem save_on {d : Disk σ} {Fit : σ → Prop} {file : VariableFile} {disk : σ}
    (laws : d.Replaces Fit file.path (draftPath file.path)) (fit : Fit disk) :
    Saved d Fit file disk ((save d).on (file, disk)) := by
  have got : (get : Attempt (VariableFile × σ) _).on (file, disk) =
    (.ok (file, disk), file, disk) := rfl
  unfold save
  rw [Attempt.on_bind, got]
  dsimp only
  cases parent : (Path.parent? file.path).filter (!·.isEmpty) with
  | none => exact replace_on laws fit rfl
  | some directory =>
      obtain ⟨above, named⟩ := Option.filter_eq_some_iff.1 parent
      have named : directory.isEmpty = false := by simpa using named
      dsimp only
      rw [Attempt.on_bind, onDisk_on]
      cases made : (d.makePrivate directory disk).1 with
      | error fault =>
          exact .failed (laws.makePrivate_fit above named fit) (laws.makePrivate_keeps above named fit)
      | ok _ =>
          exact replace_on laws (laws.makePrivate_fit above named fit)
            (laws.makePrivate_keeps above named fit)

theorem replace_obliging {d : Disk σ} {Fit : σ → Prop} {file : VariableFile} {disk : σ}
    (laws : d.Obliging Fit file.path (draftPath file.path)) (fit : Fit disk) :
    ((do
        onDisk "write" (d.writeText (draftPath file.path) (write file.entries))
        onDisk "replace" (d.replace (draftPath file.path) file.path) :
          Attempt (VariableFile × σ) Unit).on (file, disk)).1 = .ok () := by
  have drafted : (d.writeText (draftPath file.path) (write file.entries) disk).1 = .ok () :=
    laws.writeText_ok fit
  have draft := laws.writeText_reads fit drafted
  rw [Attempt.on_bind, onDisk_on, drafted]
  dsimp only
  rw [onDisk_on, laws.replace_ok (laws.writeText_fit fit) draft]

theorem save_obliging {d : Disk σ} {Fit : σ → Prop} {file : VariableFile} {disk : σ}
    (laws : d.Obliging Fit file.path (draftPath file.path)) (fit : Fit disk) :
    ∃ after, (save d).on (file, disk) = (.ok (), file, after) ∧ Fit after ∧
      d.readText file.path after = .ok (write file.entries) := by
  have got : (get : Attempt (VariableFile × σ) _).on (file, disk) =
    (.ok (file, disk), file, disk) := rfl
  have succeeds : ((save d).on (file, disk)).1 = .ok () := by
    unfold save
    rw [Attempt.on_bind, got]
    dsimp only
    cases parent : (Path.parent? file.path).filter (!·.isEmpty) with
    | none => exact replace_obliging laws fit
    | some directory =>
        obtain ⟨above, named⟩ := Option.filter_eq_some_iff.1 parent
        have named : directory.isEmpty = false := by simpa using named
        dsimp only
        rw [Attempt.on_bind, onDisk_on, laws.makePrivate_ok above named fit]
        exact replace_obliging laws (laws.makePrivate_fit above named fit)
  have outcome := save_on laws.toReplaces fit
  generalize (save d).on (file, disk) = result at outcome succeeds ⊢
  cases outcome with
  | @written after fit text => exact ⟨after, rfl, fit, text⟩
  | failed fit text => cases succeeds

/-! ## Changes -/

theorem remove_on_of_eq_none {d : Disk σ} {file : VariableFile} {disk : σ} {name : String}
    (none : file.entries.get? name = none) : (remove d name).on (file, disk) = (.ok false, file, disk) := by
  have got : (get : Attempt (VariableFile × σ) _).on (file, disk) =
    (.ok (file, disk), file, disk) := rfl
  rw [remove, Attempt.on_bind, got]
  dsimp only
  rw [none]
  rfl

theorem remove_on_of_isSome {d : Disk σ} {file : VariableFile} {disk : σ} {name : String}
    (found : (file.entries.get? name).isSome) :
    (remove d name).on (file, disk) =
      (do save d; return true : Attempt (VariableFile × σ) Bool).on
        ({ file with entries := file.entries.erase name }, disk) := by
  obtain ⟨e, found⟩ := Option.isSome_iff_exists.1 found
  have got : (get : Attempt (VariableFile × σ) _).on (file, disk) =
    (.ok (file, disk), file, disk) := rfl
  rw [remove, Attempt.on_bind, got]
  dsimp only
  rw [found]
  rfl

inductive Change where
  | insert (now : Timestamp) (name : String) (value : Value)
  | remove (name : String)

namespace Change

def make (d : Disk σ) : Change → Attempt (VariableFile × σ) Unit
  | insert now name value => VariableFile.insert d now name value
  | remove name => do let _ ← VariableFile.remove d name

def entries (c : Change) (before : NameMap Entry) : NameMap Entry :=
  match c with
  | insert now name value => before.insert name ⟨value, now⟩
  | remove name => before.erase name

def isSaved (c : Change) (before : NameMap Entry) : Bool :=
  match c with
  | insert .. => true
  | remove name => (before.get? name).isSome

theorem make_on_of_isSaved (d : Disk σ) {c : Change} {file : VariableFile} {disk : σ}
    (saved : c.isSaved file.entries) :
    (c.make d).on (file, disk) =
      (save d).on ({ file with entries := c.entries file.entries }, disk) := by
  cases c with
  | insert now name value => rfl
  | remove name =>
      rw [make, Attempt.on_bind, remove_on_of_isSome saved, Attempt.on_bind, entries]
      rcases (save d).on ({ file with entries := file.entries.erase name }, disk) with ⟨result, s⟩
      cases result <;> rfl

theorem entries_eq_self {c : Change} {before : NameMap Entry} (idle : c.isSaved before = false) :
    c.entries before = before := by
  cases c with
  | insert now name value => cases idle
  | remove name =>
      rw [isSaved, Option.isSome_eq_false_iff, Option.isNone_iff_eq_none] at idle
      exact NameMap.erase_eq_self_iff.2 idle

theorem make_on_of_not_isSaved (d : Disk σ) {c : Change} {file : VariableFile} {disk : σ}
    (idle : c.isSaved file.entries = false) : (c.make d).on (file, disk) = (.ok (), file, disk) := by
  cases c with
  | insert now name value => cases idle
  | remove name =>
      rw [isSaved, Option.isSome_eq_false_iff, Option.isNone_iff_eq_none] at idle
      rw [make, Attempt.on_bind, remove_on_of_eq_none idle]
      rfl

inductive Made (d : Disk σ) (Fit : σ → Prop) (c : Change) (file : VariableFile) (disk : σ) :
    Except Failure Unit × VariableFile × σ → Prop where
  | idle (unsaved : c.isSaved file.entries = false) : Made d Fit c file disk (.ok (), file, disk)
  | written {after : σ} (saved : c.isSaved file.entries) (fit : Fit after)
      (text : d.readText file.path after = .ok (write (c.entries file.entries))) :
      Made d Fit c file disk (.ok (), { file with entries := c.entries file.entries }, after)
  | failed {message : String} {after : σ} (saved : c.isSaved file.entries) (fit : Fit after)
      (text : d.readText file.path after = d.readText file.path disk) :
      Made d Fit c file disk
        (.error (.persistence message), { file with entries := c.entries file.entries }, after)

theorem make_on {d : Disk σ} {Fit : σ → Prop} {file : VariableFile} {disk : σ}
    (laws : d.Replaces Fit file.path (draftPath file.path)) (fit : Fit disk) (c : Change) :
    Made d Fit c file disk ((c.make d).on (file, disk)) := by
  cases saved : c.isSaved file.entries with
  | false =>
      rw [make_on_of_not_isSaved d saved]
      exact .idle saved
  | true =>
      have outcome : Saved d Fit { file with entries := c.entries file.entries } disk
          ((save d).on ({ file with entries := c.entries file.entries }, disk)) :=
        save_on laws fit
      rw [make_on_of_isSaved d saved]
      generalize (save d).on ({ file with entries := c.entries file.entries }, disk) = result
        at outcome ⊢
      cases outcome with
      | written fit text => exact .written saved fit text
      | failed fit text => exact .failed saved fit text

end Change

/-! ## Histories -/

def makeAll (d : Disk σ) : List Change → Attempt (VariableFile × σ) Unit
  | [] => pure ()
  | c :: rest => do
    c.make d
    makeAll d rest

def entriesAfter (before : NameMap Entry) (changes : List Change) : NameMap Entry :=
  changes.foldl (fun entries c => c.entries entries) before

def isSavedAmong (before : NameMap Entry) : List Change → Bool
  | [] => false
  | c :: rest => c.isSaved before || isSavedAmong (c.entries before) rest

theorem entriesAfter_eq_self {before : NameMap Entry} {changes : List Change}
    (idle : isSavedAmong before changes = false) : entriesAfter before changes = before := by
  induction changes generalizing before with
  | nil => rfl
  | cons c rest ih =>
      rw [isSavedAmong, Bool.or_eq_false_iff] at idle
      have same := Change.entries_eq_self idle.1
      rw [same] at idle
      rw [entriesAfter, List.foldl_cons, same]
      exact ih idle.2

theorem makeAll_on_ok {d : Disk σ} {Fit : σ → Prop} {file file' : VariableFile} {disk disk' : σ}
    (laws : d.Replaces Fit file.path (draftPath file.path)) (fit : Fit disk)
    {changes : List Change} (h : (makeAll d changes).on (file, disk) = (.ok (), file', disk')) :
    file' = { file with entries := entriesAfter file.entries changes } ∧ Fit disk' ∧
      d.readText file.path disk' =
        if isSavedAmong file.entries changes then .ok (write file'.entries)
        else d.readText file.path disk := by
  induction changes generalizing file disk with
  | nil =>
      cases h
      exact ⟨rfl, fit, rfl⟩
  | cons c rest ih =>
      obtain ⟨⟨⟩, ⟨file₁, disk₁⟩, first, later⟩ := Attempt.on_bind_eq_ok.1 h
      have made := Change.make_on laws fit c
      rw [first] at made
      cases made with
      | idle unsaved =>
          have same := Change.entries_eq_self unsaved
          obtain ⟨after, fit', text⟩ := ih laws fit later
          rw [isSavedAmong, unsaved, Bool.false_or, entriesAfter, List.foldl_cons, same]
          exact ⟨after, fit', text⟩
      | written saved fit₁ text₁ =>
          obtain ⟨after, fit', text⟩ :=
            @ih { file with entries := c.entries file.entries } disk₁ laws fit₁ later
          refine ⟨after, fit', ?_⟩
          rw [isSavedAmong, saved, Bool.true_or, if_pos rfl, text]
          split
          · rfl
          · rename_i idle
            have same := entriesAfter_eq_self (Bool.eq_false_iff.2 idle)
            rw [after]
            dsimp only at same ⊢
            rw [same]
            exact text₁

/-! ## Files of the root directory -/

structure PlainPath (path : String) : Prop where
  plain : FileTree.Plain path
  draft : FileTree.Plain (draftPath path)
  ne : path ≠ draftPath path
  parent : Path.parent? path = some ""

theorem PlainPath.replaces {path : String} (h : PlainPath path) :
    FileTree.disk.Replaces FileTree.AtRoot path (draftPath path) :=
  FileTree.disk_replaces h.plain h.draft h.ne h.parent

theorem save_plain {file : VariableFile} (h : PlainPath file.path) {t : FileTree}
    (atRoot : t.AtRoot) :
    (save FileTree.disk).on (file, t) =
      if (t.root.child? (draftPath file.path)).any FileTree.Node.isDirectory then
        (.error (.persistence s!"failed to write {file.path}: {Disk.Fault.isDirectory.message}"),
          file, t)
      else if (t.root.child? file.path).any FileTree.Node.isDirectory then
        (.error (.persistence s!"failed to replace {file.path}: {Disk.Fault.isDirectory.message}"),
          file, t.put [draftPath file.path] (.text (write file.entries)))
      else (.ok (), file, { t with
        root := ((t.root.put [draftPath file.path] (.text (write file.entries))).erase
          [draftPath file.path]).put [file.path] (.text (write file.entries)) }) := by
  have got : (get : Attempt (VariableFile × FileTree) _).on (file, t) = (.ok (file, t), file, t) :=
    rfl
  have none : (some "").filter (!·.isEmpty) = (none : Option String) := rfl
  unfold save
  rw [Attempt.on_bind, got]
  dsimp only
  rw [h.parent, none]
  dsimp only
  rw [Attempt.on_bind, onDisk_on, FileTree.writeText_plain atRoot h.draft]
  cases blocked : (t.root.child? (draftPath file.path)).any FileTree.Node.isDirectory with
  | true => rfl
  | false =>
      have atRoot' := atRoot.put (draftPath file.path) (.text (write file.entries))
      have draft : (t.put [draftPath file.path] (.text (write file.entries))).root.child?
          (draftPath file.path) = some (.text (write file.entries)) :=
        (FileTree.Node.child?_put atRoot.root _ _ _).trans (if_pos rfl)
      have same : (t.put [draftPath file.path] (.text (write file.entries))).root.child?
          file.path = t.root.child? file.path :=
        (FileTree.Node.child?_put atRoot.root _ _ _).trans (if_neg h.ne)
      simp only [Bool.false_eq_true, if_false]
      rw [onDisk_on, FileTree.replace_plain atRoot' h.draft h.plain, draft]
      simp only [same, FileTree.Node.isDirectory, Bool.false_or]
      cases (t.root.child? file.path).any FileTree.Node.isDirectory <;> rfl

theorem exists_save_plain {path : String} (h : PlainPath path) (entries : NameMap Entry)
    {t : FileTree} (atRoot : t.AtRoot)
    (draftFree : (t.root.child? (draftPath path)).any FileTree.Node.isDirectory = false)
    (free : (t.root.child? path).any FileTree.Node.isDirectory = false) :
    ∃ after, (save FileTree.disk).on ({ path, entries }, t) = (.ok (), { path, entries }, after) := by
  have plain : PlainPath (VariableFile.mk path entries).path := h
  have saved := save_plain plain atRoot
  rw [draftFree, free] at saved
  exact ⟨_, saved⟩

theorem plainPath_vars : PlainPath "vars.json" where
  plain := ⟨by cbv, by rfl, by cbv, by cbv, by decide, by decide⟩
  draft := by
    have draft : draftPath "vars.json" = "vars.json.tmp" := by decide
    rw [draft]
    exact ⟨by cbv, by rfl, by cbv, by cbv, by decide, by decide⟩
  ne := by decide
  parent := by decide

theorem atRoot_empty : FileTree.AtRoot {} :=
  ⟨rfl, rfl⟩

end VariableFile

end ScreenScript
