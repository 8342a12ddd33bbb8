import ScreenScript.Expr.Evaluation
import ScreenScript.Proofs.Variables.FileText
import ScreenScript.Proofs.Variables.Saving

namespace ScreenScript.VariableFile

variable {σ : Type}

/-- Whether the time of a change is one that a clock can show. -/
def Change.Proper : Change → Prop
  | .insert now _ _ => now.Proper
  | .remove _ => True

def Proper (entries : NameMap Entry) : Prop :=
  ∀ name e, entries.get? name = some e → e.updated.Proper

theorem Change.proper_entries {c : Change} (proper : c.Proper) {before : NameMap Entry}
    (all : VariableFile.Proper before) : VariableFile.Proper (c.entries before) := by
  intro name e found
  cases c with
  | insert now other value =>
      rw [Change.entries, NameMap.get?_insert] at found
      split at found
      · obtain rfl := Option.some.inj found
        exact proper
      · exact all name e found
  | remove other =>
      rw [Change.entries, NameMap.get?_erase] at found
      split at found
      · cases found
      · exact all name e found

theorem proper_entriesAfter {changes : List Change} (proper : ∀ c ∈ changes, c.Proper)
    {before : NameMap Entry} (all : Proper before) : Proper (entriesAfter before changes) := by
  induction changes generalizing before with
  | nil => exact all
  | cons c rest ih =>
      exact ih (fun c mem => proper c (List.mem_cons_of_mem _ mem))
        (Change.proper_entries (proper c List.mem_cons_self) all)

theorem proper_of_load {d : Disk σ} {disk : σ} {path : String} {file : VariableFile}
    (opened : load d disk path = .ok file) : file.path = path ∧ Proper file.entries := by
  unfold load at opened
  split at opened
  · cases opened
    exact ⟨rfl, fun name e found => nomatch found⟩
  · cases opened
  · split at opened
    · rename_i entries read
      cases opened
      exact ⟨rfl, fun name e found => proper_of_read? read found⟩
    · cases opened

def invalid (path : String) : Failure :=
  .persistence s!"{path} is not a valid vars file: expected variables with a value and a time"

theorem load_of_write {d : Disk σ} {disk : σ} {path : String} {entries : NameMap Entry}
    (proper : Proper entries) (text : d.readText path disk = .ok (write entries)) :
    load d disk path = match reread? entries with
      | some entries => .ok { path, entries }
      | none => .error (invalid path) := by
  rw [load, text]
  dsimp only
  rw [read?_write proper]
  cases reread? entries <;> rfl

/-- Whether the times and the values of some variables are read back as they are written. -/
def Faithful (entries : NameMap Entry) : Prop :=
  ∀ name e, entries.get? name = some e → e.updated.Proper ∧ e.value.reread? = some e.value

theorem Faithful.load {entries : NameMap Entry} {d : Disk σ} {disk : σ} {path : String}
    (faithful : Faithful entries) (text : d.readText path disk = .ok (write entries)) :
    load d disk path = .ok { path, entries } := by
  have same := reread?_eq_self_iff.2 fun name e found => (faithful name e found).2
  rw [load_of_write (fun name e found => (faithful name e found).1) text, same]

theorem load_congr {d : Disk σ} {disk disk' : σ} {path : String}
    (same : d.readText path disk' = d.readText path disk) : load d disk' path = load d disk path := by
  rw [load, load, same]

theorem path_of_makeAll {d : Disk σ} {Fit : σ → Prop} {disk disk' : σ} {file file' : VariableFile}
    {changes : List Change} (laws : d.Replaces Fit file.path (draftPath file.path)) (fit : Fit disk)
    (made : (makeAll d changes).on (file, disk) = (.ok (), file', disk')) : file'.path = file.path := by
  obtain ⟨after, -, -⟩ := makeAll_on_ok laws fit made
  rw [after]

theorem load_makeAll {d : Disk σ} {Fit : σ → Prop} {path : String} {disk disk' : σ}
    {file file' : VariableFile} {changes : List Change}
    (laws : d.Replaces Fit path (draftPath path)) (fit : Fit disk)
    (opened : load d disk path = .ok file) (proper : ∀ c ∈ changes, c.Proper)
    (made : (makeAll d changes).on (file, disk) = (.ok (), file', disk')) :
    load d disk' path =
      if isSavedAmong file.entries changes then
        match reread? file'.entries with
        | some entries => .ok { path, entries }
        | none => .error (invalid path)
      else .ok file' := by
  obtain ⟨rfl, times⟩ := proper_of_load opened
  obtain ⟨after, -, text⟩ := makeAll_on_ok laws fit made
  have times' : Proper file'.entries := by
    rw [after]
    exact proper_entriesAfter proper times
  split
  · rename_i saved
    rw [if_pos saved] at text
    exact load_of_write times' text
  · rename_i unsaved
    rw [if_neg unsaved] at text
    rw [load_congr text, opened, after, entriesAfter_eq_self (Bool.eq_false_iff.2 unsaved)]

/--
A file of variables whose changes all succeeded is opened again as it was in memory exactly if every
value in it is read as itself, or nothing was saved. A value that is not finite never is: after a
save it keeps the file from being opened. Where the finite ones are read as themselves, the file is
lost exactly if there is such a value.
-/
theorem load_makeAll_iff {d : Disk σ} {Fit : σ → Prop} {path : String} {disk disk' : σ}
    {file file' : VariableFile} {changes : List Change}
    (laws : d.Replaces Fit path (draftPath path)) (fit : Fit disk)
    (opened : load d disk path = .ok file) (proper : ∀ c ∈ changes, c.Proper)
    (made : (makeAll d changes).on (file, disk) = (.ok (), file', disk')) :
    (load d disk' path = .ok file' ↔ isSavedAmong file.entries changes = false ∨
      ∀ name e, file'.entries.get? name = some e → e.value.reread? = some e.value) ∧
    (load d disk' path = .error (invalid path) ↔ isSavedAmong file.entries changes ∧
      ∃ name e, file'.entries.get? name = some e ∧ e.value.reread? = none) ∧
    (∀ v : Value, v.isFinite = false → v.reread? = none) ∧
    ((∀ name e, file'.entries.get? name = some e → e.value.isFinite →
        e.value.reread? = some e.value) →
      (load d disk' path = .ok file' ↔ isSavedAmong file.entries changes = false ∨
        ∀ name e, file'.entries.get? name = some e → e.value.isFinite)) := by
  have reopened := load_makeAll laws fit opened proper made
  have samePath : file'.path = path := by
    obtain ⟨rfl, -⟩ := proper_of_load opened
    exact path_of_makeAll laws fit made
  have kept : load d disk' path = .ok file' ↔ isSavedAmong file.entries changes = false ∨
      reread? file'.entries = some file'.entries := by
    obtain ⟨path', entries⟩ := file'
    cases samePath
    rw [reopened]
    cases isSavedAmong file.entries changes with
    | false => simp
    | true => cases reread? entries <;> simp
  have lost : load d disk' path = .error (invalid path) ↔ isSavedAmong file.entries changes ∧
      reread? file'.entries = none := by
    rw [reopened]
    cases isSavedAmong file.entries changes with
    | false => simp
    | true => cases reread? file'.entries <;> simp
  rw [reread?_eq_self_iff] at kept
  rw [reread?_eq_none_iff] at lost
  refine ⟨kept, lost, fun v => Value.reread?_of_not_isFinite, fun exact => ?_⟩
  rw [kept]
  refine or_congr_right ⟨fun all name e found => ?_, fun all name e found => ?_⟩
  · by_contra infinite
    have none := Value.reread?_of_not_isFinite (Bool.eq_false_iff.2 infinite)
    rw [all name e found] at none
    cases none
  · exact exact name e found (all name e found)

/-! ## In an empty directory -/

theorem load_vars_empty : load FileTree.disk {} "vars.json" = .ok { path := "vars.json" } := by
  have missing : FileTree.disk.readText "vars.json" {} = .error .notFound :=
    FileTree.readText_plain atRoot_empty plainPath_vars.plain
  rw [load, missing]

theorem makeAll_insert_empty (now : Timestamp) (name : String) (value : Value) :
    ∃ disk, (makeAll FileTree.disk [.insert now name value]).on ({ path := "vars.json" }, {}) =
      (.ok (), { path := "vars.json", entries := (∅ : NameMap Entry).insert name ⟨value, now⟩ },
        disk) := by
  obtain ⟨disk, saved⟩ := exists_save_plain plainPath_vars
    ((∅ : NameMap Entry).insert name ⟨value, now⟩) atRoot_empty rfl rfl
  exact ⟨disk, Attempt.on_bind_eq_ok.2 ⟨(), _, saved, rfl⟩⟩

theorem proper_insert_epoch (name : String) (value : Value) :
    ∀ c ∈ [Change.insert ⟨0, 0, 0⟩ name value], c.Proper := by
  intro c mem
  obtain rfl := List.mem_singleton.1 mem
  exact ⟨by decide, by decide, .inl (by decide)⟩

theorem load_makeAll_iff_three : ∃ file disk,
    (makeAll FileTree.disk [.insert ⟨0, 0, 0⟩ "x" (.number 3.0)]).on ({ path := "vars.json" }, {}) =
      (.ok (), file, disk) ∧
    (load FileTree.disk disk "vars.json" = .ok file ↔
      isSavedAmong ∅ [.insert ⟨0, 0, 0⟩ "x" (.number 3.0)] = false ∨
        ∀ name e, file.entries.get? name = some e → e.value.reread? = some e.value) := by
  obtain ⟨disk, made⟩ := makeAll_insert_empty ⟨0, 0, 0⟩ "x" (.number 3.0)
  exact ⟨_, disk, made, (load_makeAll_iff plainPath_vars.replaces atRoot_empty load_vars_empty
    (proper_insert_epoch _ _) made).1⟩

theorem load_insert_of_not_isFinite {value : Value} (infinite : value.isFinite = false)
    (name : String) : ∃ file disk,
    (makeAll FileTree.disk [.insert ⟨0, 0, 0⟩ name value]).on ({ path := "vars.json" }, {}) =
      (.ok (), file, disk) ∧
    load FileTree.disk disk "vars.json" = .error (invalid "vars.json") := by
  obtain ⟨disk, made⟩ := makeAll_insert_empty ⟨0, 0, 0⟩ name value
  have none : reread? ((∅ : NameMap Entry).insert name ⟨value, ⟨0, 0, 0⟩⟩) = none :=
    reread?_eq_none_iff.2 ⟨name, _, (NameMap.get?_insert _ _ _ _).trans (if_pos rfl),
      Value.reread?_of_not_isFinite infinite⟩
  have reopened := load_makeAll plainPath_vars.replaces atRoot_empty load_vars_empty
    (proper_insert_epoch name value) made
  rw [none] at reopened
  exact ⟨_, disk, made, reopened⟩

/-- A product can be too large for a double, and then the file in which it is saved is lost. -/
theorem load_overflow : ∃ value file disk,
    Expr.apply .multiply (.number 1e200) (.number 1e200) = .ok value ∧
    load FileTree.disk {} "vars.json" = .ok { path := "vars.json" } ∧
    (makeAll FileTree.disk [.insert ⟨0, 0, 0⟩ "x" value]).on ({ path := "vars.json" }, {}) =
      (.ok (), file, disk) ∧
    load FileTree.disk disk "vars.json" = .error (invalid "vars.json") := by
  have infinite : (Value.number (1e200 * 1e200)).isFinite = false := by decide +kernel
  obtain ⟨file, disk, made, lost⟩ := load_insert_of_not_isFinite infinite "x"
  exact ⟨_, file, disk, rfl, load_vars_empty, made, lost⟩

end ScreenScript.VariableFile
