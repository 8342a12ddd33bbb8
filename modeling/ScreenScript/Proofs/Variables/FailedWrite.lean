import ScreenScript.Proofs.Variables.Saving

namespace ScreenScript

variable {σ : Type}

namespace Variables

theorem set_on_error {b : Backing σ} (v : Variables) {name : String} {value : Value} {s t : σ}
    {e : Failure} (h : (b.write name value).on s = (.error e, t)) :
    (set (some b) v name value).on s = (.error e, t) := by
  unfold set
  rw [Attempt.on_bind, h]

end Variables

namespace VariableFile

/-- What a run reads of a variable when its file is in memory. -/
def answer (d : Disk σ) (now : Timestamp) (v : Variables) (file : VariableFile) (disk : σ)
    (name : String) : Except Failure Value :=
  ((v.get (some (backing d now)) name).on (file, disk)).1

theorem answer_eq (d : Disk σ) (now : Timestamp) (v : Variables) (file : VariableFile) (disk : σ)
    (name : String) :
    answer d now v file disk name = match v.bound.get? name, file.value? name with
      | some value, _ => .ok value
      | none, some value => .ok value
      | none, none => v.default? name := by
  unfold answer Variables.get
  cases v.bound.get? name with
  | some value => rfl
  | none =>
      dsimp only
      have read : ((backing d now).read name).on (file, disk) =
        (.ok (file.value? name), file, disk) := rfl
      rw [Attempt.on_bind, read]
      cases file.value? name with
      | some value => rfl
      | none => cases v.default? name <;> rfl

theorem Change.entries_eq_self_iff {c : Change} {before : NameMap Entry} (saved : c.isSaved before) :
    c.entries before = before ↔
      ∃ now name value, c = .insert now name value ∧ before.get? name = some ⟨value, now⟩ := by
  cases c with
  | insert now name value =>
      rw [entries, NameMap.insert_eq_self_iff]
      constructor
      · exact fun found => ⟨now, name, value, rfl, found⟩
      · rintro ⟨_, _, _, ⟨⟩, found⟩
        exact found
  | remove name =>
      rw [entries, NameMap.erase_eq_self_iff]
      constructor
      · intro none
        rw [isSaved, none] at saved
        cases saved
      · rintro ⟨_, _, _, ⟨⟩, _⟩

theorem answer_insert_iff (d : Disk σ) (now : Timestamp) (v : Variables) (file : VariableFile)
    (disk disk' : σ) (name : String) (value : Value) :
    (∀ other, answer d now v { file with entries := file.entries.insert name ⟨value, now⟩ } disk' other
        = answer d now v file disk other) ↔
      (v.bound.get? name).isSome ∨ answer d now v file disk name = .ok value := by
  have bindings (other : String) :
      ({ file with entries := file.entries.insert name ⟨value, now⟩ } : VariableFile).value? other =
        if other = name then some value else file.value? other := by
    rw [value?, NameMap.get?_insert]
    split <;> rfl
  constructor
  · intro same
    cases bound : v.bound.get? name with
    | some old => exact .inl rfl
    | none =>
        right
        rw [← same name, answer_eq, bound, bindings, if_pos rfl]
  · intro known other
    rw [answer_eq, answer_eq, bindings]
    by_cases h : other = name
    · subst h
      rcases known with bound | known
      · obtain ⟨old, bound⟩ := Option.isSome_iff_exists.1 bound
        rw [bound]
      · rw [answer_eq] at known
        rw [if_pos rfl, known]
        cases bound : v.bound.get? other with
        | some old =>
            rw [bound] at known
            exact known
        | none => rfl
    · rw [if_neg h]

/--
A change that fails leaves the file on the disk as it is, but it is made in memory: it changes
nothing there exactly if it binds a variable to the value and time that it had. The next change that
is saved saves it too. For a run whose assignment fails, variables are read as before exactly if the
variable is bound in the run, or was already read with the value.
-/
theorem make_error {d : Disk σ} {Fit : σ → Prop} {c : Change} {file file' : VariableFile}
    {disk disk' : σ} {e : Failure} (laws : d.Replaces Fit file.path (draftPath file.path))
    (fit : Fit disk) (failed : (c.make d).on (file, disk) = (.error e, file', disk')) :
    d.readText file.path disk' = d.readText file.path disk ∧
    file' = { file with entries := c.entries file.entries } ∧
    (file' = file ↔ ∃ now name value, c = .insert now name value ∧
      file.entries.get? name = some ⟨value, now⟩) ∧
    (∀ changes file'' disk'', (makeAll d changes).on (file', disk') = (.ok (), file'', disk'') →
      isSavedAmong file'.entries changes →
      d.readText file.path disk'' =
        .ok (write (entriesAfter (c.entries file.entries) changes))) ∧
    (∀ now name value v, c = .insert now name value →
      (Variables.set (some (backing d now)) v name value).on (file, disk) =
        (.error e, file', disk') ∧
      ((∀ other, answer d now v file' disk' other = answer d now v file disk other) ↔
        (v.bound.get? name).isSome ∨ answer d now v file disk name = .ok value)) := by
  have made := Change.make_on laws fit c
  rw [failed] at made
  cases made with
  | failed saved fit' text =>
      refine ⟨text, rfl, ?_, ?_, ?_⟩
      · rw [← Change.entries_eq_self_iff saved]
        constructor
        · exact fun same => congrArg VariableFile.entries same
        · intro same
          rw [same]
      · intro changes file'' disk'' later savedLater
        obtain ⟨after, -, written⟩ := @makeAll_on_ok σ d Fit
          { file with entries := c.entries file.entries } file'' disk' disk'' laws fit' changes later
        rw [if_pos savedLater, after] at written
        exact written
      · rintro now name value v rfl
        exact ⟨Variables.set_on_error v failed, answer_insert_iff d now v file disk disk' name value⟩

/-! ## With a directory in the way of the draft -/

def blocked : FileTree :=
  { root := .directory FileTree.Node.usualPermissions [("vars.json.tmp", .newDirectory)] }

theorem atRoot_blocked : blocked.AtRoot :=
  ⟨rfl, rfl⟩

theorem insert_blocked (now : Timestamp) (name : String) (value : Value) :
    ((Change.insert now name value).make FileTree.disk).on ({ path := "vars.json" }, blocked) =
      (.error (.persistence "failed to write vars.json: Is a directory (os error 21)"),
        { path := "vars.json", entries := (∅ : NameMap Entry).insert name ⟨value, now⟩ },
        blocked) := by
  have saved := @save_plain ⟨"vars.json", (∅ : NameMap Entry).insert name ⟨value, now⟩⟩
    plainPath_vars blocked atRoot_blocked
  have inTheWay : (blocked.root.child? (draftPath "vars.json")).any FileTree.Node.isDirectory =
      true := by decide
  rw [inTheWay, if_pos rfl] at saved
  exact saved

theorem make_error_blocked : ∃ e file',
    ((Change.insert ⟨0, 0, 0⟩ "x" (.number 1.0)).make FileTree.disk).on
      ({ path := "vars.json" }, blocked) = (.error e, file', blocked) ∧
    file' = { path := "vars.json",
              entries := (∅ : NameMap Entry).insert "x" ⟨.number 1.0, ⟨0, 0, 0⟩⟩ } := by
  have failed := insert_blocked ⟨0, 0, 0⟩ "x" (.number 1.0)
  exact ⟨_, _, failed, (make_error plainPath_vars.replaces atRoot_blocked failed).2.1⟩

/-- The value of an assignment that was refused is read, where there was none before. -/
theorem insert_blocked_read : ∃ e file' disk',
    (insert FileTree.disk ⟨0, 0, 0⟩ "x" (.number 1.0)).on ({ path := "vars.json" }, blocked) =
      (.error e, file', disk') ∧
    (VariableFile.mk "vars.json" ∅).value? "x" = none ∧
    file'.value? "x" = some (.number 1.0) :=
  ⟨_, _, _, insert_blocked ⟨0, 0, 0⟩ "x" (.number 1.0), rfl, rfl⟩

end VariableFile

end ScreenScript
