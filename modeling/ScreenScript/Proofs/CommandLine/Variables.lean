import ScreenScript.CommandLine.Variables
import ScreenScript.Proofs.Variables.Reopening

namespace ScreenScript

variable {σ : Type}

namespace VariableFile

variable {d : Disk σ} {Fit : σ → Prop} {file : VariableFile} {disk : σ} {path : String}

theorem insert_obliging (laws : d.Obliging Fit file.path (draftPath file.path)) (fit : Fit disk)
    (now : Timestamp) (name : String) (value : Value) :
    ∃ after, (insert d now name value).on (file, disk) =
        (.ok (), { file with entries := file.entries.insert name ⟨value, now⟩ }, after) ∧
      Fit after ∧ d.readText file.path after = .ok (write (file.entries.insert name ⟨value, now⟩)) :=
  @save_obliging σ d Fit { file with entries := file.entries.insert name ⟨value, now⟩ } disk laws fit

theorem remove_obliging (laws : d.Obliging Fit file.path (draftPath file.path)) (fit : Fit disk)
    {name : String} (found : (file.entries.get? name).isSome) :
    ∃ after, (remove d name).on (file, disk) =
        (.ok true, { file with entries := file.entries.erase name }, after) ∧
      Fit after ∧ d.readText file.path after = .ok (write (file.entries.erase name)) := by
  obtain ⟨after, saved, fit', text⟩ :=
    @save_obliging σ d Fit { file with entries := file.entries.erase name } disk laws fit
  refine ⟨after, ?_, fit', text⟩
  rw [remove_on_of_isSome found, Attempt.on_bind, saved]
  rfl

end VariableFile

namespace CommandLine

open VariableFile (Entry Faithful draftPath load)

/-- A command about variables, and the circumstances in which it is given. -/
structure Issued where
  circumstances : Circumstances
  request : VariablesRequest

/-- Whether the time of a command and a number that it sets are read back as they are written. -/
def Issued.Readable (i : Issued) : Prop :=
  i.circumstances.now.Proper ∧ ∀ name raw x, i.request = .set name raw →
    Value.infer raw = .number x → (Value.number x).reread? = some (.number x)

/-! ## One command -/

def entriesWith (entries : NameMap Entry) (i : Issued) : NameMap Entry :=
  match i.request with
  | .set name raw => entries.insert name ⟨Value.infer raw, i.circumstances.now⟩
  | .unset name => entries.erase name
  | .list _ | .get _ => entries

def replyFrom (entries : NameMap Entry) : VariablesRequest → Reply
  | .list json => listReply json entries
  | .get name => valueReply name ((entries.get? name).map Entry.value)
  | .set name raw => { output := Reply.unlines [s!"{name} = {(Value.infer raw).display}"] }
  | .unset name =>
    if (entries.get? name).isSome then {}
    else { errors := Reply.unlines [s!"variable '{name}' was not set"] }

theorem faithful_entriesWith {entries : NameMap Entry} (faithful : Faithful entries) {i : Issued}
    (readable : i.Readable) : Faithful (entriesWith entries i) := by
  obtain ⟨c, request⟩ := i
  intro name e found
  cases request with
  | list | get => exact faithful name e found
  | unset other =>
      rw [entriesWith, NameMap.get?_erase] at found
      split at found
      · cases found
      · exact faithful name e found
  | set other raw =>
      rw [entriesWith, NameMap.get?_insert] at found
      split at found
      · obtain rfl := Option.some.inj found
        refine ⟨readable.1, ?_⟩
        dsimp only
        cases inferred : Value.infer raw with
        | number x => exact readable.2 other raw x rfl inferred
        | text s => exact Value.reread?_text s
      · exact faithful name e found

theorem lasting_of_load {d : Disk σ} {Fit : σ → Prop} {path : String} {disk : σ}
    {entries : NameMap Entry} {i : Issued} (laws : d.Obliging Fit path (draftPath path))
    (fit : Fit disk) (opened : load d disk path = .ok { path, entries })
    (place : i.circumstances.environment.variablesPath = path) :
    ∃ after, lasting d i.circumstances i.request disk = (replyFrom entries i.request, after) ∧
      Fit after ∧ (Faithful (entriesWith entries i) →
        load d after path = .ok { path, entries := entriesWith entries i }) := by
  obtain ⟨c, request⟩ := i
  have got : (get : Attempt (VariableFile × σ) _).on ({ path, entries }, disk) =
    (.ok ({ path, entries }, disk), { path, entries }, disk) := rfl
  rw [lasting, place, opened]
  dsimp only
  cases request with
  | list json => exact ⟨disk, by rw [onVariables, Attempt.on_bind, got]; rfl, fit, fun _ => opened⟩
  | get name => exact ⟨disk, by rw [onVariables, Attempt.on_bind, got]; rfl, fit, fun _ => opened⟩
  | set name raw =>
      obtain ⟨after, inserted, fit', text⟩ :=
        @VariableFile.insert_obliging σ d Fit { path, entries } disk laws fit c.now name (Value.infer raw)
      refine ⟨after, ?_, fit', fun faithful => faithful.load text⟩
      rw [onVariables, Attempt.on_bind, inserted]
      rfl
  | unset name =>
      cases found : (entries.get? name).isSome with
      | false =>
          have none := Option.isNone_iff_eq_none.1 (Option.isSome_eq_false_iff.1 found)
          have idle := @VariableFile.remove_on_of_eq_none σ d { path, entries } disk name none
          have same : entriesWith entries ⟨c, .unset name⟩ = entries := NameMap.erase_eq_self_iff.2 none
          refine ⟨disk, ?_, fit, ?_⟩
          · rw [onVariables, Attempt.on_bind, idle, replyFrom, found]
            rfl
          · rw [same]
            exact fun _ => opened
      | true =>
          obtain ⟨after, removed, fit', text⟩ :=
            @VariableFile.remove_obliging σ d Fit { path, entries } disk laws fit name found
          refine ⟨after, ?_, fit', fun faithful => faithful.load text⟩
          rw [onVariables, Attempt.on_bind, removed, replyFrom, found]
          rfl

/-! ## One command after the other -/

def diskAfter (d : Disk σ) (past : List Issued) (disk : σ) : σ :=
  past.foldl (fun disk i => (lasting d i.circumstances i.request disk).2) disk

def entriesAfter (past : List Issued) : NameMap Entry :=
  past.foldl entriesWith ∅

theorem faithful_entriesAfter {past : List Issued} (readable : ∀ i ∈ past, i.Readable) :
    Faithful (entriesAfter past) := by
  induction past using List.reverseRecOn with
  | nil => exact fun name e found => nomatch found
  | append_singleton past i ih =>
      rw [entriesAfter, List.foldl_concat]
      have before := ih fun j member => readable j (List.mem_append_left _ member)
      exact faithful_entriesWith before (readable i (by simp))

theorem load_diskAfter {d : Disk σ} {Fit : σ → Prop} {path : String} {disk : σ} {past : List Issued}
    (laws : d.Obliging Fit path (draftPath path)) (fit : Fit disk)
    (missing : d.readText path disk = .error .notFound)
    (place : ∀ i ∈ past, i.circumstances.environment.variablesPath = path)
    (readable : ∀ i ∈ past, i.Readable) :
    Fit (diskAfter d past disk) ∧
      load d (diskAfter d past disk) path = .ok { path, entries := entriesAfter past } := by
  induction past using List.reverseRecOn with
  | nil => exact ⟨fit, by rw [diskAfter, List.foldl_nil, load, missing]; rfl⟩
  | append_singleton past i ih =>
      obtain ⟨fit', opened⟩ := ih (fun j member => place j (List.mem_append_left _ member))
        fun j member => readable j (List.mem_append_left _ member)
      have faithful := faithful_entriesAfter readable
      rw [entriesAfter, List.foldl_concat] at faithful ⊢
      obtain ⟨after, replied, fit'', opened'⟩ :=
        lasting_of_load laws fit' opened (place i (by simp))
      rw [diskAfter, List.foldl_concat]
      rw [diskAfter] at replied
      rw [replied]
      exact ⟨fit'', opened' faithful⟩

def changed? : VariablesRequest → Option String
  | .set name _ | .unset name => some name
  | .list _ | .get _ => none

/-- Whether a name was set to a text at some time, and neither set again nor removed since. -/
def Stands (past : List Issued) (name raw : String) (now : Timestamp) : Prop :=
  ∃ before c after, past = before ++ ⟨c, .set name raw⟩ :: after ∧ c.now = now ∧
    ∀ i ∈ after, changed? i.request ≠ some name

theorem not_stands_nil (name raw : String) (now : Timestamp) : ¬ Stands [] name raw now := by
  rintro ⟨before, c, after, whole, -⟩
  cases before with
  | nil => cases whole
  | cons i before => cases whole

theorem stands_concat_iff {past : List Issued} {i : Issued} {name raw : String} {now : Timestamp} :
    Stands (past ++ [i]) name raw now ↔
      i.request = .set name raw ∧ i.circumstances.now = now ∨
        Stands past name raw now ∧ changed? i.request ≠ some name := by
  constructor
  · rintro ⟨before, c, after, whole, time, later⟩
    rcases List.eq_nil_or_concat after with rfl | ⟨init, last, rfl⟩
    · obtain ⟨-, same⟩ := List.append_inj' whole rfl
      cases same
      exact .inl ⟨rfl, time⟩
    · rw [List.concat_eq_append, ← List.cons_append, ← List.append_assoc] at whole
      obtain ⟨same, last_eq⟩ := List.append_inj' whole rfl
      cases last_eq
      refine .inr ⟨⟨before, c, init, same, time, fun j member => later j ?_⟩, later i (by simp)⟩
      rw [List.concat_eq_append]
      exact List.mem_append_left _ member
  · rintro (⟨request, time⟩ | ⟨⟨before, c, after, rfl, time, later⟩, other⟩)
    · obtain ⟨c, _⟩ := i
      cases request
      exact ⟨past, c, [], rfl, time, nofun⟩
    · refine ⟨before, c, after ++ [i], by simp, time, fun j member => ?_⟩
      rcases List.mem_append.1 member with inside | last
      · exact later j inside
      · cases List.mem_singleton.1 last
        exact other

theorem get?_entriesAfter {past : List Issued} {name : String} {e : Entry} :
    (entriesAfter past).get? name = some e ↔
      ∃ raw now, Stands past name raw now ∧ e = ⟨Value.infer raw, now⟩ := by
  induction past using List.reverseRecOn generalizing e with
  | nil =>
      constructor
      · nofun
      · rintro ⟨raw, now, stands, -⟩
        exact absurd stands (not_stands_nil name raw now)
  | append_singleton past i ih =>
      obtain ⟨c, request⟩ := i
      rw [entriesAfter, List.foldl_concat, ← entriesAfter]
      simp only [stands_concat_iff]
      cases request with
      | list | get => simp [entriesWith, changed?, ih]
      | unset other =>
          rw [entriesWith, NameMap.get?_erase]
          by_cases same : name = other
          · simp [same, changed?]
          · simp [same, Ne.symm same, changed?, ih]
      | set other raw =>
          rw [entriesWith, NameMap.get?_insert]
          by_cases same : name = other
          · simp [same, changed?, eq_comm]
          · simp [same, Ne.symm same, changed?, ih]

theorem unlines_singleton (line : String) : Reply.unlines [line] = line ++ "\n" := by
  simp [Reply.unlines]

theorem display_infer (raw : String) :
    (Value.infer raw).display = raw ∨ (Value.infer raw).display = Text.trimmed raw := by
  unfold Value.infer
  split
  · split
    · exact .inr ‹_›
    · exact .inl rfl
  · exact .inl rfl

/--
The commands about variables are those of a map, on a disk that does what it is asked to and has no file
of variables at first. After some commands, a name has the value that it was set to last, unless it was
removed since: `get` displays it, or prints nothing and fails. `list` prints the names that have values in
ascending order, each once. `set` and `unset` succeed. A value is displayed as it was given, without the
blanks at its ends if it is a number.
-/
theorem lasting_after {d : Disk σ} {Fit : σ → Prop} {path : String} {disk : σ} {past : List Issued}
    {c : Circumstances} (laws : d.Obliging Fit path (draftPath path)) (fit : Fit disk)
    (missing : d.readText path disk = .error .notFound)
    (place : ∀ i ∈ past, i.circumstances.environment.variablesPath = path)
    (readable : ∀ i ∈ past, i.Readable) (here : c.environment.variablesPath = path) :
    (∀ name raw now, Stands past name raw now →
      (lasting d c (.get name) (diskAfter d past disk)).1 =
        { exitCode := 0, output := (Value.infer raw).display ++ "\n" }) ∧
    (∀ name, (¬ ∃ raw now, Stands past name raw now) →
      ∃ errors, (lasting d c (.get name) (diskAfter d past disk)).1 =
        { exitCode := 2, output := "", errors }) ∧
    (∃ list : List (String × Entry), list.Pairwise (fun a b => a.1 < b.1) ∧
      (∀ name e, (name, e) ∈ list ↔
        ∃ raw now, Stands past name raw now ∧ e = ⟨Value.infer raw, now⟩) ∧
      (lasting d c (.list false) (diskAfter d past disk)).1 =
        { exitCode := 0, output := Reply.unlines (list.map fun (name, e) =>
            s!"{name} = {e.value.display}  (updated {e.updated.display})") } ∧
      (lasting d c (.list true) (diskAfter d past disk)).1 =
        .ofJson 0 (.object (list.map fun (name, e) => (name, e.toJson)))) ∧
    (∀ name raw, (lasting d c (.set name raw) (diskAfter d past disk)).1 =
      { exitCode := 0, output := s!"{name} = {(Value.infer raw).display}\n" }) ∧
    (∀ name, ∃ errors, (lasting d c (.unset name) (diskAfter d past disk)).1 =
      { exitCode := 0, output := "", errors }) ∧
    ∀ raw, (Value.infer raw).display = raw ∨ (Value.infer raw).display = Text.trimmed raw := by
  obtain ⟨fit', opened⟩ := load_diskAfter laws fit missing place readable
  -- Every command replies from the map that the commands before it have made.
  have replied : ∀ request, (lasting d c request (diskAfter d past disk)).1 =
      replyFrom (entriesAfter past) request := by
    intro request
    obtain ⟨after, reply, -⟩ := lasting_of_load (i := ⟨c, request⟩) laws fit' opened here
    exact congrArg Prod.fst reply
  refine ⟨?_, ?_, ?_, ?_, ?_, display_infer⟩
  · intro name raw now stands
    have found := get?_entriesAfter.2 ⟨raw, now, stands, rfl⟩
    rw [replied, replyFrom, found, Option.map_some, valueReply, unlines_singleton]
  · intro name unknown
    have none : (entriesAfter past).get? name = none := by
      refine Option.eq_none_iff_forall_ne_some.2 fun e found => unknown ?_
      obtain ⟨raw, now, stands, -⟩ := get?_entriesAfter.1 found
      exact ⟨raw, now, stands⟩
    rw [replied, replyFrom, none]
    exact ⟨_, rfl⟩
  · refine ⟨(entriesAfter past).toList, (entriesAfter past).sorted, fun name e => ?_, ?_, ?_⟩
    · rw [NameMap.mem_toList]
      exact get?_entriesAfter
    · rw [replied]
      rfl
    · rw [replied]
      rfl
  · intro name raw
    rw [replied, replyFrom, unlines_singleton]
    rfl
  · intro name
    rw [replied, replyFrom]
    split
    · exact ⟨_, rfl⟩
    · exact ⟨_, rfl⟩

/-! ## On a disk of texts -/

def textDisk : Disk (NameMap String) where
  isFile path texts := (texts.get? path).isSome
  readText path texts := match texts.get? path with
    | some text => .ok text
    | none => .error .notFound
  readPicture _ _ := .error "no picture"
  makePrivate _ texts := (.ok (), texts)
  writeText path text texts := (.ok (), texts.insert path text)
  replace draft path texts := match texts.get? draft with
    | some text => (.ok (), (texts.erase draft).insert path text)
    | none => (.error .notFound, texts)

theorem textDisk_obliging {path draft : String} (ne : path ≠ draft) :
    textDisk.Obliging (fun _ => True) path draft where
  makePrivate_fit _ _ _ := trivial
  makePrivate_keeps _ _ _ := rfl
  writeText_fit _ := trivial
  writeText_keeps _ := by simp [textDisk, ne]
  writeText_reads _ _ := by simp [textDisk]
  replace_fit _ := trivial
  replace_keeps {texts} _ failed := by
    cases found : texts.get? draft with
    | none => simp [textDisk, found]
    | some text => simp [textDisk, found] at failed
  replace_reads {texts} _ replaced := by
    cases found : texts.get? draft with
    | none => simp [textDisk, found] at replaced
    | some text => simp [textDisk, found]
  makePrivate_ok _ _ _ := rfl
  writeText_ok _ := rfl
  replace_ok {text texts} _ drafted := by
    cases found : texts.get? draft with
    | none => simp [textDisk, found] at drafted
    | some text => simp [textDisk, found]

def circumstances : Circumstances where
  environment := { entries := .ofList [("SIGHTLINE_HOME", "/data")] }
  now := ⟨0, 0, 0⟩
  runId := ""

def setTwice : List Issued :=
  [⟨circumstances, .set "x" "2"⟩, ⟨circumstances, .set "y" " two "⟩, ⟨circumstances, .set "x" " 3"⟩]

def setAndRemoved : List Issued :=
  setTwice ++ [⟨circumstances, .unset "y"⟩]

theorem lasting_after_setAndRemoved :
    (lasting textDisk circumstances (.get "x") (diskAfter textDisk setAndRemoved ∅)).1 =
      { exitCode := 0, output := "3\n" } ∧
    (lasting textDisk circumstances (.get "y") (diskAfter textDisk setTwice ∅)).1 =
      { exitCode := 0, output := " two \n" } ∧
    ∃ errors, (lasting textDisk circumstances (.get "y") (diskAfter textDisk setAndRemoved ∅)).1 =
      { exitCode := 2, output := "", errors } := by
  have obliging : textDisk.Obliging (fun _ => True) "/data/vars.json" (draftPath "/data/vars.json") :=
    textDisk_obliging (by decide)
  have here : circumstances.environment.variablesPath = "/data/vars.json" := by decide +kernel
  have proper : circumstances.now.Proper := ⟨by decide, by decide, .inl (by decide)⟩
  have numbers : ∀ i ∈ setAndRemoved, ∀ name raw x, i.request = .set name raw →
      Value.infer raw = .number x → (Value.number x).reread? = some (.number x) := by
    simp only [setAndRemoved, setTwice, List.cons_append, List.nil_append, List.forall_mem_cons]
    refine ⟨?_, ?_, ?_, ?_, nofun⟩
    · rintro _ _ x ⟨⟩ ⟨⟩
      rfl
    · rintro _ _ x ⟨⟩ ⟨⟩
    · rintro _ _ x ⟨⟩ ⟨⟩
      rfl
    · rintro _ _ x ⟨⟩
  have issued : ∀ i ∈ setAndRemoved, i.circumstances = circumstances := by
    simp [setAndRemoved, setTwice]
  have places : ∀ i ∈ setAndRemoved, i.circumstances.environment.variablesPath = "/data/vars.json" :=
    fun i member => by rw [issued i member, here]
  have readable : ∀ i ∈ setAndRemoved, i.Readable :=
    fun i member => ⟨by rw [issued i member]; exact proper, numbers i member⟩
  have earlier : ∀ i ∈ setTwice, i ∈ setAndRemoved := fun i member => List.mem_append_left _ member
  have missing : textDisk.readText "/data/vars.json" ∅ = .error .notFound := rfl
  have places' : ∀ i ∈ setTwice, i.circumstances.environment.variablesPath = "/data/vars.json" :=
    fun i member => places i (earlier i member)
  obtain ⟨known, unknown, -⟩ := lasting_after obliging trivial missing places readable here
  obtain ⟨known', -⟩ := lasting_after obliging trivial missing places'
    (fun i member => readable i (earlier i member)) here
  refine ⟨known "x" " 3" ⟨0, 0, 0⟩ ?_, known' "y" " two " ⟨0, 0, 0⟩ ?_, unknown "y" ?_⟩
  · exact ⟨setTwice.take 2, circumstances, [⟨circumstances, .unset "y"⟩], rfl, rfl, by simp [changed?]⟩
  · exact ⟨setTwice.take 1, circumstances, setTwice.drop 2, rfl, rfl, by simp [setTwice, changed?]⟩
  · rintro ⟨raw, now, stands⟩
    rcases stands_concat_iff.1 stands with ⟨⟨⟩, -⟩ | ⟨-, other⟩
    exact other rfl

end CommandLine

end ScreenScript
