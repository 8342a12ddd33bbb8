import ScreenScript.CommandLine.Check
import ScreenScript.CommandLine.Run
import ScreenScript.Proofs.Rehearsal
import ScreenScript.Proofs.Run.Templates
import ScreenScript.Proofs.Script.Numbering

namespace ScreenScript.CommandLine

variable {σ τ : Type} {d : Disk σ} {disk : σ}
  {read : String → Except Template.Fault Template} {i : Instruction} {entry : MissingTemplate}

/-! ## The list -/

theorem literalTemplate?_eq_some_iff {id : String} :
    literalTemplate? i = some id ↔ ∃ target, i.target? = some target ∧
      target.template.names = [] ∧ target.template.written = id := by
  rw [literalTemplate?, Option.bind_eq_some_iff]
  simp only [Phrase.literal?_eq_some_iff]

def missing? (read : String → Except Template.Fault Template) (i : Instruction) :
    Option MissingTemplate :=
  (literalTemplate? i).bind fun id =>
    match read id with
    | .ok _ => none
    | .error fault => some ⟨id, i.line, (fault.failure id).message⟩

theorem missing?_eq_some_iff :
    missing? read i = some entry ↔ ∃ target fault, i.target? = some target ∧
      target.template.names = [] ∧ read target.template.written = .error fault ∧
      entry = ⟨target.template.written, i.line, (fault.failure target.template.written).message⟩ := by
  rw [missing?, Option.bind_eq_some_iff]
  constructor
  · rintro ⟨id, named, said⟩
    obtain ⟨target, aims, literal, rfl⟩ := literalTemplate?_eq_some_iff.1 named
    cases held : read target.template.written with
    | ok t =>
        rw [held] at said
        cases said
    | error fault =>
        rw [held] at said
        cases said
        exact ⟨target, fault, aims, literal, held, rfl⟩
  · rintro ⟨target, fault, aims, literal, held, rfl⟩
    refine ⟨_, literalTemplate?_eq_some_iff.2 ⟨target, aims, literal, rfl⟩, ?_⟩
    rw [held]

theorem line_of_missing? (h : missing? read i = some entry) : entry.line = i.line := by
  obtain ⟨target, fault, -, -, -, rfl⟩ := missing?_eq_some_iff.1 h
  rfl

theorem missingTemplates_eq {store : TemplateStore} (faithful : store.Faithful read)
    (same : ∀ id, Template.read d disk store.root id = read id) (list : List Instruction) :
    missingTemplates d disk list store = list.filterMap (missing? read) := by
  induction list generalizing store with
  | nil => rfl
  | cons i rest ih =>
      cases named : literalTemplate? i with
      | none =>
          have silent : missing? read i = none := by rw [missing?, named]; rfl
          rw [missingTemplates, named, List.filterMap_cons_none silent]
          exact ih faithful same
      | some id =>
          obtain ⟨answer, after, kept⟩ := faithful.load (same id)
          rcases loaded : store.load d disk id with ⟨result, store'⟩
          rw [loaded] at answer after kept
          have rest_eq : missingTemplates d disk rest store' = rest.filterMap (missing? read) :=
            ih after fun id => by rw [kept, same id]
          rw [missingTemplates, named]
          cases held : read id with
          | ok t =>
              have silent : missing? read i = none := by rw [missing?, named, Option.bind_some, held]
              rw [held] at answer
              cases answer
              rw [List.filterMap_cons_none silent]
              simp only [loaded, rest_eq]
          | error fault =>
              have said : missing? read i = some ⟨id, i.line, (fault.failure id).message⟩ := by
                rw [missing?, named, Option.bind_some, held]
              rw [held] at answer
              cases answer
              rw [List.filterMap_cons_some said]
              simp only [loaded, rest_eq]

theorem exitCode_eq_zero_iff {json : Bool} {program : Program} {missing : List MissingTemplate} :
    (checkReply json program missing).exitCode = 0 ↔ missing = [] := by
  cases missing with
  | nil => cases json <;> simp [checkReply, Reply.ofJson]
  | cons entry rest => cases json <;> simp [checkReply, Reply.ofJson, Reply.invalidScript]

/-! ## The runs -/

structure Foretells (missing : List MissingTemplate) (w : World τ) (program : Program)
    (s : Session τ) : Prop where
  dispatched : ∀ i target result, (s.launch w program).Dispatches w i result →
    i.target? = some target → target.template.names = [] →
      ((∃ failure, result = .error failure ∧ failure.code = .templateNotFound) ↔
        ∃ entry ∈ missing, entry.line = i.line)
  reported : missing = [] → ∀ runId f, (s.execute w program runId).1.failure = some f →
    f.failure.code = .templateNotFound → ∀ depth i target, (depth, i) ∈ program.walk →
      i.index = f.index → i.target? = some target → target.template.names ≠ []
  skipped : missing = [] → ∀ runId index line failure,
    .skipped index line failure ∈ (s.execute w program runId).2.session.journal →
    failure.code = .templateNotFound → ∀ depth i target, (depth, i) ∈ program.walk →
      i.index = index → i.target? = some target → target.template.names ≠ []

section Foretells

variable {root : String} {stock : Stock d disk root τ} {w : World τ} {program : Program}
  {source : String} {s : Session τ} {target : Target}

theorem mem_filterMap_missing? :
    entry ∈ (program.walk.map (·.2)).filterMap (missing? read) ↔
      ∃ depth i, (depth, i) ∈ program.walk ∧ missing? read i = some entry := by
  simp [List.mem_filterMap]

theorem exists_fault_iff (parsed : Program.parse source = .ok program)
    {around : List Instruction} (place : (around, i) ∈ program.places)
    (aims : i.target? = some target) (literal : target.template.names = []) :
    (∃ fault, read target.template.written = .error fault) ↔
      ∃ entry ∈ (program.walk.map (·.2)).filterMap (missing? read), entry.line = i.line := by
  constructor
  · rintro ⟨fault, held⟩
    have said := missing?_eq_some_iff.2 ⟨target, fault, aims, literal, held, rfl⟩
    have walked := Program.mem_walk_of_mem_places place
    exact ⟨_, mem_filterMap_missing?.2 ⟨_, i, walked, said⟩, rfl⟩
  · -- Lines tell instructions apart, so an entry with the line of this one is about it.
    rintro ⟨entry, member, same⟩
    obtain ⟨depth, j, walked, said⟩ := mem_filterMap_missing?.1 member
    obtain ⟨around', place'⟩ := Program.exists_mem_places_of_mem_walk walked
    have line : j.line = i.line := (line_of_missing? said).symm.trans same
    obtain ⟨-, rfl⟩ := Prod.mk.inj (Program.places_unique_of_line parsed place' place line)
    obtain ⟨target', fault, aims', -, held, -⟩ := missing?_eq_some_iff.1 said
    rw [aims] at aims'
    cases aims'
    exact ⟨fault, held⟩

theorem foretells (parsed : Program.parse source = .ok program) (stocked : w.Stocked stock)
    (fails : w.FailsWith fun failure => failure.code ≠ .templateNotFound)
    (sound : stock.Sound s.world) :
    Foretells ((program.walk.map (·.2)).filterMap (missing? stock.read)) w program s := by
  have listed : ∀ i target result, (s.launch w program).Dispatches w i result →
      i.target? = some target → target.template.names = [] →
        ((∃ failure, result = .error failure ∧ failure.code = .templateNotFound) ↔
          ∃ entry ∈ (program.walk.map (·.2)).filterMap (missing? stock.read),
            entry.line = i.line) := by
    intro i target result dispatched aims literal
    obtain ⟨around, place⟩ := dispatched.exists_place
    rw [dispatched.absent_iff stocked fails sound aims literal]
    exact exists_fault_iff parsed place aims literal
  have clean : (program.walk.map (·.2)).filterMap (missing? stock.read) = [] →
      ∀ i failure, (s.launch w program).Dispatches w i (.error failure) →
        failure.code = .templateNotFound → ∀ depth j target, (depth, j) ∈ program.walk →
          j.index = i.index → j.target? = some target → target.template.names ≠ [] := by
    intro none i failure dispatched code depth j target walked same aims literal
    obtain ⟨around, place⟩ := dispatched.exists_place
    obtain ⟨around', place'⟩ := Program.exists_mem_places_of_mem_walk walked
    obtain ⟨-, rfl⟩ := Prod.mk.inj (Program.places_unique parsed place' place same)
    obtain ⟨entry, member, -⟩ := (listed j target _ dispatched aims literal).1 ⟨failure, rfl, code⟩
    rw [none] at member
    cases member
  refine ⟨listed, ?_, ?_⟩
  · intro none runId f reported code depth i target walked same
    obtain ⟨j, dispatched, index, -⟩ := Session.exists_dispatches_of_failure reported
    exact clean none j f.failure dispatched code depth i target walked (same.trans index)
  · intro none runId index line failure skipped code depth i target walked same
    obtain ⟨j, dispatched, index, -⟩ := Session.exists_dispatches_of_skipped skipped
    exact clean none j failure dispatched code depth i target walked (same.trans index)

end Foretells

/--
A check lists, in the order of the script, every click, hover and branch whose target has no
placeholders and whose template the directory does not hold, and succeeds if there are none. Every run
of the program against the same directory agrees, whatever the screen, the variables and the clock are:
such an instruction fails for want of its template if and only if it is listed, and if none is, no run
ends for that reason at a target without placeholders, or skips one.
-/
theorem check_agrees (d : Disk σ) (c : Circumstances) (request : CheckRequest) (disk : σ)
    {text : String} {program : Program} (readable : request.source.text d disk = .ok text)
    (parsed : Program.parse text = .ok program) :
    let root := c.environment.templatesDirectory request.templates
    let read := fun id => Template.read d disk (some root) id
    ∃ missing, check d c request disk = (checkReply request.json program missing, disk) ∧
      ((check d c request disk).1.exitCode = 0 ↔ missing = []) ∧
      missing = (program.walk.map (·.2)).filterMap (missing? read) ∧
      (∀ entry, entry ∈ missing ↔ ∃ depth i target fault, (depth, i) ∈ program.walk ∧
        i.target? = some target ∧ target.template.names = [] ∧
        read target.template.written = .error fault ∧
        entry = ⟨target.template.written, i.line,
          (fault.failure target.template.written).message⟩) ∧
      ∀ (τ : Type) (stock : Stock d disk root τ) (w : World τ) (s : Session τ), w.Stocked stock →
        (w.FailsWith fun failure => failure.code ≠ .templateNotFound) → stock.Sound s.world →
          Foretells missing w program s := by
  intro root read
  have whole : check d c request disk =
      (checkReply request.json program ((program.walk.map (·.2)).filterMap (missing? read)), disk) := by
    rw [check, Source.withProgram, readable]
    simp only [parsed]
    rw [missingTemplates_eq (TemplateStore.faithful_empty _) fun id => rfl]
  refine ⟨_, whole, ?_, rfl, ?_, ?_⟩
  · rw [whole]
    exact exitCode_eq_zero_iff
  · intro entry
    rw [mem_filterMap_missing?]
    simp only [missing?_eq_some_iff, exists_and_left]
  · intro τ stock w s stocked fails sound
    exact foretells parsed stocked fails sound

/-! ## Runs against a picture -/

section Rehearsal

variable {root : String} (Fit : VariableFile → σ → Prop)
  (same : ∀ file now, Fit file now → ∀ id,
    Template.read d now (some root) id = Template.read d disk (some root) id)

def Workspace.stock : Stock d disk root (Rehearsal (Workspace σ)) where
  store r := r.rest.templates
  disk r := r.rest.disk
  Intact r := Fit r.rest.file r.rest.disk
  read_eq r fit := same r.rest.file r.rest.disk fit

theorem spares_of_rest {after : Rehearsal (Workspace σ) → Rehearsal (Workspace σ)}
    (h : ∀ r, (after r).rest = r.rest) :
    (Workspace.stock Fit same).Spares after := by
  intro r fit
  refine ⟨?_, congrArg Workspace.templates (h r)⟩
  change Fit (after r).rest.file (after r).rest.disk
  rw [h r]
  exact fit

theorem stocked_rehearsal (plan : Rehearsal.Plan) (now : Timestamp) (persist : Bool)
    (saves : persist = true → ∀ name value, Attempt.Keeps (fun x => Fit x.1 x.2)
      (fun x => Fit x.1 x.2) (VariableFile.insert d now name value)) :
    (Rehearsal.world plan (Workspace.template d)
      (if persist then some (Workspace.backing d now) else none)).Stocked
        (Workspace.stock Fit same) where
  template id r fit := ⟨fit, rfl⟩
  capture := spares_of_rest Fit same (Rehearsal.rest_capture plan)
  logicalSize := spares_of_rest Fit same (Rehearsal.rest_logicalSize plan)
  input event := spares_of_rest Fit same (Rehearsal.rest_input plan event)
  sleep _ _ fit := ⟨fit, rfl⟩
  read b backed name r fit := by
    cases persist with
    | false => cases backed
    | true =>
        cases backed
        exact ⟨fit, rfl⟩
  write b backed name value r fit := by
    cases persist with
    | false => cases backed
    | true =>
        cases backed
        exact ⟨saves rfl name value (r.rest.file, r.rest.disk) fit, rfl⟩
  now _ fit := ⟨fit, rfl⟩

end Rehearsal

def guardedClick : CheckRequest where
  source := { script := "try \x7b\n  click a\n\x7d\nhover $\x7bx\x7d\n", inlineText := true }
  templates := none
  json := false

def bareDisk : Disk Unit where
  isFile _ _ := false
  readText _ _ := .error .notFound
  readPicture _ _ := .error Disk.Fault.notFound.message
  makePrivate _ _ := (.ok (), ())
  writeText _ _ _ := (.ok (), ())
  replace _ _ _ := (.ok (), ())

theorem check_agrees_guardedClick :
    ∃ program missing, Program.parse guardedClick.source.script = .ok program ∧
      (check bareDisk { environment := {}, now := ⟨0, 0, 0⟩, runId := "" } guardedClick ()).1 =
        checkReply false program missing ∧
      missing.map (·.line) = [2] ∧
      Foretells missing (Rehearsal.world { frames := #[] } (Workspace.template bareDisk) none) program
        (Session.start { rest := {
          templates := { root := "templates" }, file := { path := "" }, disk := () } } program) := by
  have counted : (Program.parse guardedClick.source.script).toOption.map (fun p =>
      ((p.walk.map (·.2)).filterMap (missing? fun id =>
        Template.read bareDisk () (some "templates") id)).map (·.line)) = some [2] := by
    decide +kernel
  cases parsed : Program.parse guardedClick.source.script with
  | error failure =>
      rw [parsed] at counted
      cases counted
  | ok program =>
      rw [parsed] at counted
      obtain ⟨missing, whole, -, listed, -, foretells⟩ := check_agrees bareDisk
        { environment := {}, now := ⟨0, 0, 0⟩, runId := "" } guardedClick () rfl parsed
      have same : ∀ (file : VariableFile) (now : Unit), True → ∀ id,
          Template.read bareDisk now (some "templates") id =
            Template.read bareDisk () (some "templates") id := fun _ _ _ _ => rfl
      have stocked := stocked_rehearsal (fun _ _ => True) same { frames := #[] } ⟨0, 0, 0⟩ false nofun
      refine ⟨program, missing, rfl, congrArg Prod.fst whole, ?_, ?_⟩
      · rw [listed]
        exact Option.some.inj counted
      · exact foretells _ _ _ _ stocked (Rehearsal.surroundings_failsWith _ _ _)
          ⟨trivial, rfl, TemplateStore.faithful_empty _⟩

end ScreenScript.CommandLine
