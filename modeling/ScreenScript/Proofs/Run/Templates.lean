import ScreenScript.Proofs.Run.Dispatches
import ScreenScript.Proofs.Run.Upheld
import ScreenScript.Proofs.Script.Phrase
import ScreenScript.Proofs.Search.Failures
import ScreenScript.Proofs.Template.Store

namespace ScreenScript

open Attempt (Fails fails_bind fails_map fails_modify fails_onPart fails_pure fails_throw)

structure Stock {σ : Type} (d : Disk σ) (start : σ) (root : String) (τ : Type) where
  store : τ → TemplateStore
  disk : τ → σ
  /-- Whether the directory is as it was. -/
  Intact : τ → Prop
  read_eq : ∀ world, Intact world → ∀ id,
    Template.read d (disk world) (some root) id = Template.read d start (some root) id

namespace Stock

variable {σ τ : Type} {d : Disk σ} {start : σ} {root : String}

def read (_ : Stock d start root τ) (id : String) : Except Template.Fault Template :=
  Template.read d start (some root) id

def Spares (stock : Stock d start root τ) (after : τ → τ) : Prop :=
  ∀ world, stock.Intact world →
    stock.Intact (after world) ∧ stock.store (after world) = stock.store world

/-- The directory is as it was, and what the store keeps comes from it. -/
structure Sound (stock : Stock d start root τ) (world : τ) : Prop where
  intact : stock.Intact world
  root_eq : (stock.store world).root = some root
  faithful : (stock.store world).Faithful stock.read

theorem Sound.spared {stock : Stock d start root τ} {world : τ} (sound : stock.Sound world)
    {after : τ → τ} (spares : stock.Spares after) : stock.Sound (after world) := by
  obtain ⟨intact, same⟩ := spares world sound.intact
  exact ⟨intact, same ▸ sound.root_eq, same ▸ sound.faithful⟩

theorem Sound.load {stock : Stock d start root τ} {world : τ} (sound : stock.Sound world)
    (id : String) :
    ((stock.store world).load d (stock.disk world) id).1 =
        (stock.read id).mapError (·.failure id) ∧
      ((stock.store world).load d (stock.disk world) id).2.Faithful stock.read ∧
      ((stock.store world).load d (stock.disk world) id).2.root = some root := by
  have same : Template.read d (stock.disk world) (stock.store world).root id = stock.read id := by
    rw [sound.root_eq]
    exact stock.read_eq world sound.intact id
  obtain ⟨answer, faithful, kept⟩ := sound.faithful.load same
  exact ⟨answer, faithful, kept.trans sound.root_eq⟩

end Stock

variable {σ τ : Type} {d : Disk σ} {start : σ} {root : String} {stock : Stock d start root τ}

structure Surroundings.Stocked (w : Surroundings τ) (stock : Stock d start root τ) : Prop where
  template : ∀ id world, stock.Intact world →
    stock.Intact ((w.template id).on world).2 ∧
      (((w.template id).on world).1, stock.store ((w.template id).on world).2) =
        (stock.store world).load d (stock.disk world) id
  capture : stock.Spares fun world => (w.capture.on world).2
  logicalSize : stock.Spares fun world => (w.logicalSize.on world).2
  input : ∀ event, stock.Spares fun world => ((w.input event).on world).2
  sleep : ∀ nanoseconds, stock.Spares fun world => (w.sleep nanoseconds world).2
  read : ∀ b ∈ w.backing, ∀ name, stock.Spares fun world => ((b.read name).on world).2
  write : ∀ b ∈ w.backing, ∀ name value, stock.Spares fun world => ((b.write name value).on world).2
  now : stock.Spares fun world => (w.now world).2

namespace Surroundings.Stocked

variable {w : Surroundings τ}

theorem template_eq (stocked : w.Stocked stock) {world : τ} (sound : stock.Sound world) (id : String) :
    ((w.template id).on world).1 = (stock.read id).mapError (·.failure id) ∧
      stock.Sound ((w.template id).on world).2 := by
  obtain ⟨intact, loaded⟩ := stocked.template id world sound.intact
  obtain ⟨answer, faithful, kept⟩ := sound.load id
  rw [← loaded] at answer faithful kept
  exact ⟨answer, intact, kept, faithful⟩

theorem upholds (stocked : w.Stocked stock) : w.Upholds stock.Sound where
  capture _ sound := sound.spared stocked.capture
  logicalSize _ sound := sound.spared stocked.logicalSize
  input event _ sound := sound.spared (stocked.input event)
  sleep nanoseconds _ sound := sound.spared (stocked.sleep nanoseconds)
  template id _ sound := (stocked.template_eq sound id).2
  read b backed name _ sound := sound.spared (stocked.read b backed name)
  write b backed name value _ sound := sound.spared (stocked.write b backed name value)
  now _ sound := sound.spared stocked.now

end Surroundings.Stocked

/-! ## Instructions -/

namespace Session

variable {P : Failure → Prop} {w : World τ} {s : Session τ} {i : Instruction} {target : Target}

theorem fails_onWorld {α : Type} {a : Attempt τ α} (h : Fails P a) : Fails P (onWorld a) := by
  unfold onWorld onSearch Search.onWorld
  exact fails_onPart (fails_onPart h)

theorem fails_during {α : Type} (status : Status) {a : Attempt (Session τ) α} (h : Fails P a) :
    Fails P (during status a) := by
  intro s failure t made
  have whole : (during status a).on s =
      ((a.on (s.changed status)).1, (a.on (s.changed status)).2.changed .running) := rfl
  rw [whole] at made
  exact h _ failure _ (Prod.ext (Prod.mk.inj made).1 rfl)

theorem fails_act (fails : w.FailsWith P) (event : InputEvent) : Fails P (act w event) :=
  fails_during .acting (fails_bind (fails_modify _) fun _ => fails_onWorld (fails.input event))

theorem fails_search (fails : w.FailsWith P) (template : Template) (policy : Policy) :
    Fails P (during .matching (onSearch (Search.run w template policy))) := by
  unfold onSearch
  exact fails_during .matching (fails_onPart (Search.fails_run fails template policy))

theorem exists_visit_eq (fails : w.FailsWith P) (place : Place) (target : Target) (bestEffort : Bool)
    (event : Point → InputEvent) :
    ∃ rest, visit w place target bestEffort event = locate w target >>= rest ∧
      ∀ located, Fails P (rest located) := by
  refine ⟨_, rfl, ?_⟩
  rintro ⟨id, outcome⟩
  cases location : outcome.result.location with
  | some raw =>
      simp only [location]
      refine fails_bind (fails_onWorld fails.logicalSize) fun bounds => ?_
      exact fails_bind (fails_modify _) fun _ => fails_act fails _
  | none =>
      simp only [location]
      cases bestEffort with
      | true => exact fails_modify _
      | false => exact fails_throw (fails.timedOut ..)

theorem exists_step_eq (fails : w.FailsWith P) (aims : i.target? = some target) :
    ∃ rest, step w i = locate w target >>= rest ∧ ∀ located, Fails P (rest located) := by
  have visits : ∀ {place bestEffort event}, ∃ rest,
      (fun _ => Flow.next) <$> visit w place target bestEffort event = locate w target >>= rest ∧
        ∀ located, Fails P (rest located) := by
    intro place bestEffort event
    obtain ⟨rest, visits, clean⟩ := exists_visit_eq fails place target bestEffort event
    refine ⟨fun located => (fun _ => Flow.next) <$> rest located, ?_, ?_⟩
    · rw [visits, map_bind]
    · exact fun located => fails_map (clean located) _
  cases i with
  | loop | guard => cases aims
  | branch place target found missed =>
      cases aims
      exact ⟨_, rfl, fun located => fails_bind (fails_modify _) fun _ => fails_pure _⟩
  | act place action =>
      cases action with
      | click | hover =>
          cases aims
          exact visits
      | _ => cases aims

theorem locate_eq (w : World τ) (literal : target.template.names = []) :
    locate w target = onWorld (w.template target.template.written) >>= fun template =>
      (fun outcome => (target.template.written, outcome)) <$>
        during .matching (onSearch (Search.run w template target.policy)) := by
  have rendered : render w target.template = pure target.template.written :=
    Phrase.render_of_names_eq_nil literal _
  rw [locate, rendered, pure_bind]
  rfl

theorem absent_iff_of_step (stocked : w.Stocked stock)
    (fails : w.FailsWith fun failure => failure.code ≠ .templateNotFound)
    (sound : stock.Sound s.world) (aims : i.target? = some target)
    (literal : target.template.names = []) {result : Except Failure Flow} {after : Session τ}
    (made : (step w i).on s = (result, after)) :
    (∃ failure, result = .error failure ∧ failure.code = .templateNotFound) ↔
      ∃ fault, stock.read target.template.written = .error fault := by
  obtain ⟨rest, steps, clean⟩ := exists_step_eq fails aims
  obtain ⟨answer, -⟩ := stocked.template_eq sound target.template.written
  rw [steps, locate_eq w literal, bind_assoc, Attempt.on_bind, on_onWorld, answer] at made
  cases held : stock.read target.template.written with
  | error fault =>
      rw [held] at made
      cases made
      exact ⟨fun _ => ⟨fault, rfl⟩, fun _ => ⟨_, rfl, rfl⟩⟩
  | ok template =>
      -- With its template loaded, nothing that an instruction still does fails for want of one.
      rw [held] at made
      constructor
      · rintro ⟨failure, rfl, absent⟩
        have later := fails_map (fails_search fails template target.policy)
          fun outcome => (target.template.written, outcome)
        exact absurd absent (fails_bind later clean _ failure after made)
      · rintro ⟨fault, ⟨⟩⟩

end Session

/--
An instruction whose target has no placeholders fails for want of its template if and only if the
directory does not hold it, whatever the run has done before.
-/
theorem Machine.Dispatches.absent_iff {w : World τ} {program : Program} {s : Session τ}
    {i : Instruction} {target : Target} {result : Except Failure Flow} (stocked : w.Stocked stock)
    (fails : w.FailsWith fun failure => failure.code ≠ .templateNotFound)
    (sound : stock.Sound s.world) (dispatched : Dispatches w (s.launch w program) i result)
    (aims : i.target? = some target) (literal : target.template.names = []) :
    (∃ failure, result = .error failure ∧ failure.code = .templateNotFound) ↔
      ∃ fault, stock.read target.template.written = .error fault := by
  obtain @⟨m, _, _, _, passes, calm, frames, found, made⟩ := dispatched
  have still : stock.Sound (m.dispatched i).world := upheld_of_passes stocked.upholds sound passes
  exact Session.absent_iff_of_step stocked fails still aims literal made

end ScreenScript
