import ScreenScript.Proofs.Expr.Names
import ScreenScript.Proofs.Search.Accord
import ScreenScript.Run.Report

/-!
# Instructions that agree

What an instruction does in a session comes down to a few acts: it looks variables up and binds them,
loads templates, asks for the size of the screen, sleeps, searches, notes what it does, and sends at
most one input, which is always the last act. `Session.Accord` lists what has to agree for two kinds of
worlds in each of them, where the states after an input may be related more loosely; then whole
instructions agree (`Session.Accord.agrees_step`). For a single world this is a list of what each act
has to keep (`Session.Habit`).
-/

namespace ScreenScript.Session

open Attempt (Agrees Keeps Same agrees_bind agrees_get_bind agrees_map agrees_ofExcept agrees_pure
  agrees_throw)

variable {σ τ α β : Type}

def Remarks : Journal.Entry → Prop
  | .logged .. | .launching .. | .abortReason .. | .assigning .. | .branch .. | .located ..
  | .notFound .. => True
  | _ => False

/-! ## Changes of status -/

theorem world_changed (s : Session σ) (status : Status) : (s.changed status).world = s.world := by
  unfold changed
  split <;> rfl

theorem world_noted (s : Session σ) (entry : Journal.Entry) : (s.noted entry).world = s.world :=
  rfl

theorem status_changed (s : Session σ) (status : Status) : (s.changed status).status = status := by
  unfold changed
  split
  · assumption
  · rfl

theorem cache_changed (s : Session σ) (status : Status) :
    (s.changed status).search.cache = s.search.cache := by
  unfold changed
  split <;> rfl

theorem keeps_during {I I' J J' : Session σ → Prop} {status : Status} {a : Attempt (Session σ) α}
    (enter : ∀ s, I s → I' (s.changed status)) (h : Keeps I' J' a)
    (leave : ∀ s, J' s → J (s.changed .running)) : Keeps I J (during status a) :=
  fun s holds => leave _ (h _ (enter s holds))

theorem keeps_world_during {I J : σ → Prop} (status : Status) {a : Attempt (Session σ) α}
    (h : Keeps (fun s => I s.world) (fun s => J s.world) a) :
    Keeps (fun s => I s.world) (fun s => J s.world) (during status a) := by
  refine keeps_during ?_ h ?_
  · intro s holds
    rwa [world_changed]
  · intro s holds
    rwa [world_changed]

theorem keeps_world_onSearch {I J : σ → Prop} {a : Attempt (Search σ) α}
    (h : Keeps (fun s => I s.world) (fun s => J s.world) a) :
    Keeps (fun s => I s.world) (fun s => J s.world) (onSearch a) :=
  fun s holds => h s.search holds

/-! ## Variables -/

theorem on_onWorld (a : Attempt σ α) (s : Session σ) :
    (onWorld a).on s = ((a.on s.world).1, s.inWorld (a.on s.world).2) :=
  rfl

theorem onWorld_ofExcept (e : Except Failure α) :
    (onWorld (ofExcept e) : Attempt (Session σ) α) = ofExcept e := by
  cases e <;> rfl

theorem onWorld_bind (a : Attempt σ α) (f : α → Attempt σ β) :
    onWorld (a >>= f) = onWorld a >>= fun x => onWorld (f x) := by
  funext s
  change (onWorld (a >>= f)).on s = (onWorld a >>= fun x => onWorld (f x)).on s
  rw [Attempt.on_bind, on_onWorld, on_onWorld, Attempt.on_bind]
  rcases a.on s.world with ⟨result, world⟩
  cases result <;> rfl

def Alike (P : Session τ → Session σ → Prop) (b : Backing τ) (c : Backing σ) : Prop :=
  (∀ name, Agrees P P (onWorld (b.read name)) (onWorld (c.read name))) ∧
    ∀ name value, Agrees P P (onWorld (b.write name value)) (onWorld (c.write name value))

section Alike

variable {P : Session τ → Session σ → Prop} {b : Option (Backing τ)} {c : Option (Backing σ)}

theorem agrees_get (alike : Option.Rel (Alike P) b c) (bindings : Variables) (name : String) :
    Agrees P P (onWorld (bindings.get b name)) (onWorld (bindings.get c name)) := by
  have known : Agrees P P (onWorld (ofExcept (bindings.default? name)))
      (onWorld (ofExcept (bindings.default? name))) := by
    rw [onWorld_ofExcept, onWorld_ofExcept]
    exact agrees_ofExcept _
  cases bound : bindings.bound.get? name with
  | some value =>
      simp only [Variables.get, bound]
      exact agrees_pure value
  | none =>
      simp only [Variables.get, bound]
      cases alike with
      | none => exact known
      | some alike =>
          simp only [onWorld_bind]
          refine agrees_bind (alike.1 name) (fun kept => ?_) fun _ _ => id
          cases kept with
          | some value => exact agrees_pure value
          | none => exact known

theorem agrees_set (alike : Option.Rel (Alike P) b c) (bindings : Variables) (name : String)
    (value : Value) :
    Agrees P P (onWorld (bindings.set b name value)) (onWorld (bindings.set c name value)) := by
  cases alike with
  | none => exact agrees_pure _
  | some alike =>
      simp only [Variables.set, onWorld_bind]
      exact agrees_bind (alike.2 name value) (fun _ => agrees_pure _) fun _ _ => id

end Alike

/-! ## Instructions -/

structure Accord (v : World τ) (w : World σ) (P Q : Session τ → Session σ → Prop) : Prop where
  weaken : ∀ t s, P t s → Q t s
  note : ∀ entry, Remarks entry → Agrees P P (note entry) (note entry)
  bindings : ∀ t s, P t s → t.bindings = s.bindings
  rebind : ∀ t s bindings, P t s → P { t with bindings } { s with bindings }
  backing : Option.Rel (Alike P) v.backing w.backing
  template : ∀ id, Agrees P P (onWorld (v.template id)) (onWorld (w.template id))
  logicalSize : Agrees P P (onWorld v.logicalSize) (onWorld w.logicalSize)
  sleep : ∀ nanoseconds, Agrees P P (onSearch (Search.onClock (v.sleep nanoseconds)))
    (onSearch (Search.onClock (w.sleep nanoseconds)))
  search : ∀ template policy, Agrees P P
    (during .matching (onSearch (Search.run v template policy)))
    (during .matching (onSearch (Search.run w template policy)))
  act : ∀ event, Agrees P Q (act v event) (act w event)

namespace Accord

variable {v : World τ} {w : World σ} {P Q : Session τ → Session σ → Prop} (accord : Accord v w P Q)
include accord

theorem agrees_lookup (name : String) : Agrees P P (lookup v name) (lookup w name) := by
  refine agrees_get_bind fun t s related => ?_
  rw [accord.bindings t s related]
  exact agrees_get accord.backing s.bindings name

theorem agrees_assign (name : String) (value : Value) :
    Agrees P P (assign v name value) (assign w name value) := by
  refine agrees_get_bind fun t s related => ?_
  rw [accord.bindings t s related]
  refine agrees_bind (agrees_set accord.backing s.bindings name value) (fun bindings => ?_)
    fun _ _ => id
  exact Attempt.agrees_modify fun t s related => accord.rebind t s bindings related

theorem agrees_render (p : Phrase) : Agrees P P (render v p) (render w p) :=
  Phrase.agrees_render fun name _ =>
    agrees_bind (accord.agrees_lookup name) (fun _ => agrees_pure _) fun _ _ => id

theorem agrees_evaluate (e : Expr) :
    Agrees P P (e.evaluate (Session.lookup v)) (e.evaluate (Session.lookup w)) :=
  Expr.agrees_evaluate fun name _ => accord.agrees_lookup name

theorem agrees_evaluateCount (e : Expr) :
    Agrees P P (e.evaluateCount (Session.lookup v)) (e.evaluateCount (Session.lookup w)) :=
  Expr.agrees_evaluateCount fun name _ => accord.agrees_lookup name

theorem agrees_evaluateNumber (e : Expr) :
    Agrees P P (e.evaluateNumber (Session.lookup v)) (e.evaluateNumber (Session.lookup w)) :=
  Expr.agrees_evaluateNumber fun name _ => accord.agrees_lookup name

theorem agrees_locate (target : Target) : Agrees P P (locate v target) (locate w target) := by
  refine agrees_bind (accord.agrees_render target.template) (fun name => ?_) fun _ _ => id
  refine agrees_bind (accord.template name) (fun template => ?_) fun _ _ => id
  exact agrees_bind (accord.search template target.policy) (fun outcome => agrees_pure _) fun _ _ => id

theorem agrees_visit (place : Place) (target : Target) (bestEffort : Bool)
    (event : Point → InputEvent) :
    Agrees P Q (visit v place target bestEffort event) (visit w place target bestEffort event) := by
  refine agrees_bind (accord.agrees_locate target) (fun located => ?_) accord.weaken
  obtain ⟨id, outcome⟩ := located
  cases location : outcome.result.location with
  | some raw =>
      simp only [location]
      refine agrees_bind accord.logicalSize (fun bounds => ?_) accord.weaken
      exact agrees_bind (accord.note (.located _ _ _ _ _) trivial) (fun _ => accord.act _)
        accord.weaken
  | none =>
      simp only [location]
      cases bestEffort with
      | true => exact (accord.note (.notFound _ _ _ _) trivial).weaken accord.weaken
      | false => exact (agrees_throw _).weaken accord.weaken

theorem agrees_renderOrShow (p : Phrase) : Agrees P P (renderOrShow v p) (renderOrShow w p) :=
  Attempt.agrees_tryCatch (accord.agrees_render p) fun _ => agrees_pure _

theorem agrees_perform (place : Place) (action : Action) :
    Agrees P Q (perform v place action) (perform w place action) := by
  cases action with
  | click target bestEffort => exact accord.agrees_visit place target bestEffort .click
  | hover target bestEffort => exact accord.agrees_visit place target bestEffort .move
  | clickAt x y =>
      refine agrees_bind (accord.agrees_evaluateNumber x) (fun x => ?_) accord.weaken
      refine agrees_bind (accord.agrees_evaluateNumber y) (fun y => ?_) accord.weaken
      exact agrees_bind accord.logicalSize (fun bounds => accord.act _) accord.weaken
  | scroll direction amount =>
      exact agrees_bind (accord.agrees_evaluateCount amount) (fun steps => accord.act _)
        accord.weaken
  | wait nanoseconds =>
      refine agrees_bind (accord.sleep nanoseconds) (fun complete => ?_) accord.weaken
      cases complete with
      | true => exact (agrees_pure _).weaken accord.weaken
      | false => exact (agrees_throw .aborted).weaken accord.weaken
  | type p => exact agrees_bind (accord.agrees_render p) (fun text => accord.act _) accord.weaken
  | press p => exact agrees_bind (accord.agrees_render p) (fun key => accord.act _) accord.weaken
  | log p =>
      refine agrees_bind (accord.agrees_render p) (fun text => ?_) accord.weaken
      exact (accord.note (.logged _ _) trivial).weaken accord.weaken
  | launch p =>
      refine agrees_bind (accord.agrees_render p) (fun target => ?_) accord.weaken
      exact agrees_bind (accord.note (.launching _ _) trivial) (fun _ => accord.act _)
        accord.weaken
  | assign name e =>
      refine agrees_bind (accord.agrees_evaluate e) (fun value => ?_) accord.weaken
      refine agrees_bind (accord.note (.assigning _ _) trivial) (fun _ => ?_) accord.weaken
      exact (accord.agrees_assign name value).weaken accord.weaken
  | abort reason =>
      cases reason with
      | none => exact (agrees_throw .aborted).weaken accord.weaken
      | some p =>
          refine agrees_bind (accord.agrees_renderOrShow p) (fun text => ?_) accord.weaken
          refine agrees_bind (accord.note (.abortReason _ _) trivial) (fun _ => ?_) accord.weaken
          exact (agrees_throw .aborted).weaken accord.weaken

theorem agrees_step (i : Instruction) : Agrees P Q (step v i) (step w i) := by
  cases i with
  | act place action => exact agrees_map (accord.agrees_perform place action) _
  | loop place count body =>
      exact (agrees_map (accord.agrees_evaluateCount count) _).weaken accord.weaken
  | branch place target found missed =>
      refine agrees_bind (accord.agrees_locate target) (fun located => ?_) accord.weaken
      refine agrees_bind (accord.note (.branch _ _ _) trivial) (fun _ => ?_) accord.weaken
      exact (agrees_pure _).weaken accord.weaken
  | guard place body => exact (agrees_pure _).weaken accord.weaken

end Accord

/-! ## One world -/

structure Habit (w : World σ) (I J : Session σ → Prop) : Prop where
  weaken : ∀ s, I s → J s
  note : ∀ entry, Remarks entry → Keeps I I (note entry)
  rebind : ∀ s bindings, I s → I { s with bindings }
  read : ∀ b ∈ w.backing, ∀ name, Keeps I I (onWorld (b.read name))
  write : ∀ b ∈ w.backing, ∀ name value, Keeps I I (onWorld (b.write name value))
  template : ∀ id, Keeps I I (onWorld (w.template id))
  logicalSize : Keeps I I (onWorld w.logicalSize)
  sleep : ∀ nanoseconds, Keeps I I (onSearch (Search.onClock (w.sleep nanoseconds)))
  search : ∀ template policy, Keeps I I (during .matching (onSearch (Search.run w template policy)))
  act : ∀ event, Keeps I J (act w event)

namespace Habit

variable {w : World σ} {I J : Session σ → Prop}

theorem accord (habit : Habit w I J) : Accord w w (Same I) (Same J) where
  weaken _ _ h := ⟨h.1, habit.weaken _ h.2⟩
  note entry h := (habit.note entry h).agrees
  bindings _ _ h := congrArg Session.bindings h.1
  rebind := by
    rintro s _ bindings ⟨rfl, holds⟩
    exact ⟨rfl, habit.rebind s bindings holds⟩
  backing := by
    cases backed : w.backing with
    | none => exact .none
    | some b =>
        exact .some ⟨fun name => (habit.read b backed name).agrees,
          fun name value => (habit.write b backed name value).agrees⟩
  template id := (habit.template id).agrees
  logicalSize := habit.logicalSize.agrees
  sleep nanoseconds := (habit.sleep nanoseconds).agrees
  search template policy := (habit.search template policy).agrees
  act event := (habit.act event).agrees

theorem keeps_render (habit : Habit w I J) (p : Phrase) : Keeps I I (render w p) :=
  (habit.accord.agrees_render p).keeps

theorem keeps_step (habit : Habit w I J) (i : Instruction) : Keeps I J (step w i) :=
  (habit.accord.agrees_step i).keeps

end Habit

end ScreenScript.Session
