import ScreenScript.Proofs.Run.Accord
import ScreenScript.Proofs.Search.Rounds

namespace ScreenScript

open Attempt (FailsIn failsIn_bind failsIn_get_bind failsIn_modify failsIn_ofExcept
  failsIn_pure failsIn_throw failsIn_tryCatch)

variable {σ α : Type}

inductive Surroundings.Raises (w : Surroundings σ) (failure : Failure) : Call → σ → Prop where
  | capture {s t : σ} (h : w.capture.on s = (.error failure, t)) : Raises w failure .capture s
  | logicalSize {s t : σ} (h : w.logicalSize.on s = (.error failure, t)) :
    Raises w failure .logicalSize s
  | input {event : InputEvent} {s t : σ} (h : (w.input event).on s = (.error failure, t)) :
    Raises w failure (.input event) s
  | template {id : String} {s t : σ} (h : (w.template id).on s = (.error failure, t)) :
    Raises w failure (.template id) s
  | read {b : Backing σ} {name : String} {s t : σ} (backed : w.backing = some b)
    (h : (b.read name).on s = (.error failure, t)) : Raises w failure (.read name) s
  | write {b : Backing σ} {name : String} {value : Value} {s t : σ} (backed : w.backing = some b)
    (h : (b.write name value).on s = (.error failure, t)) : Raises w failure (.write name value) s

inductive Surroundings.Interrupts (w : Surroundings σ) (calls : List (Call × σ)) : Failure → Prop where
  | aborted : Interrupts w calls .aborted
  | unscaled (fault : Scale.Fault) : Interrupts w calls (.scaleResolution fault.message)
  | undefined (name : String) : Interrupts w calls (.undefinedVariable name)
  | misuse (misuse : Expr.Misuse) : Interrupts w calls misuse.failure
  | raised {failure : Failure} {call : Call} {state : σ} {earlier : List (Call × σ)}
    (last : calls = (call, state) :: earlier) (raised : w.Raises failure call state) :
    Interrupts w calls failure

/-! ## Searches -/

namespace Search

variable {w : Surroundings σ} {template : Template} {policy : Policy} {started : Nat}
  {attempts : UInt32} {s t : Search (Recorded σ)} {failure : Failure}

theorem Polled.interrupts (h : Polled w template s t (.error failure)) :
    w.Interrupts t.world.calls failure := by
  cases h with
  | aborted asked same => exact .aborted
  | uncaptured capturing left => exact .raised (congrArg Recorded.calls left) (.capture capturing)
  | unmeasured capturing measuring left =>
      exact .raised (congrArg Recorded.calls left) (.logicalSize measuring)
  | unscaled capturing measuring left => exact .unscaled _

theorem Rounded.interrupts
    (h : Rounded w template policy started attempts s t (.error failure)) :
    w.Interrupts t.world.calls failure := by
  cases h with
  | failed polled => exact polled.interrupts
  | cut => exact .aborted

theorem interrupts_of_pollUntil {w : World σ}
    (h : pollUntil w.recorded template policy started attempts s = (.error failure, t)) :
    w.Interrupts t.world.calls failure := by
  fun_induction pollUntil w.recorded template policy started attempts s with
  | case1 attempts s _ after made =>
      cases h
      exact (rounded made).interrupts
  | case2 => cases h
  | case3 attempts s after made ih => exact ih h

theorem interrupts_of_run {w : World σ}
    (h : (run w.recorded template policy).on s = (.error failure, t)) :
    w.Interrupts t.world.calls failure := by
  obtain ⟨_, _, read⟩ | ⟨started, first, _, h⟩ := Attempt.cases_of_on_bind h
  · cases read
  · exact interrupts_of_pollUntil h

end Search

/-! ## Instructions -/

def Action.visit? : Action → Option (Target × Bool × (Point → InputEvent))
  | click target bestEffort => some (target, bestEffort, .click)
  | hover target bestEffort => some (target, bestEffort, .move)
  | _ => none

namespace Session

variable {w : World σ}

abbrev Completes (w : World σ) (a : Attempt (Session (Recorded σ)) α) : Prop :=
  FailsIn (fun failure t => w.Interrupts t.world.calls failure) a

theorem completes_call {call : Call} {a : Attempt σ α}
    (raises : ∀ {failure s t}, a.on s = (.error failure, t) → w.Raises failure call s) :
    Completes w (onWorld (Recorded.attempt call a)) := by
  intro s failure t failed
  obtain ⟨same, rfl⟩ := Prod.mk.inj failed
  exact .raised rfl (raises (Prod.ext same rfl))

theorem completes_clock (a : StateM (Recorded σ) α) :
    Completes w (onSearch (Search.onClock a)) := by
  intro s failure t failed
  obtain ⟨same, _⟩ := Prod.mk.inj failed
  cases same

theorem completes_default (v : Variables) (name : String) :
    Completes w (onWorld (ofExcept (v.default? name) : Attempt (Recorded σ) Value)) := by
  rw [onWorld_ofExcept]
  refine failsIn_ofExcept fun failure unknown s => ?_
  unfold Variables.default? at unknown
  split at unknown
  · cases unknown
  · cases unknown
    exact .undefined name

theorem completes_lookup (name : String) : Completes w (lookup w.recorded name) := by
  refine failsIn_get_bind fun s => ?_
  change Completes w (onWorld (s.bindings.get (w.backing.map Recorded.backing) name))
  unfold Variables.get
  cases s.bindings.bound.get? name with
  | some value => exact failsIn_pure value
  | none =>
      cases backed : w.backing with
      | none => exact completes_default _ name
      | some b =>
          simp only [Option.map_some, onWorld_bind]
          refine failsIn_bind (completes_call fun failed => .read backed failed) fun kept => ?_
          cases kept with
          | some value => exact failsIn_pure value
          | none => exact completes_default _ name

theorem completes_assign (name : String) (value : Value) :
    Completes w (assign w.recorded name value) := by
  refine failsIn_get_bind fun s => failsIn_bind ?_ fun bindings => failsIn_modify _
  change Completes w (onWorld (s.bindings.set (w.backing.map Recorded.backing) name value))
  unfold Variables.set
  cases backed : w.backing with
  | none => exact failsIn_pure _
  | some b =>
      simp only [Option.map_some, onWorld_bind]
      exact failsIn_bind (completes_call fun failed => .write backed failed) fun _ => failsIn_pure _

theorem completes_render (p : Phrase) : Completes w (render w.recorded p) :=
  Phrase.failsIn_render fun name _ => failsIn_bind (completes_lookup name) fun _ => failsIn_pure _

theorem completes_during (status : Status) {a : Attempt (Session (Recorded σ)) α}
    (h : Completes w a) : Completes w (during status a) := by
  intro s failure t failed
  obtain ⟨same, rfl⟩ := Prod.mk.inj failed
  rw [world_changed]
  exact h (s.changed status) failure _ (Prod.ext same rfl)

theorem completes_act (event : InputEvent) : Completes w (act w.recorded event) :=
  completes_during .acting (failsIn_bind (failsIn_modify _) fun _ => completes_call .input)

theorem completes_evaluate (e : Expr) : Completes w (e.evaluate (lookup w.recorded)) :=
  Expr.failsIn_evaluate (fun misuse _ => .misuse misuse) fun name _ => completes_lookup name

theorem completes_evaluateCount (e : Expr) : Completes w (e.evaluateCount (lookup w.recorded)) :=
  Expr.failsIn_evaluateCount (fun misuse _ => .misuse misuse) fun name _ => completes_lookup name

theorem completes_evaluateNumber (e : Expr) : Completes w (e.evaluateNumber (lookup w.recorded)) :=
  Expr.failsIn_evaluateNumber (fun misuse _ => .misuse misuse) fun name _ => completes_lookup name

theorem completes_search (template : Template) (policy : Policy) :
    Completes w (during .matching (onSearch (Search.run w.recorded template policy))) := by
  refine completes_during .matching fun s failure t failed => ?_
  obtain ⟨same, rfl⟩ := Prod.mk.inj failed
  exact Search.interrupts_of_run (Prod.ext same rfl)

theorem completes_locate (target : Target) : Completes w (locate w.recorded target) := by
  refine failsIn_bind (completes_render target.template) fun id => ?_
  refine failsIn_bind (completes_call .template) fun template => ?_
  exact failsIn_bind (completes_search template target.policy) fun outcome => failsIn_pure _

theorem completes_perform (place : Place) {action : Action} (other : action.visit? = none) :
    Completes w (perform w.recorded place action) := by
  cases action with
  | click | hover => cases other
  | clickAt x y =>
      refine failsIn_bind (completes_evaluateNumber x) fun x => ?_
      refine failsIn_bind (completes_evaluateNumber y) fun y => ?_
      exact failsIn_bind (completes_call .logicalSize) fun bounds => completes_act _
  | scroll direction amount =>
      exact failsIn_bind (completes_evaluateCount amount) fun steps => completes_act _
  | wait nanoseconds =>
      refine failsIn_bind (completes_clock _) fun complete => ?_
      cases complete with
      | true => exact failsIn_pure _
      | false => exact failsIn_throw fun _ => .aborted
  | type p | press p => exact failsIn_bind (completes_render p) fun _ => completes_act _
  | log p => exact failsIn_bind (completes_render p) fun _ => failsIn_modify _
  | launch p =>
      refine failsIn_bind (completes_render p) fun target => ?_
      exact failsIn_bind (failsIn_modify _) fun _ => completes_act _
  | assign name e =>
      refine failsIn_bind (completes_evaluate e) fun value => ?_
      exact failsIn_bind (failsIn_modify _) fun _ => completes_assign name value
  | abort reason =>
      cases reason with
      | none => exact failsIn_throw fun _ => .aborted
      | some p =>
          refine failsIn_bind (failsIn_tryCatch fun _ => failsIn_pure _) fun text => ?_
          exact failsIn_bind (failsIn_modify _) fun _ => failsIn_throw fun _ => .aborted

theorem completes_branch (place : Place) (target : Target) (found missed : List Instruction) :
    Completes w (step w.recorded (.branch place target found missed)) :=
  failsIn_bind (completes_locate target) fun _ => failsIn_bind (failsIn_modify _) fun _ => failsIn_pure _

end Session

end ScreenScript
