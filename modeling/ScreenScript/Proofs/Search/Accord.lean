import ScreenScript.Proofs.Attempt
import ScreenScript.Proofs.Screen.ScaleCache
import ScreenScript.Search.Basic

namespace ScreenScript.Search

open Attempt (Agrees Keeps Same agrees_bind agrees_pure agrees_throw on_get_bind)

variable {σ τ : Type}

theorem on_onClock {α : Type} (a : StateM σ α) (s : Search σ) :
    (onClock a).on s = (.ok (a s.world).1, { s with world := (a s.world).2 }) :=
  rfl

def takeCapture (w : Surroundings σ) : Attempt (Search σ) Picture := do
  note .capturing
  onWorld w.capture

def examine (w : Surroundings σ) (template : Template) (attempt : UInt32) (capture : Picture) :
    Attempt (Search σ) (Match × Scale) := do
  let logical ← onWorld w.logicalSize
  let scale ← observe capture.size logical
  let finding := template.find capture scale
  note (.polled template.id attempt finding)
  return (finding.result, scale)

theorem poll_of_aborted {w : Surroundings σ} {s : Search σ} (aborted : w.aborted s.world = true)
    (template : Template) (attempt : UInt32) :
    (poll w template attempt).on s = (.error .aborted, s) := by
  rw [poll, Attempt.on_get_bind, if_pos aborted]
  rfl

theorem poll_of_not_aborted {w : Surroundings σ} {s : Search σ}
    (calm : w.aborted s.world = false) (template : Template) (attempt : UInt32) :
    (poll w template attempt).on s = (takeCapture w >>= examine w template attempt).on s := by
  rw [poll, Attempt.on_get_bind, if_neg (by rw [calm]; exact Bool.false_ne_true), takeCapture,
    bind_assoc]
  rfl

/-- What a search notes besides its captures. -/
def Reports : Journal.Entry → Prop
  | .scaled _ | .polled .. => True
  | _ => False

structure Accord (v : Surroundings τ) (w : Surroundings σ) (P : Search τ → Search σ → Prop) :
    Prop where
  aborted : ∀ t s, P t s → v.aborted t.world = w.aborted s.world
  cache : ∀ t s, P t s → t.cache = s.cache
  remember : ∀ t s cache, P t s → s.cache.Observed cache → P { t with cache } { s with cache }
  note : ∀ entry, Reports entry → Agrees P P (note entry) (note entry)
  capture : Agrees (fun t s => P t s ∧ v.aborted t.world = false) P (takeCapture v) (takeCapture w)
  logicalSize : Agrees P P (onWorld v.logicalSize) (onWorld w.logicalSize)
  sleep : ∀ nanoseconds, Agrees P P (onClock (v.sleep nanoseconds)) (onClock (w.sleep nanoseconds))
  now : Agrees P P (onClock v.now) (onClock w.now)

namespace Accord

variable {v : Surroundings τ} {w : Surroundings σ} {P : Search τ → Search σ → Prop}
  (accord : Accord v w P)
include accord

theorem agrees_observe (capture logical : Size) :
    Agrees P P (observe capture logical) (observe capture logical) := by
  intro t s related
  have same := accord.cache t s related
  simp only [observe, on_get_bind, same]
  cases answer : s.cache.observe capture logical with
  | error fault => exact agrees_throw _ t s related
  | ok found =>
      obtain ⟨scale, cache, notice⟩ := found
      have remembered := accord.remember t s cache related ⟨capture, logical, scale, notice, answer⟩
      cases notice with
      | none => exact agrees_pure scale _ _ remembered
      | some notice =>
          exact agrees_bind (accord.note (.scaled notice) trivial) (fun _ => agrees_pure scale)
            (fun _ _ => id) _ _ remembered

theorem agrees_examine (template : Template) (attempt : UInt32) (capture : Picture) :
    Agrees P P (examine v template attempt capture) (examine w template attempt capture) := by
  refine agrees_bind accord.logicalSize (fun logical => ?_) fun _ _ => id
  refine agrees_bind (accord.agrees_observe _ _) (fun scale => ?_) fun _ _ => id
  refine agrees_bind (accord.note (.polled template.id attempt _) trivial) (fun _ => ?_)
    fun _ _ => id
  exact agrees_pure _

theorem agrees_poll (template : Template) (attempt : UInt32) :
    Agrees P P (poll v template attempt) (poll w template attempt) := by
  intro t s related
  have same := accord.aborted t s related
  cases aborted : w.aborted s.world with
  | true =>
      rw [poll_of_aborted aborted, poll_of_aborted (same.trans aborted)]
      exact ⟨rfl, related⟩
  | false =>
      rw [poll_of_not_aborted aborted, poll_of_not_aborted (same.trans aborted)]
      exact agrees_bind accord.capture (accord.agrees_examine template attempt) (fun _ _ => id) t s
        ⟨related, same.trans aborted⟩

theorem agrees_round (template : Template) (policy : Policy) (started : Nat) (attempts : UInt32) :
    Agrees P P (round v template policy started attempts)
      (round w template policy started attempts) := by
  refine agrees_bind (accord.agrees_poll template (attempts + 1)) (fun polled => ?_) fun _ _ => id
  obtain ⟨result, scale⟩ := polled
  cases found : result.found with
  | true =>
      simp only [found, if_true]
      exact agrees_bind accord.now (fun now => agrees_pure _) fun _ _ => id
  | false =>
      simp only [found, Bool.false_eq_true, if_false]
      refine agrees_bind (accord.sleep _) (fun complete => ?_) fun _ _ => id
      cases complete with
      | false => exact agrees_throw .aborted
      | true => exact agrees_bind accord.now (fun now => agrees_pure _) fun _ _ => id

end Accord

/-! ## Whole searches -/

theorem pollUntil_eq (w : World σ) (template : Template) (policy : Policy) (started : Nat)
    (attempts : UInt32) (s : Search σ) :
    pollUntil w template policy started attempts s =
      match (round w.toSurroundings template policy started attempts).on s with
      | (.error failure, after) => (.error failure, after)
      | (.ok (some outcome), after) => (.ok outcome, after)
      | (.ok none, after) => pollUntil w template policy started (attempts + 1) after := by
  rw [pollUntil]
  split <;> simp [*]

namespace Accord

variable {v : World τ} {w : World σ} {P : Search τ → Search σ → Prop}
  (accord : Accord v.toSurroundings w.toSurroundings P)
include accord

theorem agrees_pollUntil (template : Template) (policy : Policy) (started : Nat) (attempts : UInt32) :
    Agrees P P (.of (pollUntil v template policy started attempts))
      (.of (pollUntil w template policy started attempts)) := by
  intro t s related
  change (pollUntil v template policy started attempts t).1 =
      (pollUntil w template policy started attempts s).1 ∧
    P (pollUntil v template policy started attempts t).2
      (pollUntil w template policy started attempts s).2
  -- Along the rounds of the search on the right, the one on the left makes the same.
  fun_induction pollUntil w template policy started attempts s generalizing t with
  | case1 attempts s failure after made =>
      obtain ⟨after', made', related'⟩ :=
        (accord.agrees_round template policy started attempts).exists_on related made
      rw [pollUntil_eq v, made']
      exact ⟨rfl, related'⟩
  | case2 attempts s outcome after made =>
      obtain ⟨after', made', related'⟩ :=
        (accord.agrees_round template policy started attempts).exists_on related made
      rw [pollUntil_eq v, made']
      exact ⟨rfl, related'⟩
  | case3 attempts s after made ih =>
      obtain ⟨after', made', related'⟩ :=
        (accord.agrees_round template policy started attempts).exists_on related made
      rw [pollUntil_eq v, made']
      exact ih after' related'

theorem agrees_run (template : Template) (policy : Policy) :
    Agrees P P (run v template policy) (run w template policy) :=
  agrees_bind accord.now (fun _ => accord.agrees_pollUntil template policy _ 0) fun _ _ => id

end Accord

/-! ## One world -/

structure Habit (w : Surroundings σ) (I : Search σ → Prop) : Prop where
  remember : ∀ s cache, I s → s.cache.Observed cache → I { s with cache }
  note : ∀ entry, Reports entry → Keeps I I (note entry)
  capture : Keeps (fun s => I s ∧ w.aborted s.world = false) I (takeCapture w)
  logicalSize : Keeps I I (onWorld w.logicalSize)
  sleep : ∀ nanoseconds, Keeps I I (onClock (w.sleep nanoseconds))
  now : Keeps I I (onClock w.now)

namespace Habit

variable {I : Search σ → Prop}

theorem accord {w : Surroundings σ} (habit : Habit w I) : Accord w w (Same I) where
  aborted _ _ h := congrArg (fun s => w.aborted s.world) h.1
  cache _ _ h := congrArg Search.cache h.1
  remember := by
    rintro s _ cache ⟨rfl, holds⟩ observed
    exact ⟨rfl, habit.remember s cache holds observed⟩
  note entry h := (habit.note entry h).agrees
  capture := by
    rintro s _ ⟨⟨rfl, holds⟩, calm⟩
    exact ⟨rfl, rfl, habit.capture s ⟨holds, calm⟩⟩
  logicalSize := habit.logicalSize.agrees
  sleep nanoseconds := (habit.sleep nanoseconds).agrees
  now := habit.now.agrees

theorem keeps_round {w : Surroundings σ} (habit : Habit w I) (template : Template) (policy : Policy)
    (started : Nat) (attempts : UInt32) : Keeps I I (round w template policy started attempts) :=
  (habit.accord.agrees_round template policy started attempts).keeps

theorem keeps_run {w : World σ} (habit : Habit w.toSurroundings I) (template : Template)
    (policy : Policy) : Keeps I I (run w template policy) :=
  (habit.accord.agrees_run template policy).keeps

end Habit

end ScreenScript.Search
