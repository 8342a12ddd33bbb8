import ScreenScript.Journal
import ScreenScript.Search.Policy
import ScreenScript.Surroundings

/-!
# Rounds of a search

A search goes in rounds. In each one it looks at a fresh capture, so that what is drawn late is still
found, and then waits. A round comes to an outcome if the target was found or the time is up, and
else the search goes on to the next. Where time passes in every wait and never runs backwards, only
finitely many rounds can follow each other (`wellFounded_again`).
-/

namespace ScreenScript

/-- The state of a search: the world, the remembered scale and the journal, last entry first. -/
structure Search (σ : Type) where
  world : σ
  cache : Scale.Cache := {}
  journal : List Journal.Entry := []

namespace Search

variable {σ α : Type}

structure Outcome where
  /-- What was found, or the last miss. -/
  result : Match
  scale : Scale
  attempts : UInt32
  elapsed : Nat

def note (entry : Journal.Entry) : Attempt (Search σ) Unit :=
  modify fun s => { s with journal := entry :: s.journal }

def onWorld (a : Attempt σ α) : Attempt (Search σ) α :=
  a.onPart Search.world fun world s => { s with world }

def onClock (a : StateM σ α) : Attempt (Search σ) α :=
  Attempt.of fun s =>
    let (x, world) := a s.world
    (.ok x, { s with world })

def observe (capture logical : Size) : Attempt (Search σ) Scale := do
  match (← get).cache.observe capture logical with
  | .error fault => throw (.scaleResolution fault.message)
  | .ok (scale, cache, notice) =>
    modify fun s => { s with cache }
    if let some notice := notice then note (.scaled notice)
    return scale

def poll (w : Surroundings σ) (template : Template) (attempt : UInt32) :
    Attempt (Search σ) (Match × Scale) := do
  if w.aborted (← get).world then throw .aborted
  note .capturing
  let capture ← onWorld w.capture
  let logical ← onWorld w.logicalSize
  let scale ← observe capture.size logical
  let finding := template.find capture scale
  note (.polled template.id attempt finding)
  return (finding.result, scale)

/--
A round after `attempts` others, in a search whose time runs from `started`. It gives no outcome if
the search goes on.
-/
def round (w : Surroundings σ) (template : Template) (policy : Policy) (started : Nat)
    (attempts : UInt32) : Attempt (Search σ) (Option Outcome) := do
  let made := attempts + 1
  let (result, scale) ← poll w template made
  if result.found then
    return some { result, scale, attempts := made, elapsed := (← onClock w.now) - started }
  else
    let complete ← onClock (w.sleep policy.interval)
    if !complete then throw .aborted
    let elapsed := (← onClock w.now) - started
    return if policy.timeout ≤ elapsed then some { result, scale, attempts := made, elapsed } else none

def Again (w : Surroundings σ) (template : Template) (policy : Policy) (started : Nat)
    (after before : UInt32 × Search σ) : Prop :=
  after.1 = before.1 + 1 ∧
    (round w template policy started before.1).on before.2 = (.ok none, after.2)

/-! ## Searches on a clock -/

variable {w : Surroundings σ} {time : σ → Nat}

theorem time_le_poll (keeps : w.KeepsTime time) (template : Template) (attempt : UInt32)
    (s : Search σ) : time s.world ≤ time ((poll w template attempt).on s).2.world := by
  let R (s t : Search σ) : Prop := time s.world ≤ time t.world
  have refl (s : Search σ) : R s s := Nat.le_refl _
  have trans (s t u : Search σ) : R s t → R t u → R s u := Nat.le_trans
  have noted (entry : Journal.Entry) : Attempt.Follows R (note entry) :=
    Attempt.follows_modify fun _ => Nat.le_refl _
  have observed (capture logical : Size) : Attempt.Follows R (observe capture logical) := by
    refine Attempt.follows_bind trans (Attempt.follows_get (R := R) refl) fun t => ?_
    split
    · exact Attempt.follows_throw refl _
    · refine Attempt.follows_bind trans (Attempt.follows_modify fun _ => Nat.le_refl _) fun _ => ?_
      split
      · exact Attempt.follows_bind trans (noted _) fun _ => Attempt.follows_pure refl _
      · exact Attempt.follows_pure refl _
  have main : Attempt.Follows R (poll w template attempt) := by
    refine Attempt.follows_bind trans (Attempt.follows_get (R := R) refl) fun t => ?_
    split
    · exact Attempt.follows_throw refl _
    · refine Attempt.follows_bind trans (noted _) fun _ => ?_
      refine Attempt.follows_bind trans
        (Attempt.follows_onPart keeps.le_capture fun h => h) fun capture => ?_
      refine Attempt.follows_bind trans
        (Attempt.follows_onPart keeps.le_logicalSize fun h => h) fun logical => ?_
      refine Attempt.follows_bind trans (observed _ _) fun scale => ?_
      exact Attempt.follows_bind trans (noted _) fun _ => Attempt.follows_pure refl _
  exact main s

theorem time_lt_again (keeps : w.KeepsTime time) {template : Template} {policy : Policy}
    {started : Nat} {after before : UInt32 × Search σ}
    (h : Again w template policy started after before) :
    time before.2.world < time after.2.world ∧ time after.2.world < started + policy.timeout := by
  obtain ⟨attempts, s⟩ := before
  obtain ⟨made, t⟩ := after
  obtain ⟨-, h⟩ := h
  obtain ⟨⟨result, scale⟩, s₁, polled, h⟩ := Attempt.on_bind_eq_ok.1 h
  have le := time_le_poll keeps template (attempts + 1) s
  rw [polled] at le
  simp only at h
  split at h
  · obtain ⟨_, _, -, h⟩ := Attempt.on_bind_eq_ok.1 h
    cases h
  · obtain ⟨complete, s₂, slept, h⟩ := Attempt.on_bind_eq_ok.1 h
    cases slept
    split at h
    · obtain ⟨_, _, h, -⟩ := Attempt.on_bind_eq_ok.1 h
      cases h
    · rename_i complete
      have slept := keeps.lt_sleep policy.interval s₁.world policy.interval_pos
        (by simpa using complete)
      obtain ⟨elapsed, s₃, looked, h⟩ := Attempt.on_bind_eq_ok.1 h
      cases looked
      split at h
      · cases h
      · rename_i early
        have shown := keeps.now_eq (w.sleep policy.interval s₁.world).2
        have later := keeps.le_now (w.sleep policy.interval s₁.world).2
        cases h
        simp only [shown] at early
        change time s.world ≤ time s₁.world at le
        change time s.world < time (w.now (w.sleep policy.interval s₁.world).2).2 ∧
          time (w.now (w.sleep policy.interval s₁.world).2).2 < started + policy.timeout
        omega

theorem wellFounded_again (keeps : w.KeepsTime time) (template : Template) (policy : Policy)
    (started : Nat) : WellFounded (Again w template policy started) := by
  let left (s : UInt32 × Search σ) : Nat := started + policy.timeout - time s.2.world
  refine Subrelation.wf (r := fun after before => left after < left before) ?_
    (measure left).wf
  intro after before h
  have := time_lt_again keeps h
  change started + policy.timeout - _ < started + policy.timeout - _
  omega

end Search

end ScreenScript
