import ScreenScript.Failure

/-!
# Attempts

An attempt acts on a state and gives a value or a failure. What it did to the state before it failed
stays done. `Follows` says how the state after an attempt, failed or not, is related to the state
before it; for a reflexive and transitive relation it passes from the parts of an attempt to the
whole.
-/

namespace ScreenScript

abbrev Attempt (σ : Type) := ExceptT Failure (StateM σ)

namespace Attempt

variable {σ τ α β : Type}

def of (f : σ → Except Failure α × σ) : Attempt σ α :=
  f

def on (a : Attempt σ α) (s : σ) : Except Failure α × σ :=
  a s

theorem on_bind (a : Attempt σ α) (f : α → Attempt σ β) (s : σ) :
    (a >>= f).on s = match a.on s with
      | (.ok x, t) => (f x).on t
      | (.error e, t) => (.error e, t) := by
  change (ExceptT.bind a f) s = _
  simp only [ExceptT.bind, ExceptT.mk, bind, StateT.bind, on]
  rcases h : a s with ⟨result, t⟩
  cases result <;> rfl

theorem on_map (a : Attempt σ α) (f : α → β) (s : σ) :
    (f <$> a).on s = ((a.on s).1.map f, (a.on s).2) := by
  change (ExceptT.map f a) s = _
  simp only [ExceptT.map, ExceptT.mk, bind, StateT.bind, on]
  rcases h : a s with ⟨result, t⟩
  cases result <;> rfl

theorem on_bind_eq_ok {a : Attempt σ α} {f : α → Attempt σ β} {s u : σ} {y : β} :
    (a >>= f).on s = (.ok y, u) ↔ ∃ x t, a.on s = (.ok x, t) ∧ (f x).on t = (.ok y, u) := by
  rw [on_bind]
  rcases a.on s with ⟨result, t⟩
  cases result with
  | error => simp
  | ok x =>
    constructor
    · exact fun h => ⟨x, t, rfl, h⟩
    · rintro ⟨_, _, first, h⟩
      cases first
      exact h

def onPart (part : τ → σ) (update : σ → τ → τ) (a : Attempt σ α) : Attempt τ α :=
  of fun s =>
    let (result, after) := a.on (part s)
    (result, update after s)

def Follows (R : σ → σ → Prop) (a : Attempt σ α) : Prop :=
  ∀ s, R s (a.on s).2

section Follows

variable {R : σ → σ → Prop}

theorem follows_pure (refl : ∀ s, R s s) (x : α) : Follows R (pure x : Attempt σ α) :=
  fun s => refl s

theorem follows_throw (refl : ∀ s, R s s) (f : Failure) : Follows R (throw f : Attempt σ α) :=
  fun s => refl s

theorem follows_get (refl : ∀ s, R s s) : Follows R (get : Attempt σ σ) :=
  fun s => refl s

theorem follows_modify {f : σ → σ} (h : ∀ s, R s (f s)) : Follows R (modify f : Attempt σ PUnit) :=
  fun s => h s

theorem follows_bind (trans : ∀ s t u, R s t → R t u → R s u) {a : Attempt σ α}
    {f : α → Attempt σ β} (ha : Follows R a) (hf : ∀ x, Follows R (f x)) :
    Follows R (a >>= f) := by
  intro s
  have first := ha s
  rw [on_bind]
  rcases h : a.on s with ⟨result, t⟩
  rw [h] at first
  cases result with
  | error => exact first
  | ok x => exact trans _ _ _ first (hf x t)

theorem follows_onPart {S : τ → τ → Prop} {part : τ → σ} {update : σ → τ → τ} {a : Attempt σ α}
    (ha : Follows R a) (h : ∀ {s t}, R (part s) t → S s (update t s)) :
    Follows S (a.onPart part update) :=
  fun s => h (ha (part s))

end Follows

end Attempt

end ScreenScript
