import ScreenScript.Attempt

namespace ScreenScript.Attempt

variable {σ τ α β : Type}

/-! ## Single steps -/

theorem on_get_bind (f : σ → Attempt σ α) (s : σ) : (get >>= f).on s = (f s).on s :=
  rfl

theorem on_ofExcept (e : Except Failure α) (s : σ) : (ofExcept e : Attempt σ α).on s = (e, s) := by
  cases e <;> rfl

theorem cases_of_on_bind {a : Attempt σ α} {f : α → Attempt σ β} {s u : σ} {result : Except Failure β}
    (h : (a >>= f).on s = (result, u)) :
    (∃ failure, result = .error failure ∧ a.on s = (.error failure, u)) ∨
      ∃ x t, a.on s = (.ok x, t) ∧ (f x).on t = (result, u) := by
  rw [on_bind] at h
  rcases made : a.on s with ⟨first, t⟩
  rw [made] at h
  cases first with
  | error failure =>
      cases h
      exact .inl ⟨failure, rfl, rfl⟩
  | ok x => exact .inr ⟨x, t, rfl, h⟩

theorem on_bind_of_on {a : Attempt σ α} {f : α → Attempt σ β} {e : Except Failure α}
    {g : α → Except Failure β} {s : σ} (first : a.on s = (e, s)) (rest : ∀ x, (f x).on s = (g x, s)) :
    (a >>= f).on s = (e >>= g, s) := by
  rw [on_bind, first]
  cases e with
  | error failure => rfl
  | ok x => exact rest x

theorem on_mapM_of_on {f : α → Attempt σ β} {g : α → Except Failure β} {s : σ} (list : List α)
    (h : ∀ x ∈ list, (f x).on s = (g x, s)) : (list.mapM f).on s = (list.mapM g, s) := by
  induction list with
  | nil => rfl
  | cons x rest ih =>
      rw [List.mapM_cons, List.mapM_cons]
      refine on_bind_of_on (h x List.mem_cons_self) fun y => ?_
      exact on_bind_of_on (ih fun z member => h z (List.mem_cons_of_mem _ member)) fun ys => rfl

theorem on_map_eq_ok {a : Attempt σ α} {f : α → β} {s t : σ} {y : β} :
    (f <$> a).on s = (.ok y, t) ↔ ∃ x, a.on s = (.ok x, t) ∧ f x = y := by
  rw [on_map]
  rcases a.on s with ⟨result, u⟩
  cases result with
  | error => simp [Except.map]
  | ok x =>
      constructor
      · intro h
        cases h
        exact ⟨x, rfl, rfl⟩
      · rintro ⟨_, h, rfl⟩
        cases h
        rfl

theorem on_tryCatch (a : Attempt σ α) (handler : Failure → Attempt σ α) (s : σ) :
    (tryCatch a handler).on s = match a.on s with
      | (.ok x, t) => (.ok x, t)
      | (.error failure, t) => (handler failure).on t := by
  change (ExceptT.tryCatch a handler) s = _
  simp only [ExceptT.tryCatch, ExceptT.mk, bind, StateT.bind, on]
  rcases a s with ⟨result, t⟩
  cases result <;> rfl

/-! ## Two attempts -/

/-- From states related by `P`, the same result, and states related by `Q`. -/
def Agrees (P Q : τ → σ → Prop) (a : Attempt τ α) (b : Attempt σ α) : Prop :=
  ∀ t s, P t s → (a.on t).1 = (b.on s).1 ∧ Q (a.on t).2 (b.on s).2

section Agrees

variable {P Q R : τ → σ → Prop}

theorem Agrees.weaken {a : Attempt τ α} {b : Attempt σ α} (h : Agrees P Q a b)
    (le : ∀ t s, Q t s → R t s) : Agrees P R a b :=
  fun t s related => ⟨(h t s related).1, le _ _ (h t s related).2⟩

theorem Agrees.exists_on {a : Attempt τ α} {b : Attempt σ α} (h : Agrees P Q a b) {t : τ} {s s' : σ}
    {result : Except Failure α} (related : P t s) (made : b.on s = (result, s')) :
    ∃ t', a.on t = (result, t') ∧ Q t' s' := by
  obtain ⟨same, after⟩ := h t s related
  rw [made] at same after
  exact ⟨(a.on t).2, Prod.ext same rfl, after⟩

theorem agrees_pure (x : α) : Agrees P P (pure x) (pure x) :=
  fun _ _ related => ⟨rfl, related⟩

theorem agrees_throw (failure : Failure) :
    Agrees P P (throw failure : Attempt τ α) (throw failure) :=
  fun _ _ related => ⟨rfl, related⟩

theorem agrees_ofExcept (e : Except Failure α) :
    Agrees P P (ofExcept e : Attempt τ α) (ofExcept e) := by
  cases e with
  | error failure => exact agrees_throw failure
  | ok x => exact agrees_pure x

theorem agrees_modify {f : τ → τ} {g : σ → σ} (h : ∀ t s, P t s → Q (f t) (g s)) :
    Agrees P Q (modify f : Attempt τ PUnit) (modify g) :=
  fun t s related => ⟨rfl, h t s related⟩

theorem agrees_bind {a : Attempt τ α} {b : Attempt σ α} {f : α → Attempt τ β}
    {g : α → Attempt σ β} (first : Agrees P Q a b) (rest : ∀ x, Agrees Q R (f x) (g x))
    (le : ∀ t s, Q t s → R t s) : Agrees P R (a >>= f) (b >>= g) := by
  intro t s related
  rcases made : b.on s with ⟨result, s'⟩
  obtain ⟨t', made', after⟩ := first.exists_on related made
  rw [on_bind, on_bind, made, made']
  cases result with
  | error failure => exact ⟨rfl, le _ _ after⟩
  | ok x => exact rest x _ _ after

theorem agrees_map {a : Attempt τ α} {b : Attempt σ α} (h : Agrees P Q a b) (f : α → β) :
    Agrees P Q (f <$> a) (f <$> b) := by
  intro t s related
  obtain ⟨same, after⟩ := h t s related
  rw [on_map, on_map, same]
  exact ⟨rfl, after⟩

theorem agrees_get_bind {f : τ → Attempt τ α} {g : σ → Attempt σ α}
    (h : ∀ t s, P t s → Agrees P Q (f t) (g s)) : Agrees P Q (get >>= f) (get >>= g) :=
  fun t s related => h t s related t s related

theorem agrees_tryCatch {a : Attempt τ α} {b : Attempt σ α} {f : Failure → Attempt τ α}
    {g : Failure → Attempt σ α} (first : Agrees P P a b)
    (handled : ∀ failure, Agrees P P (f failure) (g failure)) :
    Agrees P P (tryCatch a f) (tryCatch b g) := by
  intro t s related
  rcases made : b.on s with ⟨result, s'⟩
  obtain ⟨t', made', after⟩ := first.exists_on related made
  rw [on_tryCatch, on_tryCatch, made, made']
  cases result with
  | error failure => exact handled failure _ _ after
  | ok x => exact ⟨rfl, after⟩

theorem agrees_mapM {f : α → Attempt τ β} {g : α → Attempt σ β} (list : List α)
    (h : ∀ x ∈ list, Agrees P P (f x) (g x)) : Agrees P P (list.mapM f) (list.mapM g) := by
  have keep : ∀ t s, P t s → P t s := fun _ _ => id
  induction list with
  | nil => exact agrees_pure []
  | cons x rest ih =>
      rw [List.mapM_cons, List.mapM_cons]
      refine agrees_bind (h x List.mem_cons_self) (fun y => ?_) keep
      refine agrees_bind (ih fun z member => h z (List.mem_cons_of_mem _ member)) (fun ys => ?_) keep
      exact agrees_pure (y :: ys)

end Agrees

/-! ## One attempt -/

def Keeps (I J : σ → Prop) (a : Attempt σ α) : Prop :=
  ∀ s, I s → J (a.on s).2

def Same (I : σ → Prop) (t s : σ) : Prop :=
  t = s ∧ I s

section Keeps

variable {I J K : σ → Prop}

theorem Keeps.agrees {a : Attempt σ α} (h : Keeps I J a) : Agrees (Same I) (Same J) a a := by
  rintro s _ ⟨rfl, holds⟩
  exact ⟨rfl, rfl, h s holds⟩

theorem Agrees.keeps {a : Attempt σ α} (h : Agrees (Same I) (Same J) a a) : Keeps I J a :=
  fun s holds => (h s s ⟨rfl, holds⟩).2.2

theorem Keeps.weaken {a : Attempt σ α} (h : Keeps I J a) (le : ∀ s, J s → K s) : Keeps I K a :=
  fun s holds => le _ (h s holds)

theorem keeps_bind {a : Attempt σ α} {f : α → Attempt σ β} (first : Keeps I J a)
    (rest : ∀ x, Keeps J K (f x)) (le : ∀ s, J s → K s) : Keeps I K (a >>= f) := by
  refine (agrees_bind first.agrees (fun x => (rest x).agrees) ?_).keeps
  rintro t s ⟨same, holds⟩
  exact ⟨same, le s holds⟩

end Keeps

/-! ## Failures -/

def FailsIn (P : Failure → σ → Prop) (a : Attempt σ α) : Prop :=
  ∀ s failure t, a.on s = (.error failure, t) → P failure t

/-- From every state, no failure but one with `P`. -/
def Fails (P : Failure → Prop) (a : Attempt σ α) : Prop :=
  ∀ s failure t, a.on s = (.error failure, t) → P failure

section FailsIn

variable {P : Failure → σ → Prop}

theorem failsIn_pure (x : α) : FailsIn P (pure x : Attempt σ α) :=
  nofun

theorem failsIn_throw {failure : Failure} (h : ∀ s, P failure s) :
    FailsIn P (throw failure : Attempt σ α) := by
  rintro s _ _ ⟨⟩
  exact h s

theorem failsIn_ofExcept {e : Except Failure α} (h : ∀ failure, e = .error failure → ∀ s, P failure s) :
    FailsIn P (ofExcept e : Attempt σ α) := by
  intro s failure t made
  rw [on_ofExcept] at made
  exact h failure (Prod.mk.inj made).1 t

theorem failsIn_modify (f : σ → σ) : FailsIn P (modify f : Attempt σ PUnit) :=
  nofun

theorem failsIn_bind {a : Attempt σ α} {f : α → Attempt σ β} (first : FailsIn P a)
    (rest : ∀ x, FailsIn P (f x)) : FailsIn P (a >>= f) := by
  intro s failure t h
  obtain ⟨_, ⟨⟩, failed⟩ | ⟨x, u, -, failed⟩ := cases_of_on_bind h
  · exact first s failure t failed
  · exact rest x u failure t failed

theorem failsIn_mapM {f : α → Attempt σ β} (list : List α) (h : ∀ x ∈ list, FailsIn P (f x)) :
    FailsIn P (list.mapM f) := by
  induction list with
  | nil => exact failsIn_pure []
  | cons x rest ih =>
      rw [List.mapM_cons]
      refine failsIn_bind (h x List.mem_cons_self) fun y => ?_
      refine failsIn_bind (ih fun z member => h z (List.mem_cons_of_mem _ member)) fun ys => ?_
      exact failsIn_pure (y :: ys)

theorem failsIn_get_bind {f : σ → Attempt σ α} (h : ∀ s, FailsIn P (f s)) : FailsIn P (get >>= f) :=
  fun s failure t made => h s s failure t made

theorem failsIn_tryCatch {a : Attempt σ α} {handler : Failure → Attempt σ α}
    (handled : ∀ failure, FailsIn P (handler failure)) : FailsIn P (tryCatch a handler) := by
  intro s failure t h
  rw [on_tryCatch] at h
  rcases made : a.on s with ⟨result, s'⟩
  rw [made] at h
  cases result with
  | error first => exact handled first s' failure t h
  | ok x => cases h

theorem failsIn_map {a : Attempt σ α} (h : FailsIn P a) (f : α → β) : FailsIn P (f <$> a) := by
  intro s failure t mapped
  rw [on_map] at mapped
  rcases made : a.on s with ⟨result, s'⟩
  rw [made] at mapped
  cases result with
  | ok x => cases mapped
  | error _ =>
      cases mapped
      exact h s failure s' made

end FailsIn

section Fails

variable {P : Failure → Prop}

theorem fails_pure (x : α) : Fails P (pure x : Attempt σ α) :=
  failsIn_pure x

theorem fails_throw {failure : Failure} (h : P failure) : Fails P (throw failure : Attempt σ α) :=
  failsIn_throw fun _ => h

theorem fails_modify (f : σ → σ) : Fails P (modify f : Attempt σ PUnit) :=
  failsIn_modify f

theorem fails_bind {a : Attempt σ α} {f : α → Attempt σ β} (first : Fails P a)
    (rest : ∀ x, Fails P (f x)) : Fails P (a >>= f) :=
  failsIn_bind first rest

theorem fails_get_bind {f : σ → Attempt σ α} (h : ∀ s, Fails P (f s)) : Fails P (get >>= f) :=
  failsIn_get_bind h

theorem fails_map {a : Attempt σ α} (h : Fails P a) (f : α → β) : Fails P (f <$> a) :=
  failsIn_map h f

theorem fails_onPart {part : τ → σ} {update : σ → τ → τ} {a : Attempt σ α} (h : Fails P a) :
    Fails P (a.onPart part update) := by
  intro s failure t made
  obtain ⟨result, -⟩ := Prod.mk.inj made
  exact h (part s) failure _ (Prod.ext result rfl)

end Fails

end ScreenScript.Attempt
