import ScreenScript.Proofs.Except
import ScreenScript.Script.Arguments

namespace ScreenScript

def Phrase.IsRead (p : Phrase) : Prop :=
  ∃ raw, Phrase.parse raw = .ok p

def Expr.IsRead (e : Expr) : Prop :=
  (∃ source, Expr.parse source = .ok e) ∨ ∃ p : Phrase, p.IsRead ∧ e = .phrase p

namespace Arguments

structure Meets {α : Type} (I : Arguments → Prop) (taking : Taking α) (Q : α → Arguments → Prop)
    (F : Policy.Fault → Prop) : Prop where
  value {args rest : Arguments} {x : α} : I args → taking.run args = .ok (x, rest) → Q x rest
  fault {args : Arguments} {fault : Policy.Fault} :
    I args → taking.run args = .error (.policy fault) → F fault

section Rules

variable {α β : Type} {I I' : Arguments → Prop} {Q Q' : α → Arguments → Prop}
  {R : β → Arguments → Prop} {F : Policy.Fault → Prop} {taking : Taking α} {f : α → Taking β}

theorem meets_pure {x : α} (h : ∀ args, I args → Q x args) : Meets I (pure x) Q F where
  value before ran := by
    cases ran
    exact h _ before
  fault _ ran := nomatch ran

theorem run_bind_eq_ok_iff {args rest : Arguments} {y : β} :
    (taking >>= f).run args = .ok (y, rest) ↔
      ∃ x left, taking.run args = .ok (x, left) ∧ (f x).run left = .ok (y, rest) := by
  rw [StateT.run_bind, Except.bind_eq_ok_iff, Prod.exists]

theorem run_bind_of_eq_ok {args rest : Arguments} {x : α} (h : taking.run args = .ok (x, rest)) :
    (taking >>= f).run args = (f x).run rest := by
  rw [StateT.run_bind, h]
  rfl

theorem Meets.bind (first : Meets I taking Q F) (next : ∀ x, Meets (Q x) (f x) R F) :
    Meets I (taking >>= f) R F where
  value before ran := by
    obtain ⟨x, left, taken, ran⟩ := run_bind_eq_ok_iff.1 ran
    exact (next x).value (first.value before taken) ran
  fault {args fault} before ran := by
    rw [StateT.run_bind] at ran
    cases taken : taking.run args with
    | error fault' =>
        rw [taken] at ran
        cases ran
        exact first.fault before taken
    | ok result =>
        rw [taken] at ran
        exact (next result.1).fault (first.value before taken) ran

theorem Meets.of_and {P : Prop} (h : P → Meets I taking Q F) :
    Meets (fun args => I args ∧ P) taking Q F where
  value before := (h before.2).value before.1
  fault before := (h before.2).fault before.1

theorem Meets.weaken (h : Meets I taking Q F) (before : ∀ args, I' args → I args)
    (after : ∀ x args, Q x args → Q' x args) : Meets I' taking Q' F where
  value holds ran := after _ _ (h.value (before _ holds) ran)
  fault holds := h.fault (before _ holds)

theorem meets_orFault {ε : Type} {wrap : ε → Arguments.Fault} {e : Except ε α}
    (known : ∀ fault fault', e = .error fault → wrap fault = .policy fault' → F fault') :
    Meets I (orFault wrap e) (fun x args => I args ∧ e = .ok x) F where
  value before ran := by
    cases e with
    | error fault => cases ran
    | ok x =>
        cases ran
        exact ⟨before, rfl⟩
  fault before ran := by
    cases e with
    | error fault => exact known fault _ rfl (Except.error.inj ran)
    | ok x => cases ran

theorem meets_read {ε : Type} {wrap : ε → Arguments.Fault} {e : Except ε α}
    (other : ∀ fault fault', wrap fault ≠ .policy fault') :
    Meets I (orFault wrap e) (fun x args => I args ∧ e = .ok x) F :=
  meets_orFault fun fault fault' _ same => absurd same (other fault fault')

theorem Meets.map {g : α → β} (h : Meets I taking Q F) (after : ∀ x args, Q x args → R (g x) args) :
    Meets I (g <$> taking) R F := by
  rw [map_eq_pure_bind]
  exact h.bind fun x => meets_pure (after x)

theorem meets_get : Meets I get (fun _ => I) F where
  value before ran := by
    cases ran
    exact before
  fault _ ran := nomatch ran

theorem meets_modify {g : Arguments → Arguments} (h : ∀ args, I args → I (g args)) :
    Meets I (modify g) (fun _ => I) F where
  value before ran := by
    cases ran
    exact h _ before
  fault _ ran := nomatch ran

theorem meets_throw {fault : Arguments.Fault} (other : ∀ fault', fault ≠ .policy fault') :
    Meets I (throw fault) Q F where
  value _ ran := nomatch ran
  fault _ ran := absurd (Except.error.inj ran) (other _)

end Rules

/-! ## Positional arguments -/

section Positional

variable {named : List (String × String)} {F : Policy.Fault → Prop}

theorem meets_next? : Meets (·.named = named) next? (fun _ args => args.named = named) F where
  value {args rest first} before ran := by
    obtain ⟨command, positional, _⟩ := args
    cases positional with
    | nil | cons =>
        cases ran
        exact before
  fault {args fault} _ ran := by
    obtain ⟨command, positional, _⟩ := args
    cases positional with
    | nil | cons => cases ran

variable (what : String)

theorem meets_next : Meets (·.named = named) (next what) (fun _ args => args.named = named) F :=
  meets_next?.bind fun
    | some _ => meets_pure fun _ => id
    | none => meets_get.bind fun _ => meets_throw nofun

theorem meets_word : Meets (·.named = named) (word what) (fun _ args => args.named = named) F :=
  (meets_next what).bind fun
    | ⟨_, true⟩ => meets_get.bind fun _ => meets_throw nofun
    | ⟨_, false⟩ => meets_pure fun _ => id

theorem meets_phrase :
    Meets (·.named = named) (phrase what) (fun p args => args.named = named ∧ p.IsRead) F :=
  (meets_next what).bind fun argument =>
    (meets_read nofun).weaken (fun _ => id)
      fun _ _ => And.imp_right fun parsed => ⟨argument.text, parsed⟩

theorem meets_joined? :
    Meets (·.named = named) joined? (fun p? args => args.named = named ∧ ∀ p ∈ p?, p.IsRead) F := by
  refine meets_get.bind fun args => ?_
  cases args.positional with
  | nil => exact meets_pure fun _ before => ⟨before, nofun⟩
  | cons first rest =>
      have emptied : Meets (·.named = named) (modify fun args => { args with positional := [] })
          (fun _ args => args.named = named) F := meets_modify fun _ => id
      refine emptied.bind fun _ => (meets_read nofun).map ?_
      rintro p left ⟨before, parsed⟩
      exact ⟨before, fun _ same => Option.some.inj same ▸ ⟨_, parsed⟩⟩

theorem meets_joined :
    Meets (·.named = named) (joined what) (fun p args => args.named = named ∧ p.IsRead) F :=
  meets_joined?.bind fun
    | some p => meets_pure fun _ => And.imp_right fun read => read p rfl
    | none => meets_get.bind fun _ => meets_throw nofun

theorem meets_expr? :
    Meets (·.named = named) expr? (fun e? args => args.named = named ∧ ∀ e ∈ e?, e.IsRead) F := by
  refine meets_next?.bind fun first => ?_
  match first with
  | none => exact meets_pure fun _ before => ⟨before, nofun⟩
  | some ⟨text, false⟩ =>
      refine (meets_read nofun).map ?_
      rintro e left ⟨before, parsed⟩
      exact ⟨before, fun _ same => Option.some.inj same ▸ .inl ⟨_, parsed⟩⟩
  | some ⟨text, true⟩ =>
      refine (meets_read nofun).bind fun p => meets_pure ?_
      rintro left ⟨before, parsed⟩
      exact ⟨before, fun _ same => Option.some.inj same ▸ .inr ⟨p, ⟨text, parsed⟩, rfl⟩⟩

theorem meets_expr :
    Meets (·.named = named) (expr what) (fun e args => args.named = named ∧ e.IsRead) F :=
  meets_expr?.bind fun
    | some e => meets_pure fun _ => And.imp_right fun read => read e rfl
    | none => meets_get.bind fun _ => meets_throw nofun

end Positional

theorem meets_finish {I : Arguments → Prop} {F : Policy.Fault → Prop} :
    Meets I finish (fun _ => I) F := by
  refine meets_get.bind fun args => ?_
  match args with
  | ⟨_, _, _ :: _⟩ => exact meets_throw nofun
  | ⟨_, _ :: _, []⟩ => exact meets_throw nofun
  | ⟨_, [], []⟩ => exact meets_pure fun _ => id

/-! ## Named arguments -/

section Named

theorem lookup_of_removeNamed? {key value : String} {named rest : List (String × String)}
    (h : removeNamed? key named = some (value, rest)) :
    named.lookup key = some value ∧ ∀ other ≠ key, rest.lookup other = named.lookup other := by
  induction named generalizing value rest with
  | nil => cases h
  | cons first later ih =>
      obtain ⟨name, text⟩ := first
      rw [removeNamed?] at h
      split at h
      · rename_i same
        cases h
        rw [NameMap.lookup_cons_eq, if_pos same.symm]
        refine ⟨rfl, fun other ne => ?_⟩
        rw [NameMap.lookup_cons_eq, if_neg fun eq => ne (eq.trans same)]
      · rename_i ne
        obtain ⟨⟨found, left⟩, removed, eq⟩ := Option.map_eq_some_iff.1 h
        cases eq
        obtain ⟨here, others⟩ := ih removed
        refine ⟨?_, fun other ne' => ?_⟩
        · rw [NameMap.lookup_cons_eq, if_neg (Ne.symm ne), here]
        · rw [NameMap.lookup_cons_eq, NameMap.lookup_cons_eq, others other ne']

theorem lookup_of_removeNamed?_eq_none {key : String} {named : List (String × String)}
    (h : removeNamed? key named = none) : named.lookup key = none := by
  induction named with
  | nil => rfl
  | cons first later ih =>
      obtain ⟨name, text⟩ := first
      rw [removeNamed?] at h
      split at h
      · cases h
      · rename_i ne
        rw [NameMap.lookup_cons_eq, if_neg (Ne.symm ne), ih (Option.map_eq_none_iff.1 h)]

def Leaves (named : List (String × String)) (taken : List String) (args : Arguments) : Prop :=
  ∀ key ∉ taken, args.named.lookup key = named.lookup key

variable {named : List (String × String)} {taken : List String} {key : String} {F : Policy.Fault → Prop}

theorem meets_takeNamed (left : key ∉ taken) :
    Meets (Leaves named taken) (takeNamed key)
      (fun raw? args => Leaves named (key :: taken) args ∧ named.lookup key = raw?) F where
  value {args rest raw?} before ran := by
    rw [← before key left]
    have narrowed (other : String) (h : other ∉ key :: taken) : other ≠ key ∧ other ∉ taken :=
      not_or.1 (mt List.mem_cons.2 h)
    rw [StateT.run, takeNamed] at ran
    split at ran
    · rename_i value named' removed
      cases ran
      obtain ⟨found, others⟩ := lookup_of_removeNamed? removed
      refine ⟨fun other h => ?_, found⟩
      obtain ⟨ne, later⟩ := narrowed other h
      exact (others other ne).trans (before other later)
    · rename_i none
      cases ran
      exact ⟨fun other h => before other (narrowed other h).2, lookup_of_removeNamed?_eq_none none⟩
  fault _ ran := by
    rw [StateT.run, takeNamed] at ran
    split at ran
    · cases ran
    · cases ran

theorem meets_duration (left : key ∉ taken) :
    Meets (Leaves named taken) (duration key)
      (fun time? args => Leaves named (key :: taken) args ∧
        (named.lookup key).mapM Duration.parse = .ok time?) F := by
  refine (meets_takeNamed left).bind fun raw? => .of_and fun found => ?_
  rw [found]
  cases raw? with
  | none => exact meets_pure fun _ before => ⟨before, rfl⟩
  | some raw =>
      refine (meets_read nofun).map ?_
      rintro time args ⟨before, parsed⟩
      refine ⟨before, ?_⟩
      rw [Option.mapM_some, parsed]
      rfl

theorem meets_flag (left : key ∉ taken) :
    Meets (Leaves named taken) (flag key) (fun _ => Leaves named (key :: taken)) F := by
  refine (meets_takeNamed left).bind fun raw? => .of_and fun _ => ?_
  cases raw? with
  | none => exact meets_pure fun _ => id
  | some raw =>
      dsimp only
      cases boolean? raw with
      | none => exact meets_throw nofun
      | some b => exact meets_pure fun _ => id

end Named

end Arguments

def Policy.Adjusts (base : Policy) (named : List (String × String)) (result : Except Policy.Fault Policy) :
    Prop :=
  ∃ timeout interval, (named.lookup "timeout").mapM Duration.parse = .ok timeout ∧
    (named.lookup "interval").mapM Duration.parse = .ok interval ∧
    base.adjust timeout interval = result

theorem Arguments.meets_target (base : Policy) (named : List (String × String)) (template : Phrase) :
    Meets (·.named = named) (target base template)
      (fun t args => Leaves named ["interval", "timeout"] args ∧
        t.template = template ∧ base.Adjusts named (.ok t.policy))
      (fun fault => base.Adjusts named (.error fault)) := by
  have before (args : Arguments) (same : args.named = named) : Leaves named [] args :=
    fun key _ => by rw [same]
  refine ((meets_duration List.not_mem_nil).weaken before fun _ _ => id).bind fun timeout =>
    .of_and fun found => ?_
  refine (meets_duration (by decide)).bind fun interval => .of_and fun found' => ?_
  refine (meets_orFault ?_).bind fun policy => meets_pure fun args holds => ?_
  · rintro fault _ failed ⟨⟩
    exact ⟨timeout, interval, found, found', failed⟩
  · obtain ⟨left, made⟩ := holds
    exact ⟨left, rfl, timeout, interval, found, found', made⟩

end ScreenScript
