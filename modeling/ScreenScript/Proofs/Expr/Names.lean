import ScreenScript.Proofs.Attempt
import ScreenScript.Proofs.Variables.Layers
import ScreenScript.Script.Line

namespace ScreenScript

open Attempt (Agrees Fails FailsIn agrees_bind agrees_mapM agrees_ofExcept agrees_pure failsIn_bind
  failsIn_mapM failsIn_ofExcept failsIn_pure on_bind_of_on on_mapM_of_on)

variable {σ τ : Type}

/-! ## Phrases -/

namespace Phrase

variable {p : Phrase}

theorem agrees_render {P : τ → σ → Prop} {f : String → Attempt τ String} {g : String → Attempt σ String}
    (alike : ∀ name, .reference name ∈ p.segments → Agrees P P (f name) (g name)) :
    Agrees P P (p.render f) (p.render g) := by
  refine agrees_bind (agrees_mapM p.segments fun segment inside => ?_) (fun parts => agrees_pure _)
    fun _ _ => id
  cases segment with
  | literal text => exact agrees_pure text
  | reference name => exact alike name inside

theorem failsIn_render {P : Failure → σ → Prop} {f : String → Attempt σ String}
    (looked : ∀ name, .reference name ∈ p.segments → FailsIn P (f name)) : FailsIn P (p.render f) := by
  refine failsIn_bind (failsIn_mapM p.segments fun segment inside => ?_) fun parts => failsIn_pure _
  cases segment with
  | literal text => exact failsIn_pure text
  | reference name => exact looked name inside

theorem on_render {f : String → Attempt σ String} {g : String → Except Failure String} {s : σ}
    (known : ∀ name, .reference name ∈ p.segments → (f name).on s = (g name, s)) :
    (p.render f).on s = (p.render g, s) := by
  refine on_bind_of_on (on_mapM_of_on p.segments fun segment inside => ?_) fun parts => rfl
  cases segment with
  | literal text => rfl
  | reference name => exact known name inside

end Phrase

namespace Expr

/-- Whether a variable occurs in an expression, by itself or in a phrase. -/
inductive Mentions (name : String) : Expr → Prop where
  | reference : Mentions name (.reference name)
  | phrase {p : Phrase} (inside : .reference name ∈ p.segments) : Mentions name (.phrase p)
  | negate {operand : Expr} (inside : Mentions name operand) : Mentions name (.negate operand)
  | left {op : Operator} {l r : Expr} (inside : Mentions name l) : Mentions name (.binary op l r)
  | right {op : Operator} {l r : Expr} (inside : Mentions name r) : Mentions name (.binary op l r)

variable {e : Expr}

theorem mem_names_iff {name : String} : name ∈ e.names ↔ e.Mentions name := by
  induction e with
  | number n => exact ⟨nofun, nofun⟩
  | phrase p =>
      constructor
      · intro member
        obtain ⟨segment, inside, named⟩ := List.mem_filterMap.1 member
        cases segment with
        | literal text => cases named
        | reference other =>
            cases named
            exact .phrase inside
      · intro mentioned
        cases mentioned with
        | phrase inside => exact List.mem_filterMap.2 ⟨_, inside, rfl⟩
  | reference other =>
      constructor
      · intro member
        cases List.mem_singleton.1 member
        exact .reference
      · rintro ⟨⟩
        exact List.mem_singleton.2 rfl
  | negate operand ih =>
      constructor
      · exact fun member => .negate (ih.1 member)
      · intro mentioned
        cases mentioned with
        | negate inside => exact ih.2 inside
  | binary op l r ihLeft ihRight =>
      constructor
      · intro member
        cases List.mem_append.1 member with
        | inl member => exact .left (ihLeft.1 member)
        | inr member => exact .right (ihRight.1 member)
      · intro mentioned
        cases mentioned with
        | left inside => exact List.mem_append_left _ (ihLeft.2 inside)
        | right inside => exact List.mem_append_right _ (ihRight.2 inside)

theorem isConstant_iff : e.isConstant = true ↔ ∀ name, ¬ e.Mentions name := by
  rw [isConstant, List.isEmpty_iff, List.eq_nil_iff_forall_not_mem]
  exact forall_congr' fun name => not_congr mem_names_iff

/-! ## Two ways to look variables up -/

section Agrees

variable {P : τ → σ → Prop} {f : String → Attempt τ Value} {g : String → Attempt σ Value}

theorem agrees_evaluate (alike : ∀ name, e.Mentions name → Agrees P P (f name) (g name)) :
    Agrees P P (e.evaluate f) (e.evaluate g) := by
  induction e with
  | number n => exact agrees_pure _
  | phrase p =>
      refine agrees_bind (Phrase.agrees_render fun name inside => ?_) (fun text => agrees_pure _)
        fun _ _ => id
      exact agrees_bind (alike name (.phrase inside)) (fun value => agrees_pure _) fun _ _ => id
  | reference name => exact alike name .reference
  | negate operand ih =>
      exact agrees_bind (ih fun name inside => alike name (.negate inside)) (fun v => agrees_ofExcept _)
        fun _ _ => id
  | binary op l r ihLeft ihRight =>
      refine agrees_bind (ihLeft fun name inside => alike name (.left inside)) (fun v => ?_)
        fun _ _ => id
      exact agrees_bind (ihRight fun name inside => alike name (.right inside))
        (fun w => agrees_ofExcept _) fun _ _ => id

theorem agrees_evaluateCount (alike : ∀ name, e.Mentions name → Agrees P P (f name) (g name)) :
    Agrees P P (e.evaluateCount f) (e.evaluateCount g) :=
  agrees_bind (agrees_evaluate alike) (fun _ => agrees_ofExcept _) fun _ _ => id

theorem agrees_evaluateNumber (alike : ∀ name, e.Mentions name → Agrees P P (f name) (g name)) :
    Agrees P P (e.evaluateNumber f) (e.evaluateNumber g) :=
  agrees_bind (agrees_evaluate alike) (fun _ => agrees_ofExcept _) fun _ _ => id

theorem on_evaluate {g : String → Except Failure Value} {f : String → Attempt σ Value} {s : σ}
    (known : ∀ name, e.Mentions name → (f name).on s = (g name, s)) :
    (e.evaluate f).on s = (e.evaluate g, s) := by
  have settled (x : Except Failure Value) : (ofExcept x : Attempt σ Value).on s = (ofExcept x, s) := by
    cases x <;> rfl
  induction e with
  | number n => rfl
  | phrase p =>
      refine on_bind_of_on (Phrase.on_render fun name inside => ?_) fun text => rfl
      exact on_bind_of_on (known name (.phrase inside)) fun value => rfl
  | reference name => exact known name .reference
  | negate operand ih =>
      exact on_bind_of_on (ih fun name inside => known name (.negate inside)) fun v => settled _
  | binary op l r ihLeft ihRight =>
      refine on_bind_of_on (ihLeft fun name inside => known name (.left inside)) fun v => ?_
      exact on_bind_of_on (ihRight fun name inside => known name (.right inside)) fun w => settled _

end Agrees

/-! ## Failures -/

theorem exists_misuse_of_numeric {symbol : Char} {v : Value} {failure : Failure}
    (failed : numeric symbol v = .error failure) : ∃ misuse : Misuse, failure = misuse.failure := by
  unfold numeric at failed
  split at failed
  · cases failed
  · cases failed
    exact ⟨_, rfl⟩

theorem exists_misuse_of_negated {v : Value} {failure : Failure}
    (failed : negated v = .error failure) : ∃ misuse : Misuse, failure = misuse.failure := by
  unfold negated at failed
  cases taken : numeric '-' v with
  | error _ =>
      rw [taken] at failed
      cases failed
      exact exists_misuse_of_numeric taken
  | ok n =>
      rw [taken] at failed
      cases failed

theorem exists_misuse_of_apply {op : Operator} {l r : Value} {failure : Failure}
    (failed : apply op l r = .error failure) : ∃ misuse : Misuse, failure = misuse.failure := by
  unfold apply at failed
  split at failed
  · cases failed
  · cases failed
  · cases leftTaken : numeric op.symbol l with
    | error _ =>
        rw [leftTaken] at failed
        cases failed
        exact exists_misuse_of_numeric leftTaken
    | ok a =>
        cases rightTaken : numeric op.symbol r with
        | error _ =>
            rw [leftTaken, rightTaken] at failed
            cases failed
            exact exists_misuse_of_numeric rightTaken
        | ok b =>
            rw [leftTaken, rightTaken] at failed
            cases op with
            | add | subtract | multiply => cases failed
            | divide | remainder =>
                dsimp only [bind, Except.bind] at failed
                split at failed
                · cases failed
                  exact ⟨_, rfl⟩
                · cases failed

theorem exists_misuse_of_toCount {v : Value} {failure : Failure}
    (failed : toCount v = .error failure) : ∃ misuse : Misuse, failure = misuse.failure := by
  unfold toCount at failed
  split at failed
  · split at failed
    · cases failed
    · cases failed
      exact ⟨_, rfl⟩
  · cases failed
    exact ⟨_, rfl⟩

theorem exists_misuse_of_toNumber {v : Value} {failure : Failure}
    (failed : toNumber v = .error failure) : ∃ misuse : Misuse, failure = misuse.failure := by
  unfold toNumber at failed
  split at failed
  · cases failed
  · cases failed
    exact ⟨_, rfl⟩

section FailsIn

variable {P : Failure → σ → Prop} {f : String → Attempt σ Value}
  (misused : ∀ (misuse : Misuse) s, P misuse.failure s)
include misused

theorem failsIn_ofExcept_of_misuse {α : Type} {x : Except Failure α}
    (h : ∀ {failure}, x = .error failure → ∃ misuse : Misuse, failure = misuse.failure) :
    FailsIn P (ofExcept x : Attempt σ α) := by
  refine failsIn_ofExcept fun failure failed s => ?_
  obtain ⟨misuse, rfl⟩ := h failed
  exact misused misuse s

theorem failsIn_evaluate (looked : ∀ name, e.Mentions name → FailsIn P (f name)) :
    FailsIn P (e.evaluate f) := by
  induction e with
  | number n => exact failsIn_pure _
  | phrase p =>
      refine failsIn_bind (Phrase.failsIn_render fun name inside => ?_) fun text => failsIn_pure _
      exact failsIn_bind (looked name (.phrase inside)) fun value => failsIn_pure _
  | reference name => exact looked name .reference
  | negate operand ih =>
      exact failsIn_bind (ih fun name inside => looked name (.negate inside)) fun v =>
        failsIn_ofExcept_of_misuse misused exists_misuse_of_negated
  | binary op l r ihLeft ihRight =>
      refine failsIn_bind (ihLeft fun name inside => looked name (.left inside)) fun v => ?_
      exact failsIn_bind (ihRight fun name inside => looked name (.right inside)) fun w =>
        failsIn_ofExcept_of_misuse misused exists_misuse_of_apply

theorem failsIn_evaluateCount (looked : ∀ name, e.Mentions name → FailsIn P (f name)) :
    FailsIn P (e.evaluateCount f) :=
  failsIn_bind (failsIn_evaluate misused looked) fun _ =>
    failsIn_ofExcept_of_misuse misused exists_misuse_of_toCount

theorem failsIn_evaluateNumber (looked : ∀ name, e.Mentions name → FailsIn P (f name)) :
    FailsIn P (e.evaluateNumber f) :=
  failsIn_bind (failsIn_evaluate misused looked) fun _ =>
    failsIn_ofExcept_of_misuse misused exists_misuse_of_toNumber

end FailsIn

/-! ## Stores of variables -/

/-- Why an expression may fail with the given variables. -/
inductive Blames (e : Expr) (b : Option (Backing σ)) (v : Variables) : Failure → Prop where
  | undefined {name : String} (mentioned : e.Mentions name) (unbound : v.bound.get? name = none)
    (unstored : ∀ backing ∈ b, ∃ s t, (backing.read name).on s = (.ok none, t))
    (undeclared : v.defaults.get? name = none) : Blames e b v (.undefinedVariable name)
  | unreadable {name : String} {backing : Backing σ} {failure : Failure} {s t : σ}
    (mentioned : e.Mentions name) (unbound : v.bound.get? name = none) (backed : b = some backing)
    (failed : (backing.read name).on s = (.error failure, t)) : Blames e b v failure
  | misuse (misuse : Misuse) : Blames e b v misuse.failure

theorem fails_get {b : Option (Backing σ)} {v : Variables} {name : String} (mentioned : e.Mentions name) :
    Fails (e.Blames b v) (v.get b name) := by
  intro s failure t failed
  rw [Variables.get_on] at failed
  split at failed
  · cases failed
  · rename_i unbound
    have defaulted (unstored : ∀ backing ∈ b, ∃ s t, (backing.read name).on s = (.ok none, t)) {t' : σ}
        (failed : (v.default? name, t') = (.error failure, t)) : e.Blames b v failure := by
      unfold Variables.default? at failed
      split at failed
      · cases failed
      · rename_i undeclared
        cases failed
        exact .undefined mentioned unbound unstored undeclared
    cases b with
    | none =>
        refine defaulted (fun _ backed => ?_) failed
        cases backed
    | some backing =>
        rcases read : (backing.read name).on s with ⟨found, t'⟩
        dsimp only [Variables.readThrough] at failed
        rw [read] at failed
        cases found with
        | error _ =>
            cases failed
            exact .unreadable mentioned unbound rfl read
        | ok kept =>
            cases kept with
            | some value => cases failed
            | none =>
                refine defaulted ?_ failed
                rintro _ ⟨⟩
                exact ⟨s, t', read⟩

/-! ## Constants -/

theorem on_evaluate_of_isConstant (constant : e.isConstant = true) (lookup : String → Attempt σ Value)
    (s : σ) :
    (e.evaluate lookup).on s = (e.evaluate fun name => .error (.undefinedVariable name), s) :=
  on_evaluate fun name mentioned => absurd mentioned (isConstant_iff.1 constant name)

theorem readDeclaration_eq {cs source : List Char} {name : String}
    (assigns : Line.splitAssignment (Text.trimStart cs) = some (name, source))
    (free : Command.isReserved name = false) (parsed : parse source = .ok e) :
    Line.readDeclaration cs =
      if e.isConstant then
        (Line.orFault .defaultFails (e.evaluate fun name => .error (.undefinedVariable name))).map
          (.declare name)
      else .error (.variableDefault name) := by
  have free' : ¬ Command.isReserved name = true := by simp [free]
  rw [Line.readDeclaration, assigns]
  dsimp only
  rw [if_neg free', parsed]
  cases constant : e.isConstant with
  | false =>
      simp only [Line.orFault, Except.mapError, bind, Except.bind, constant]
      rfl
  | true =>
      simp only [Line.orFault, Except.mapError, bind, Except.bind, constant]
      cases e.evaluate fun name => Except.error (Failure.undefinedVariable name) <;> rfl

/--
An expression depends on the variables that it mentions, and on no others. Stores of variables that
answer alike for these, and go on doing so, give the same values and the same failures. A failure is
about a mentioned variable that is nowhere defined, comes from reading a mentioned variable in the
backing store, or is about the values. An expression that mentions none is a constant: every store gives
what the empty one does, and this is what a declaration takes.
-/
theorem evaluate_reads_mentioned (e : Expr) (b : Option (Backing σ)) (v : Variables) :
    (∀ {τ : Type} (c : Option (Backing τ)) (u : Variables) (P : σ → τ → Prop),
      (∀ name, e.Mentions name → Agrees P P (v.get b name) (u.get c name)) →
      Agrees P P (e.evaluate (v.get b)) (e.evaluate (u.get c)) ∧
      Agrees P P (e.evaluateCount (v.get b)) (e.evaluateCount (u.get c)) ∧
      Agrees P P (e.evaluateNumber (v.get b)) (e.evaluateNumber (u.get c))) ∧
    (Fails (e.Blames b v) (e.evaluate (v.get b)) ∧ Fails (e.Blames b v) (e.evaluateCount (v.get b)) ∧
      Fails (e.Blames b v) (e.evaluateNumber (v.get b))) ∧
    (e.isConstant = true ↔ ∀ name, ¬ e.Mentions name) ∧
    (e.isConstant = true → ∀ s,
      (e.evaluate (v.get b)).on s =
        (((e.evaluate (({} : Variables).get (none : Option (Backing Unit)))).on ()).1, s)) ∧
    ∀ cs name source, Line.splitAssignment (Text.trimStart cs) = some (name, source) →
      Command.isReserved name = false → parse source = .ok e →
      (e.isConstant = false → Line.readDeclaration cs = .error (.variableDefault name)) ∧
      (e.isConstant = true → ∀ s, Line.readDeclaration cs =
        (Line.orFault .defaultFails ((e.evaluate (v.get b)).on s).1).map (.declare name)) := by
  refine ⟨fun c u P alike => ?_, ?_, isConstant_iff, fun constant s => ?_, ?_⟩
  · exact ⟨agrees_evaluate alike, agrees_evaluateCount alike, agrees_evaluateNumber alike⟩
  · have looked name (mentioned : e.Mentions name) := fails_get (b := b) (v := v) mentioned
    have misused (misuse : Misuse) (_ : σ) : e.Blames b v misuse.failure := .misuse misuse
    exact ⟨failsIn_evaluate misused looked, failsIn_evaluateCount misused looked,
      failsIn_evaluateNumber misused looked⟩
  · rw [on_evaluate_of_isConstant constant, on_evaluate_of_isConstant constant]
  · intro cs name source assigns free parsed
    refine ⟨fun varies => ?_, fun constant s => ?_⟩
    · rw [readDeclaration_eq assigns free parsed, varies]
      rfl
    · rw [readDeclaration_eq assigns free parsed, if_pos constant, on_evaluate_of_isConstant constant]

theorem evaluate_reads_mentioned_greeting :
    let e := binary .add (.reference "greeting") (.phrase ⟨[.literal ", ", .reference "name"]⟩)
    let kept : MemoryBacking := { entries := .ofList [("name", .text "you"), ("other", .text "kept")] }
    let v : Variables := { bound := .ofList [("greeting", .text "hello")] }
    let u : Variables :=
      { defaults := .ofList [("greeting", .text "hello"), ("name", .text "you"), ("other", .text "new")] }
    ((e.evaluate (v.get (some MemoryBacking.backing))).on kept).1 = .ok (.text "hello, you") ∧
      ((e.evaluate (u.get (none : Option (Backing Unit)))).on ()).1 = .ok (.text "hello, you") ∧
      Line.readDeclaration "x = \"a\" + \"b\"".toList = .ok (.declare "x" (.text "ab")) := by
  intro e kept v u
  have stored : ((e.evaluate (v.get (some MemoryBacking.backing))).on kept).1 =
      .ok (.text "hello, you") := rfl
  have alike : ∀ name, e.Mentions name →
      Agrees (fun s t => s = kept ∧ t = ()) (fun s t => s = kept ∧ t = ())
        (v.get (some MemoryBacking.backing) name) (u.get (none : Option (Backing Unit)) name) := by
    rintro name mentioned _ _ ⟨rfl, rfl⟩
    have names : name ∈ ["greeting", "name"] := mem_names_iff.2 mentioned
    simp only [List.mem_cons, List.not_mem_nil, or_false] at names
    rcases names with rfl | rfl
    · exact ⟨rfl, rfl, rfl⟩
    · exact ⟨rfl, rfl, rfl⟩
  refine ⟨stored, ?_, ?_⟩
  · obtain ⟨same, -⟩ := (evaluate_reads_mentioned e (some MemoryBacking.backing) v).1 none u _ alike
    rw [← (same kept () ⟨rfl, rfl⟩).1]
    exact stored
  · obtain ⟨-, -, -, constant, declares⟩ :=
      evaluate_reads_mentioned (.binary .add (.phrase ⟨[.literal "a"]⟩) (.phrase ⟨[.literal "b"]⟩))
        (some MemoryBacking.backing) v
    obtain ⟨-, takes⟩ := declares "x = \"a\" + \"b\"".toList "x" "\"a\" + \"b\"".toList
      (by decide) (by decide) (by cbv)
    rw [takes rfl kept, constant rfl kept]
    cbv

end Expr

end ScreenScript
