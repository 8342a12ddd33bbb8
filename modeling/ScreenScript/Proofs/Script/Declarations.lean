import Mathlib
import ScreenScript.Proofs.Script.Assignments
import ScreenScript.Proofs.Script.Phrase
import ScreenScript.Proofs.Script.Reading
import ScreenScript.Proofs.Script.Words
import ScreenScript.Run.Session

namespace ScreenScript

/-! ## Constants -/

namespace Expr

variable {m : Type → Type} [Monad m] [LawfulMonad m] [MonadExcept Failure m]

/-- Whether an expression mentions no variable and has the given value. -/
def Denotes (e : Expr) (value : Value) : Prop :=
  e.names = [] ∧ e.evaluate (fun name => Except.error (Failure.undefinedVariable name)) = .ok value

theorem ofExcept_eq_ok_iff {α : Type} {e : Except Failure α} {x : α} :
    (ofExcept e : Except Failure α) = .ok x ↔ e = .ok x := by
  cases e with
  | error failure => exact Iff.rfl
  | ok y => exact Iff.rfl

theorem Denotes.evaluate_eq_pure {e : Expr} {value : Value} (h : e.Denotes value)
    (lookup : String → m Value) : e.evaluate lookup = pure value := by
  obtain ⟨constant, h⟩ := h
  induction e generalizing value with
  | number n =>
      cases h
      rfl
  | phrase p =>
      rw [evaluate, Phrase.render_of_names_eq_nil constant] at h
      cases h
      rw [evaluate, Phrase.render_of_names_eq_nil constant, pure_bind]
  | reference name => cases constant
  | negate operand ih =>
      obtain ⟨v, evaluated, h⟩ := Except.bind_eq_ok_iff.1 h
      rw [evaluate, ih constant evaluated, pure_bind, ofExcept_eq_ok_iff.1 h]
      rfl
  | binary op left right ihLeft ihRight =>
      obtain ⟨leftConstant, rightConstant⟩ := List.append_eq_nil_iff.1 constant
      obtain ⟨l, leftEvaluated, h⟩ := Except.bind_eq_ok_iff.1 h
      obtain ⟨r, rightEvaluated, h⟩ := Except.bind_eq_ok_iff.1 h
      rw [evaluate, ihLeft leftConstant leftEvaluated, pure_bind,
        ihRight rightConstant rightEvaluated, pure_bind, ofExcept_eq_ok_iff.1 h]
      rfl

end Expr

/-! ## Lines that declare -/

namespace Line

variable {name source : List Char}

def declaring (name source : List Char) : List Char :=
  "var ".toList ++ assigning name source

theorem trim_declaring (name source : List Char) :
    Text.trim (declaring name source) =
      'v' :: "ar".toList ++ ' ' :: (name ++ ' ' :: '=' :: assignedPart source) := by
  have whole : declaring name source =
      'v' :: (("ar ".toList ++ name ++ [' ']) ++ '=' :: ' ' :: source) := by
    simp [declaring, assigning]
  rw [whole, Text.trim_cons (by decide), Text.trimEnd_append_cons (by decide), assignedPart]
  simp

theorem ofLine_declaring (named : isNameChars name) (source : List Char) :
    Word.ofLine (Text.trim (declaring name source)) =
      (Word.ofLine (Text.trim source)).map fun words =>
        .bare "var" :: Word.ofBare name :: .bare "=" :: words := by
  have part : Word.ofLine (assignedPart source) = Word.ofLine (Text.trim source) := by
    rw [← trimStart_assignedPart, Word.ofLine_trimStart]
  have stop : ∀ d, (assignedPart source).head? = some d → Text.isBlank d := by
    intro d first
    rcases assignedPart_eq source with none | some
    · rw [none] at first
      cases first
    · rw [some] at first
      cases first
      decide
  have blank (cs : List Char) : ∀ d, (' ' :: cs).head? = some d → Text.isBlank d := by
    rintro d ⟨⟩
    decide
  have keyword : Word.ofBare ('v' :: "ar".toList) = .bare "var" := by decide
  have sign : Word.ofBare ['='] = .bare "=" := by decide
  have third : Word.ofLine ('=' :: assignedPart source) =
      (Word.ofLine (Text.trim source)).map (.bare "=" :: ·) := by
    rw [← List.nil_append (assignedPart source), ← List.cons_append,
      Word.ofLine_bare (by decide) (by decide) stop, part, sign]
  have plain : name.all Word.isPlain :=
    List.all_eq_true.2 fun d member => isPlain_of_isNameChar (isNameChar_of_mem named member)
  obtain ⟨c, rest, rfl, nameChar⟩ := exists_name_eq_cons named
  have notRemark : c ≠ '#' := by
    rintro rfl
    cases nameChar
  rw [trim_declaring, Word.ofLine_bare (by decide) (by decide) (blank _),
    Word.ofLine_of_isBlank (by decide), Word.ofLine_bare notRemark plain (blank _),
    Word.ofLine_of_isBlank (by decide), third, keyword]
  cases Word.ofLine (Text.trim source) with
  | error fault => rfl
  | ok words => rfl

theorem assignment?_declaring (named : isNameChars name) (source : List Char) :
    assignment? (Text.trim (declaring name source)) = none := by
  obtain ⟨c, rest, rfl, nameChar⟩ := exists_name_eq_cons named
  have notSign : c ≠ '=' := by
    rintro rfl
    cases nameChar
  have words : splitAssignment
      ('v' :: "ar".toList ++ ' ' :: (c :: rest ++ ' ' :: '=' :: assignedPart source)) = none :=
    splitAssignment_words (by decide) (by decide) (by decide) (not_isBlank_of_isNameChar nameChar)
      notSign
  rw [assignment?, trim_declaring, words]
  rfl

theorem splitAssignment_declaring (named : isNameChars name) (source : List Char) :
    splitAssignment (Text.trimStart ((Text.trim (declaring name source)).drop "var".length)) =
      some (String.ofList name, Text.trim source) := by
  have dropped : (Text.trim (declaring name source)).drop "var".length =
      ' ' :: (name ++ ' ' :: '=' :: assignedPart source) := by
    rw [trim_declaring]
    rfl
  have start : Text.trimStart (name ++ ' ' :: '=' :: assignedPart source) =
      name ++ ' ' :: '=' :: assignedPart source := by
    obtain ⟨c, rest, rfl, nameChar⟩ := exists_name_eq_cons named
    rw [List.cons_append, Text.trimStart_of_not_isBlank (not_isBlank_of_isNameChar nameChar)]
  rw [dropped, Text.trimStart_of_isBlank (by decide), start, splitAssignment_assignedPart named]

theorem content_read_assigning {base : Policy} (named : isNameChars name)
    (free : Command.isReserved (String.ofList name) = false) :
    (read base (Text.trim (assigning name source))).content =
      (orFault .expr (Expr.parse (Text.trim source))).map fun e =>
        .act (.assign (String.ofList name) e) := by
  rw [read, assignment?_assigning named free]

theorem content_read_declaring_iff {base : Policy} {l : Line} (named : isNameChars name)
    (free : Command.isReserved (String.ofList name) = false) :
    (read base (Text.trim (declaring name source))).content = .ok l ↔
      (∃ words, Word.ofLine (Text.trim source) = .ok words) ∧
      ∃ e value, Expr.parse (Text.trim source) = .ok e ∧ e.Denotes value ∧
        l = .declare (String.ofList name) value := by
  rw [read, assignment?_declaring named, ofLine_declaring named]
  -- The words are only looked at to see that it is a declaration, which is then read from the text.
  cases Word.ofLine (Text.trim source) with
  | error fault =>
      constructor
      · rintro ⟨⟩
      · rintro ⟨⟨_, ⟨⟩⟩, -⟩
  | ok words =>
      have whole : (readDeclaration ((Text.trim (declaring name source)).drop "var".length)) = .ok l ↔
          ∃ e value, Expr.parse (Text.trim source) = .ok e ∧ e.Denotes value ∧
            l = .declare (String.ofList name) value := by
        rw [readDeclaration, splitAssignment_declaring named]
        dsimp only
        rw [if_neg (by simp [free])]
        constructor
        · intro h
          obtain ⟨e, parsed, h⟩ := Except.bind_eq_ok_iff.1 h
          split at h
          · cases h
          · rename_i constant
            obtain ⟨value, evaluated, h⟩ := Except.bind_eq_ok_iff.1 h
            cases h
            refine ⟨e, value, Except.mapError_eq_ok_iff.1 parsed, ⟨?_, ?_⟩, rfl⟩
            · simpa [Expr.isConstant] using constant
            · exact Except.mapError_eq_ok_iff.1 evaluated
        · rintro ⟨e, value, parsed, ⟨constant, evaluated⟩, rfl⟩
          have isConstant : e.isConstant = true := by simp [Expr.isConstant, constant]
          rw [parsed]
          simp only [orFault, Except.mapError, isConstant, evaluated, bind, Except.bind]
          rfl
      exact whole.trans ⟨fun h => ⟨⟨words, rfl⟩, h⟩, fun h => h.2⟩

end Line

namespace Block.State

open Script

variable {base : Policy} {s s' : State} {line : Nat} {name source : List Char}

theorem step_assigning_iff (named : isNameChars name)
    (free : Command.isReserved (String.ofList name) = false) :
    s.step base line (Line.assigning name source) = .ok s' ↔
      ∃ e, Expr.parse (Text.trim source) = .ok e ∧
        s' = s.settle.act line (.assign (String.ofList name) e) := by
  have counts : ¬ isRemark (Line.assigning name source) := by
    have trimmed := Line.trim_assigning named source
    obtain ⟨c, rest, rfl, nameChar⟩ := exists_name_eq_cons named
    refine not_isRemark_of_trim trimmed ?_
    rintro rfl
    cases nameChar
  rw [step_eq_ok_iff counts, Line.content_read_assigning named free]
  constructor
  · rintro ⟨l, read, taken⟩
    obtain ⟨e, parsed, rfl⟩ := Except.map_eq_ok_iff.1 read
    cases taken
    exact ⟨e, Except.mapError_eq_ok_iff.1 parsed, rfl⟩
  · rintro ⟨e, parsed, rfl⟩
    rw [parsed]
    exact ⟨_, rfl, rfl⟩

theorem assign_inj {name : String} {e e' : Expr}
    (h : s.act line (.assign name e) = s.act line (.assign name e')) : e = e' := by
  have first := (List.cons.inj (congrArg State.current h)).1
  cases first
  rfl

end Block.State

theorem Session.perform_assign {σ : Type} {e : Expr} {value : Value} (denotes : e.Denotes value)
    (w : World σ) (place : Place) (name : String) :
    Session.perform w place (.assign name e) = (do
      Session.note (.assigning name value)
      Session.assign w name value) := by
  rw [Session.perform, denotes.evaluate_eq_pure, pure_bind]

namespace Block.State

variable {base : Policy} {s s' : State} {line : Nat} {name source : List Char}

/--
A line outside of all blocks declares a variable if it has words, and if the line that assigns is
accepted with a constant. The default is the value that is assigned, and replaces an earlier one.
-/
theorem step_declaring_iff (named : isNameChars name)
    (free : Command.isReserved (String.ofList name) = false) (outer : s.levels = []) :
    s.step base line (Line.declaring name source) = .ok s' ↔
      (∃ words, Word.ofLine (Text.trim source) = .ok words) ∧
      ∃ e value,
        s.step base line (Line.assigning name source) =
          .ok (s.settle.act line (.assign (String.ofList name) e)) ∧
        e.Denotes value ∧
        (∀ (σ : Type) (w : World σ) (place : Place),
          Session.perform w place (.assign (String.ofList name) e) = do
            Session.note (.assigning (String.ofList name) value)
            Session.assign w (String.ofList name) value) ∧
        s' = s.settle.declare (String.ofList name) value ∧
        ∀ other, s'.defaults.get? other =
          if other = String.ofList name then some value else s.defaults.get? other := by
  have counts : ¬ Script.isRemark (Line.declaring name source) :=
    Script.not_isRemark_of_trim (Line.trim_declaring name source) (by decide)
  rw [step_eq_ok_iff counts]
  constructor
  · rintro ⟨l, read, taken⟩
    obtain ⟨words, e, value, parsed, denotes, rfl⟩ :=
      (Line.content_read_declaring_iff named free).1 read
    rw [take_declare _ _ _ outer] at taken
    cases taken
    refine ⟨words, e, value, ?_, denotes, ?_, rfl, fun other => ?_⟩
    · exact (step_assigning_iff named free).2 ⟨e, parsed, rfl⟩
    · exact fun σ w place => Session.perform_assign denotes w place _
    · rw [declare, NameMap.get?_insert, defaults_settle]
  · rintro ⟨words, e, value, stepped, denotes, -, rfl, -⟩
    obtain ⟨e', parsed, same⟩ := (step_assigning_iff named free).1 stepped
    cases assign_inj same
    exact ⟨_, (Line.content_read_declaring_iff named free).2 ⟨words, e, value, parsed, denotes, rfl⟩,
      take_declare _ _ _ outer⟩

theorem step_declaring_iff_spaced :
    ∃ s', ({} : State).step .standard 1 (Line.declaring ['x'] "\"a\" + \"b\"".toList) = .ok s' ∧
      s'.defaults.get? "x" = some (.text "ab") := by
  let e : Expr := .binary .add (.phrase ⟨[.literal "a"]⟩) (.phrase ⟨[.literal "b"]⟩)
  have denotes : e.Denotes (.text "ab") := ⟨rfl, by cbv⟩
  have assigned : ({} : State).step .standard 1 (Line.assigning ['x'] "\"a\" + \"b\"".toList) =
      .ok (({} : State).settle.act 1 (.assign "x" e)) :=
    (step_assigning_iff (by decide) (by decide)).2 ⟨e, by cbv, rfl⟩
  have cut : (Word.ofLine (Text.trim "\"a\" + \"b\"".toList)).toOption.isSome := by decide +kernel
  obtain ⟨words, found⟩ := Option.isSome_iff_exists.1 cut
  refine ⟨({} : State).settle.declare "x" (.text "ab"), ?_, rfl⟩
  exact (step_declaring_iff (by decide) (by decide) rfl).2
    ⟨⟨words, Except.toOption_eq_some_iff.1 found⟩, e, _, assigned, denotes,
      fun σ w place => Session.perform_assign denotes w place _, rfl, fun other => by
        rw [declare, NameMap.get?_insert, defaults_settle]⟩

/-- Texts are put together without blanks, and no words of a command can be cut from the line. -/
theorem exists_assigned_not_declared :
    ∃ e, Expr.Denotes e (.text "ab") ∧
      ({} : State).step .standard 1 (Line.assigning ['x'] "\"a\"+\"b\"".toList) =
        .ok (({} : State).settle.act 1 (.assign "x" e)) ∧
      ∀ s', ({} : State).step .standard 1 (Line.declaring ['x'] "\"a\"+\"b\"".toList) ≠ .ok s' := by
  let e : Expr := .binary .add (.phrase ⟨[.literal "a"]⟩) (.phrase ⟨[.literal "b"]⟩)
  refine ⟨e, ⟨rfl, by cbv⟩, ?_, ?_⟩
  · exact (step_assigning_iff (by decide) (by decide)).2 ⟨e, by cbv, rfl⟩
  · intro s' accepted
    have refused : (({} : State).step .standard 1
        (Line.declaring ['x'] "\"a\"+\"b\"".toList)).toOption.isSome = false := by
      decide +kernel
    rw [accepted] at refused
    cases refused

end Block.State

end ScreenScript
