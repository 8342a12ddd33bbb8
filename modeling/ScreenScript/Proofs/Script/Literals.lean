import ScreenScript.Proofs.Script.Filling
import ScreenScript.Proofs.Script.Placement
import ScreenScript.Proofs.Script.QuotedText
import ScreenScript.Proofs.Text.Escaping

namespace ScreenScript

/-! ## Texts without placeholders -/

namespace Phrase

variable {raw : String} {run cs : List Char}

theorem readSegments_of_not_infix (plain : ¬ ['$', '\x7b'] <:+: cs) :
    readSegments raw run cs = .ok (literalSegment (run.reverse ++ cs)) := by
  induction cs generalizing run with
  | nil => rw [readSegments, List.append_nil]
  | cons c cs ih =>
      rw [readSegments_cons, ih fun inside => plain (inside.trans (List.suffix_cons c cs).isInfix)]
      · simp
      · intro rest whole
        exact plain (whole ▸ (List.prefix_append ['$', '\x7b'] rest).isInfix)

theorem parse_of_not_infix {s : String} (plain : ¬ ['$', '\x7b'] <:+: s.toList) :
    parse s = .ok (ofString s) := by
  rw [parse, readSegments_of_not_infix plain]
  rfl

theorem names_ofString (s : String) : (ofString s).names = [] := by
  unfold names ofString literalSegment
  split <;> rfl

theorem written_ofString (s : String) : (ofString s).written = s := by
  have whole := chars_literalSegment_append s.toList []
  rw [List.append_nil] at whole
  refine String.toList_inj.1 (whole.trans ?_)
  exact List.append_nil _

theorem render_ofString {m : Type → Type} [Monad m] [LawfulMonad m] (s : String)
    (lookup : String → m String) : (ofString s).render lookup = pure s := by
  rw [render_of_names_eq_nil (names_ofString s), written_ofString]

end Phrase

/-! ## Quoted texts -/

theorem standard_wordEscapes : Text.Escapes.Standard Word.escapes where
  backslash := rfl
  quote := rfl
  newline := rfl
  tab := rfl

theorem Expr.standard_tokenEscapes : Text.Escapes.Standard Expr.Token.escapes where
  backslash := rfl
  quote := rfl
  newline := rfl
  tab := rfl

namespace Line

variable {base : Policy} {cs name : List Char} {p : Phrase}

def literal (cs : List Char) : List Char :=
  quoted (Text.escape cs)

theorem ofLine_literal (cs : List Char) :
    Word.ofLine (literal cs) = .ok [.quoted (String.ofList cs)] := by
  have first : Word.read (literal cs) = .ok (.quoted (String.ofList cs), []) := by
    rw [literal, quoted, List.cons_append, Word.read_quoted,
      Text.readQuoted_escape standard_wordEscapes]
  rw [literal, quoted, List.cons_append] at first ⊢
  rw [Word.ofLine_of_read (by decide) (by decide) first, Word.ofLine]
  rfl

theorem tokens_literal (cs : List Char) :
    Expr.tokens (literal cs) = .ok [.quoted (String.ofList cs)] := by
  have first := Expr.Token.read_quoted (Text.escape cs ++ ['"'])
  rw [Text.readQuoted_escape Expr.standard_tokenEscapes] at first
  rw [literal, quoted, List.cons_append, Expr.tokens, if_neg (by decide), if_neg (by decide)]
  split
  · rename_i found
    cases first.symm.trans found
    rw [Expr.tokens]
    rfl
  · rename_i found
    cases first.symm.trans found

theorem parse_literal (h : Phrase.parse (String.ofList cs) = .ok p) :
    Expr.parse (literal cs) = .ok (.phrase p) := by
  refine Except.bind_eq_ok_iff.2 ⟨_, tokens_literal cs, ?_⟩
  rw [Expr.ofTokens, if_neg (by simp), Expr.readOperand, h]
  rfl

theorem ofWords_type {text : String} (h : Phrase.parse text = .ok p) :
    ofWords base "type" [.quoted text] = .ok (.act (.type p)) := by
  have command : ofWords base "type" [.quoted text] =
      takeAll (ofCommand base .type) ⟨"type", [⟨text, true⟩], []⟩ := rfl
  rw [command, takeAll, ofCommand, StateT.run_bind, run_phrase, h]
  rfl

theorem read_typing (h : Phrase.parse (String.ofList cs) = .ok p) :
    (read base (typing (literal cs))).content = .ok (.act (.type p)) := by
  have words : Word.ofLine (typing (literal cs)) = .ok [.bare "type", .quoted (String.ofList cs)] := by
    rw [literal, ofLine_typing, ← literal, ofLine_literal]
    rfl
  rw [read, literal, assignment?_typing, ← literal, words]
  exact ofWords_type h

theorem read_assigning (base : Policy) (named : isNameChars name)
    (free : Command.isReserved (String.ofList name) = false)
    (h : Phrase.parse (String.ofList cs) = .ok p) :
    (read base (Text.trim (assigning name (literal cs)))).content =
      .ok (.act (.assign (String.ofList name) (.phrase p))) := by
  rw [read, assignment?_assigning named free, literal, trim_quoted, ← literal]
  simp only [parse_literal h]
  rfl

theorem trim_assigning_quoted (named : isNameChars name) (body : List Char) :
    Text.trim (assigning name (quoted body)) = assigning name (quoted body) := by
  obtain ⟨c, rest, rfl, nameChar⟩ := exists_name_eq_cons named
  have whole : assigning (c :: rest) (quoted body) = c :: (rest ++ " = \"".toList ++ body ++ ['"']) := by
    simp [assigning, quoted]
  rw [whole, Text.trim_cons (not_isBlank_of_isNameChar nameChar), Text.trimEnd_append_cons (by decide)]
  rfl

theorem newline_notMem_literal (cs : List Char) : '\n' ∉ literal cs := by
  simp [literal, quoted, Text.newline_notMem_escape]

end Line

namespace Script

variable {base : Policy} {cs name : List Char} {p : Phrase}

theorem acts_typing (h : Phrase.parse (String.ofList cs) = .ok p) :
    Acts base (Line.typing (Line.literal cs)) (.type p) := by
  have trimmed := Line.trim_typing (Text.escape cs)
  refine acts_of_read trimmed ?_ (not_isRemark_of_trim trimmed (by decide)) (Line.read_typing h)
  simp [Line.typing, Line.newline_notMem_literal]

theorem acts_assigning (base : Policy) (named : isNameChars name)
    (free : Command.isReserved (String.ofList name) = false)
    (h : Phrase.parse (String.ofList cs) = .ok p) :
    Acts base (Line.assigning name (Line.literal cs)) (.assign (String.ofList name) (.phrase p)) := by
  have trimmed := Line.trim_assigning_quoted named (Text.escape cs)
  have read := Line.read_assigning base named free h
  rw [Line.literal, trimmed, ← Line.literal] at read
  refine acts_of_read trimmed ?_ ?_ read
  · have plain : '\n' ∉ name := fun feed => absurd (isNameChar_of_mem named feed) (by decide)
    simp [Line.assigning, plain, Line.newline_notMem_literal]
  · obtain ⟨c, rest, rfl, nameChar⟩ := exists_name_eq_cons named
    refine not_isRemark_of_trim trimmed ?_
    rintro rfl
    exact absurd nameChar (by decide)

/--
A text without `${` is typed and assigned by the lines that have it in quotes, wherever they stand, and what
they type and assign is this text, whatever the variables are.
-/
theorem acts_literal {s name : String} (base : Policy) (plain : ¬ ['$', '\x7b'] <:+: s.toList)
    (named : isName name) (free : Command.isReserved name = false) :
    Acts base (Line.typing (Line.literal s.toList)) (.type (.ofString s)) ∧
      Acts base (Line.assigning name.toList (Line.literal s.toList))
        (.assign name (.phrase (.ofString s))) ∧
      ∀ (σ : Type) (lookup : String → Attempt σ Value),
        (Phrase.ofString s).render (Phrase.display lookup) = pure s ∧
          (Expr.phrase (.ofString s)).evaluate lookup = pure (.text s) := by
  have parsed : Phrase.parse (String.ofList s.toList) = .ok (.ofString s) := by
    rw [String.ofList_toList]
    exact Phrase.parse_of_not_infix plain
  have free' : Command.isReserved (String.ofList name.toList) = false := by
    rwa [String.ofList_toList]
  have assigns := acts_assigning base named free' parsed
  rw [String.ofList_toList] at assigns
  refine ⟨acts_typing parsed, assigns, fun σ lookup => ⟨Phrase.render_ofString s _, ?_⟩⟩
  rw [Expr.evaluate, Phrase.render_ofString, pure_bind]

theorem acts_literal_marks :
    let s := " # = \x7b\x7d \"\\\n\t$ "
    let source := "repeat 2 \x7b\n  type \" # = \x7b\x7d \\\"\\\\\\n\\t$ \" \n\x7d\n"
    ¬ ['$', '\x7b'] <:+: s.toList ∧ isName "x" ∧ Command.isReserved "x" = false ∧
      Program.parse "x = \" # = \x7b\x7d \\\"\\\\\\n\\t$ \"" =
        .ok { instructions := [.act ⟨0, 1⟩ (.assign "x" (.phrase (.ofString s)))], size := 1 } ∧
      ∃ p, Program.parse source = .ok p ∧
        ∃ depth index, (depth, .act ⟨index, 2⟩ (.type (.ofString s))) ∈ p.walk := by
  intro s source
  have plain : ¬ ['$', '\x7b'] <:+: s.toList := by decide +kernel
  have free : Command.isReserved "x" = false := by decide +kernel
  obtain ⟨types, assigns, -⟩ := @acts_literal s "x" .standard plain (by decide +kernel) free
  have line : String.ofList (Line.assigning "x".toList (Line.literal s.toList)) =
      "x = \" # = \x7b\x7d \\\"\\\\\\n\\t$ \"" := by
    decide +kernel
  have lines : Text.lines source.toList = ["repeat 2 \x7b".toList] ++
      ("  ".toList ++ Line.typing (Line.literal s.toList) ++ " ".toList) :: ["\x7d".toList] := by
    decide +kernel
  have trimmed : Text.trim ("  ".toList ++ Line.typing (Line.literal s.toList) ++ " ".toList) =
      Line.typing (Line.literal s.toList) := by
    decide +kernel
  have read : (Program.parse source).toOption.isSome := by decide +kernel
  obtain ⟨p, parsed⟩ := Option.isSome_iff_exists.1 read
  have parsed := Except.toOption_eq_some_iff.1 parsed
  obtain ⟨depth, index, member, -⟩ := types.once source _ _ _ lines trimmed p parsed
  exact ⟨plain, by decide +kernel, free, line ▸ assigns.alone, p, parsed, depth, index, member⟩

end Script

end ScreenScript
