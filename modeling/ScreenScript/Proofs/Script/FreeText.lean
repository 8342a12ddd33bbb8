import ScreenScript.Proofs.Script.Placement
import ScreenScript.Proofs.Script.Spelling

namespace ScreenScript

/-- What a command that takes free text does with it. -/
inductive Command.Speaks : Command → (Phrase → Action) → Prop where
  | log : Speaks .log .log
  | launch : Speaks .launch .launch
  | abort : Speaks .abort fun p => .abort (some p)

theorem Command.Speaks.takesText {command : Command} {act : Phrase → Action} (h : command.Speaks act) :
    command.takesText = true ∧ command.takesBlock = false := by
  cases h <;> exact ⟨rfl, rfl⟩

namespace Word

/-- Whether a text can be a word of free text. -/
structure IsText (text : List Char) : Prop where
  free : Free text
  noRemark : text.head? ≠ some '#'
  some : text ≠ []

variable {text : List Char}

theorem IsText.spells (h : IsText text) : Spells text (ofBare text) := by
  obtain ⟨c, rest, rfl⟩ := List.exists_cons_of_ne_nil h.some
  refine spells_of_free h.free (h.free.not_isBlank_of_head? rfl) ?_
  rintro rfl
  exact h.noRemark rfl

theorem positional?_ofBare (text : List Char) :
    Arguments.positional? true (ofBare text) = some { text := String.ofList text } := by
  unfold ofBare
  split
  · rename_i key value cut
    split
    · obtain ⟨sep, isSep, rfl, -⟩ := Text.append_of_splitFirst cut
      obtain rfl : sep = '=' := by simpa using isSep
      rw [Arguments.positional?, if_pos rfl, String.ofList_append, String.ofList_cons, String.append_assoc]
      rfl
    · rfl
  · rfl

theorem ofBare_ne_brace (text : List Char) : ofBare text ≠ .opening ∧ ofBare text ≠ .closing := by
  unfold ofBare
  split
  · split <;> exact ⟨nofun, nofun⟩
  · exact ⟨nofun, nofun⟩

end Word

namespace Line

open Word (IsText IsGap spaced ofBare)

variable {base : Policy} {command : Command} {act : Phrase → Action} {pieces : List (List Char × List Char)}

/-- What stands after a command that takes free text, in the form in which it is taken. -/
def arguments (pieces : List (List Char × List Char)) : List Argument :=
  pieces.map fun piece => { text := String.ofList piece.2 }

/-- The text that the words after a command are, with single spaces between them. -/
def freeText (pieces : List (List Char × List Char)) : String :=
  " ".intercalate (pieces.map fun piece => String.ofList piece.2)

variable (word : String) (first : Argument) (rest : List Argument)

theorem run_joined? :
    Arguments.joined?.run ⟨word, first :: rest, []⟩ =
      match Phrase.parse (" ".intercalate ((first :: rest).map Argument.text)) with
      | .ok p => .ok (some p, ⟨word, [], []⟩)
      | .error fault => .error (.phrase fault) := by
  have taken : Arguments.joined?.run ⟨word, first :: rest, []⟩ =
      (some <$> Arguments.orFault .phrase
        (Phrase.parse (" ".intercalate ((first :: rest).map Argument.text)))).run ⟨word, [], []⟩ := rfl
  rw [taken]
  cases Phrase.parse (" ".intercalate ((first :: rest).map Argument.text)) with
  | ok p => rfl
  | error fault => rfl

theorem run_joined (what : String) :
    (Arguments.joined what).run ⟨word, first :: rest, []⟩ =
      match Phrase.parse (" ".intercalate ((first :: rest).map Argument.text)) with
      | .ok p => .ok (p, ⟨word, [], []⟩)
      | .error fault => .error (.phrase fault) := by
  rw [Arguments.joined, StateT.run_bind, run_joined?]
  cases Phrase.parse (" ".intercalate ((first :: rest).map Argument.text)) with
  | ok p => rfl
  | error fault => rfl

theorem takeAll_of_speaks (speaks : command.Speaks act) :
    takeAll (ofCommand base command) ⟨word, first :: rest, []⟩ =
      match Phrase.parse (" ".intercalate ((first :: rest).map Argument.text)) with
      | .ok p => .ok (.act (act p))
      | .error fault => .error (.arguments (.phrase fault)) := by
  cases speaks with
  | log | launch =>
      rw [takeAll_eq, ofCommand, StateT.run_bind, run_joined]
      cases Phrase.parse (" ".intercalate ((first :: rest).map Argument.text)) with
      | ok p => rfl
      | error fault => rfl
  | abort =>
      rw [takeAll_eq, ofCommand, StateT.run_bind, run_joined?]
      cases Phrase.parse (" ".intercalate ((first :: rest).map Argument.text)) with
      | ok p => rfl
      | error fault => rfl

theorem arguments_ofBare (word : String) (pieces : List (List Char × List Char)) :
    Arguments.ofWords word true (pieces.map fun piece => ofBare piece.2) =
      ⟨word, arguments pieces, []⟩ := by
  have positional : (pieces.map fun piece => ofBare piece.2).filterMap (Arguments.positional? true) =
      arguments pieces := by
    rw [List.filterMap_map, arguments, ← List.filterMap_eq_map]
    exact List.filterMap_congr fun piece _ => Word.positional?_ofBare piece.2
  rw [Arguments.ofWords, positional]
  rfl

theorem ofWords_of_speaks (speaks : command.Speaks act) (some : pieces ≠ []) :
    ofWords base command.word (pieces.map fun piece => ofBare piece.2) =
      match Phrase.parse (freeText pieces) with
      | .ok p => .ok (.act (act p))
      | .error fault => .error (.arguments (.phrase fault)) := by
  have plain : ∀ w ∈ pieces.map fun piece => ofBare piece.2, w ≠ .opening ∧ w ≠ .closing := by
    intro w member
    obtain ⟨piece, -, rfl⟩ := List.mem_map.1 member
    exact Word.ofBare_ne_brace piece.2
  have closed : .opening ∉ pieces.map fun piece => ofBare piece.2 :=
    fun opening => (plain _ opening).1 rfl
  have unbraced : ¬ (pieces.map fun piece => ofBare piece.2).any
      fun w => w = .opening || w = .closing := by
    rw [List.any_eq_true]
    rintro ⟨w, member, brace⟩
    simp [plain w member] at brace
  obtain ⟨textual, flat⟩ := speaks.takesText
  obtain ⟨piece, rest, rfl⟩ := List.exists_cons_of_ne_nil some
  have text : freeText (piece :: rest) =
      " ".intercalate ((arguments (piece :: rest)).map Argument.text) := by
    rw [freeText, arguments, List.map_map]
    rfl
  unfold ofWords
  rw [command.ofWord?_word, splitOpening_of_notMem closed]
  dsimp only
  rw [Option.any_some, flat, if_neg (by simp), if_neg (by simp), if_neg unbraced, textual,
    arguments_ofBare, text]
  exact takeAll_of_speaks command.word _ _ speaks

/-- A line of a command and free text, with blanks before each word. -/
def speaking (command : Command) (pieces : List (List Char × List Char)) : List Char :=
  command.word.toList ++ spaced pieces

variable (texts : ∀ piece ∈ pieces, IsText piece.2)

include texts in
theorem spelled_of_isText :
    List.Forall₂ (fun piece word => Word.Spells piece.2 word) pieces
      (pieces.map fun piece => ofBare piece.2) := by
  rw [List.forall₂_map_right_iff, List.forall₂_same]
  exact fun piece member => (texts piece member).spells

end Line

namespace Script

open Line (speaking freeText)
open Word (IsGap IsText)

variable {command : Command} {act : Phrase → Action} {pieces : List (List Char × List Char)}

/--
Free text is kept word for word. A line of a command and free text assigns to nothing and names no
argument; its arguments are the words as they are written. It can be read if and only if these, with single
spaces between them, are a phrase, and then it does what its command does with this phrase, wherever it
stands.
-/
theorem acts_freeText (base : Policy) (speaks : command.Speaks act) (some : pieces ≠ [])
    (gaps : ∀ piece ∈ pieces, IsGap piece.1) (texts : ∀ piece ∈ pieces, IsText piece.2)
    (feed : '\n' ∉ speaking command pieces) :
    Line.assignment? (speaking command pieces) = none ∧
      (∃ words, Word.ofLine (speaking command pieces) = .ok (.bare command.word :: words) ∧
        Arguments.ofWords command.word command.takesText words =
          ⟨command.word, Line.arguments pieces, []⟩) ∧
      ((∃ program, Program.parse (String.ofList (speaking command pieces)) base = .ok program) ↔
        ∃ p, Phrase.parse (freeText pieces) = .ok p) ∧
      (∀ p, Phrase.parse (freeText pieces) = .ok p → Acts base (speaking command pieces) (act p)) ∧
      ∀ fault, Phrase.parse (freeText pieces) = .error fault → Refused base (speaking command pieces) := by
  have spelled := Line.spelled_of_isText texts
  have words : Word.ofLine (speaking command pieces) = _ := Word.ofLine_command command gaps spelled
  have trimmed : Text.trim (speaking command pieces) = _ := Word.trim_command command spelled
  have counts := not_isRemark_of_ofLine trimmed words
  have content : (Line.read base (speaking command pieces)).content = _ :=
    (Line.content_of_command words).trans (Line.ofWords_of_speaks speaks some)
  have acts (p : Phrase) (parsed : Phrase.parse (freeText pieces) = .ok p) :
      Acts base (speaking command pieces) (act p) := by
    rw [parsed] at content
    exact acts_of_read trimmed feed counts content
  have refused (fault : Phrase.Fault) (failed : Phrase.parse (freeText pieces) = .error fault) :
      Refused base (speaking command pieces) := by
    rw [failed] at content
    exact refused_of_read trimmed counts content
  refine ⟨Line.assignment?_of_command words, ⟨_, words, ?_⟩, ⟨?_, ?_⟩, acts, refused⟩
  · rw [speaks.takesText.1]
    exact Line.arguments_ofBare command.word pieces
  · rintro ⟨program, parsed⟩
    cases text : Phrase.parse (freeText pieces) with
    | ok p => exact ⟨p, rfl⟩
    | error fault => exact absurd parsed ((refused fault text).alone trimmed feed counts program)
  · rintro ⟨p, parsed⟩
    exact ⟨_, (acts p parsed).alone⟩

theorem acts_freeText_marks :
    let pieces := [(" ".toList, "=".toList), ("\t ".toList, "key=value".toList), (" ".toList, "a==b".toList),
      (" ".toList, "$\x7b x \x7d=1".toList), (" ".toList, "log".toList), (" ".toList, "3".toList)]
    Command.Speaks .log .log ∧ pieces ≠ [] ∧ (∀ piece ∈ pieces, IsGap piece.1) ∧
      (∀ piece ∈ pieces, IsText piece.2) ∧ '\n' ∉ speaking .log pieces ∧
      Program.parse "log =\t key=value a==b $\x7b x \x7d=1 log 3" =
        .ok { instructions := [.act ⟨0, 1⟩ (.log ⟨[.literal "= key=value a==b ", .reference "x",
          .literal "=1 log 3"]⟩)], size := 1 } := by
  intro pieces
  have nonempty : pieces ≠ [] := List.cons_ne_nil _ _
  have gaps : ∀ piece ∈ pieces, IsGap piece.1 := by
    have all : ∀ piece ∈ pieces, piece.1 ≠ [] ∧ piece.1.all Text.isBlank := by decide
    exact fun piece member => ⟨(all piece member).1, List.all_eq_true.1 (all piece member).2⟩
  have texts : ∀ piece ∈ pieces, IsText piece.2 := by
    have hole : Word.Free ('$' :: '\x7b' :: " x ".toList ++ '\x7d' :: "=1".toList) :=
      .placeholder (by decide) (Word.free_of_all (by decide))
    have free : ∀ piece ∈ pieces, Word.Free piece.2 := by
      simp only [pieces, List.forall_mem_cons, List.not_mem_nil, false_implies, implies_true, and_true]
      exact ⟨Word.free_of_all (by decide), Word.free_of_all (by decide),
        Word.free_of_all (by decide), hole, Word.free_of_all (by decide),
        Word.free_of_all (by decide)⟩
    have all : ∀ piece ∈ pieces, piece.2.head? ≠ some '#' ∧ piece.2 ≠ [] := by decide
    exact fun piece member => ⟨free piece member, (all piece member).1, (all piece member).2⟩
  have feed : '\n' ∉ speaking .log pieces := by decide
  have parsed : Phrase.parse (freeText pieces) =
      .ok ⟨[.literal "= key=value a==b ", .reference "x", .literal "=1 log 3"]⟩ :=
    Except.toOption_eq_some_iff.1 (by decide +kernel)
  obtain ⟨-, -, -, acts, -⟩ := acts_freeText .standard .log nonempty gaps texts feed
  exact ⟨.log, nonempty, gaps, texts, feed, (acts _ parsed).alone⟩

end Script

end ScreenScript
