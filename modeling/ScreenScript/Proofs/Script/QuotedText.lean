import ScreenScript.Proofs.Script.Assignments
import ScreenScript.Proofs.Script.Sentences
import ScreenScript.Proofs.Script.Words
import ScreenScript.Proofs.Text.Quoted

namespace ScreenScript

/-! ## Escapes -/

/-- The escapes that commands and expressions read in the same way. -/
def sharedEscapes : List Char :=
  ['n', 't', '"', '\\']

theorem escapes_of_mem {c : Char} (h : c ∈ sharedEscapes) :
    Word.escapes c = Expr.Token.escapes c := by
  simp only [sharedEscapes, List.mem_cons, List.not_mem_nil, or_false] at h
  rcases h with rfl | rfl | rfl | rfl
  all_goals rfl

theorem escapes_of_notMem {c : Char} (h : c ∉ sharedEscapes) :
    Word.escapes c = '\\' :: Expr.Token.escapes c := by
  simp only [sharedEscapes, List.mem_cons, List.not_mem_nil, or_false, not_or] at h
  obtain ⟨notFeed, notTab, notQuote, notBackslash⟩ := h
  rw [Word.escapes.eq_5 c notFeed notTab notQuote notBackslash,
    Expr.Token.escapes.eq_3 c notFeed notTab]

theorem count_flatMap_escapes (cs : List Char) :
    (cs.flatMap Word.escapes).count '\\' =
      (cs.flatMap Expr.Token.escapes).count '\\' + cs.countP (· ∉ sharedEscapes) := by
  induction cs with
  | nil => rfl
  | cons c cs ih =>
      rw [List.flatMap_cons, List.count_append, List.flatMap_cons, List.count_append, ih]
      by_cases h : c ∈ sharedEscapes
      · rw [escapes_of_mem h, List.countP_cons_of_neg (by simpa using h)]
        omega
      · rw [escapes_of_notMem h, List.count_cons_self, List.countP_cons_of_pos (by simpa using h)]
        omega

theorem forall_escaped_append_quote (body : List Char) :
    (∀ c ∈ Text.escaped (body ++ ['"']), c ∈ sharedEscapes) ↔
      ∀ c ∈ Text.escaped body, c ∈ sharedEscapes := by
  fun_induction Text.escaped body with
  | case1 => simp [Text.escaped]
  | case2 cs => simp [Text.escaped]
  | case3 => simp [Text.escaped, sharedEscapes]
  | case4 c cs ih =>
      rw [List.cons_append, List.cons_append, Text.escaped, List.forall_mem_cons, List.forall_mem_cons, ih]
  | case5 c cs notQuote notLast notEscape ih =>
      have plain : c ≠ '\\' := by
        rintro rfl
        cases cs with
        | nil => exact notLast rfl rfl
        | cons d cs => exact notEscape d cs rfl rfl
      rw [List.cons_append, Text.escaped.eq_5 c _ notQuote (fun h => absurd h plain)
        fun _ _ h => absurd h plain, ih]

theorem count_backslash {cs content content' rest rest' : List Char}
    (h : Text.readQuoted Word.escapes cs = some (content, rest))
    (h' : Text.readQuoted Expr.Token.escapes cs = some (content', rest')) :
    content.count '\\' = content'.count '\\' + (Text.escaped cs).countP (· ∉ sharedEscapes) := by
  have whole := Text.count_readQuoted '\\' h h'
  rw [count_flatMap_escapes] at whole
  omega

/-! ## Characters of phrases -/

namespace Phrase

theorem count_literalSegment (x : Char) (cs : List Char) :
    (String.join ((literalSegment cs).map Segment.written)).toList.count x = cs.count x := by
  unfold literalSegment
  split
  · rename_i empty
    rw [List.isEmpty_iff.1 empty]
    rfl
  · simp [Segment.written]

theorem append_of_placeholder? {cs content rest : List Char}
    (h : placeholder? cs = some (content, rest)) : content ++ '\x7d' :: rest = cs := by
  unfold placeholder? at h
  split at h
  · rename_i after found
    cases h
    have whole := List.takeWhile_append_dropWhile (p := (!isBrace ·)) (l := cs)
    rwa [found] at whole
  · cases h

theorem count_readSegments {raw : String} {run cs : List Char} {segments : List Segment} {x : Char}
    (plain : Text.isBlank x = false) (h : readSegments raw run cs = .ok segments) :
    (String.join (segments.map Segment.written)).toList.count x = run.count x + cs.count x := by
  fun_induction readSegments raw run cs generalizing segments with
  | case1 run =>
      cases h
      rw [count_literalSegment, List.count_reverse]
      rfl
  | case2 => cases h
  | case3 run cs content rest found name isName =>
      rename_i ih
      obtain ⟨later, read, h⟩ := Except.bind_eq_ok_iff.1 h
      cases h
      have inner := ih read
      have before := count_literalSegment x run.reverse
      rw [← append_of_placeholder? found]
      have opening : "$\x7b".toList = ['$', '\x7b'] := rfl
      have closing : "\x7d".toList = ['\x7d'] := rfl
      simp only [List.map_append, List.map_cons, String.join_append, String.join_cons,
        String.toList_append, List.count_append, List.count_cons, List.count_nil, before,
        List.count_reverse, inner, Segment.written, name, String.toList_ofList,
        Text.count_trim plain, opening, closing]
      omega
  | case4 => cases h
  | case5 run c cs _ ih =>
      rw [ih h]
      simp only [List.count_cons]
      omega

theorem count_written_of_parse {raw : String} {p : Phrase} {x : Char}
    (plain : Text.isBlank x = false) (h : parse raw = .ok p) :
    p.written.toList.count x = raw.toList.count x := by
  obtain ⟨segments, read, h⟩ := Except.bind_eq_ok_iff.1 h
  cases h
  rw [written, count_readSegments plain read]
  exact Nat.zero_add _

end Phrase

theorem phrase_eq_iff {cs content content' rest rest' : List Char} {p q : Phrase}
    (h : Text.readQuoted Word.escapes cs = some (content, rest))
    (h' : Text.readQuoted Expr.Token.escapes cs = some (content', rest'))
    (typed : Phrase.parse (String.ofList content) = .ok p)
    (assigned : Phrase.parse (String.ofList content') = .ok q) :
    p = q ↔ ∀ c ∈ Text.escaped cs, c ∈ sharedEscapes := by
  constructor
  · rintro rfl
    have count := Phrase.count_written_of_parse (x := '\\') (by decide) typed
    have count' := Phrase.count_written_of_parse (x := '\\') (by decide) assigned
    have more := count_backslash h h'
    rw [String.toList_ofList] at count count'
    have none : (Text.escaped cs).countP (· ∉ sharedEscapes) = 0 := by omega
    intro c member
    simpa using List.countP_eq_zero.1 none c member
  · intro shared
    rw [Text.readQuoted_congr fun c member => escapes_of_mem (shared c member), h'] at h
    cases h
    rw [typed] at assigned
    exact Except.ok.inj assigned

/-! ## Quoted operands -/

namespace Expr

def isPhrase : Expr → Bool
  | phrase _ => true
  | _ => false

def Joins (stack : List Pending) : Prop :=
  ∃ p ∈ stack, p ≠ .bracket

theorem joins_complete {tightOnly : Bool} {e e' : Expr} {stack stack' : List Pending}
    (h : complete tightOnly e stack = (e', stack')) (joins : e.isPhrase = false ∨ Joins stack) :
    e'.isPhrase = false ∨ Joins stack' := by
  fun_induction complete tightOnly e stack with
  | case1 e stack ih => exact ih h (.inl rfl)
  | case2 e op left stack waits =>
      cases h
      exact joins
  | case3 e op left stack binds ih => exact ih h (.inl rfl)
  | case4 e stack notNegated notApplied =>
      cases h
      exact joins

theorem Joins.cons {stack : List Pending} (joins : Joins stack) (p : Pending) :
    Joins (p :: stack) := by
  obtain ⟨other, member, ne⟩ := joins
  exact ⟨other, List.mem_cons_of_mem _ member, ne⟩

theorem joins_applied (op : Operator) (left : Expr) (stack : List Pending) :
    Joins (.applied op left :: stack) := by
  refine ⟨_, List.mem_cons_self, ?_⟩
  intro same
  cases same

theorem bracket_of_complete {e e' : Expr} {stack stack' : List Pending} {p : Pending}
    (h : complete false e stack = (e', p :: stack')) : p = .bracket := by
  fun_induction complete false e stack with
  | case1 e stack ih => exact ih h
  | case2 e op left stack waits => simp at waits
  | case3 e op left stack binds ih => exact ih h
  | case4 e stack notNegated notApplied =>
      cases h
      cases p with
      | negated => exact absurd rfl (notNegated _)
      | applied op left => exact absurd rfl (notApplied _ _ _)
      | bracket => rfl

mutual

theorem isPhrase_readOperand {ts : List Token} {stack : List Pending} {e : Expr}
    (h : readOperand ts stack = .ok e) (joins : Joins stack) : e.isPhrase = false := by
  match ts with
  | [] => cases h
  | .number n :: ts =>
      rw [readOperand] at h
      exact isPhrase_readOperator h (.inr joins)
  | .quoted content :: ts =>
      rw [readOperand] at h
      split at h
      · exact isPhrase_readOperator h (.inr joins)
      · cases h
  | .name name :: ts =>
      rw [readOperand] at h
      exact isPhrase_readOperator h (.inr joins)
  | .operator .subtract :: ts =>
      rw [readOperand] at h
      exact isPhrase_readOperand h (joins.cons _)
  | .open :: ts =>
      rw [readOperand] at h
      exact isPhrase_readOperand h (joins.cons _)
  | .operator .add :: ts | .operator .multiply :: ts | .operator .divide :: ts
  | .operator .remainder :: ts | .close :: ts => cases h

theorem isPhrase_readOperator {left : Expr} {ts : List Token} {stack : List Pending} {e : Expr}
    (h : readOperator left ts stack = .ok e) (joins : left.isPhrase = false ∨ Joins stack) :
    e.isPhrase = false := by
  rcases completed : complete false left stack with ⟨inner, stack'⟩
  have joined := joins_complete completed joins
  match ts, stack' with
  | [], [] =>
      simp only [readOperator, completed] at h
      cases h
      rcases joined with plain | ⟨p, member, -⟩
      · exact plain
      · cases member
  | [], p :: stack'' =>
      simp only [readOperator, completed] at h
      cases h
  | .operator op :: ts, _ =>
      rw [readOperator] at h
      exact isPhrase_readOperand h (joins_applied op _ _)
  | .close :: ts, p :: stack'' =>
      simp only [readOperator, completed] at h
      -- Closing takes a bracket off, so what else waits is still waiting.
      refine isPhrase_readOperator h (joined.imp_right ?_)
      rintro ⟨other, member, ne⟩
      rcases List.mem_cons.1 member with rfl | later
      · exact absurd (bracket_of_complete completed) ne
      · exact ⟨other, later, ne⟩
  | .close :: ts, [] =>
      simp only [readOperator, completed] at h
      cases h
  | .number n :: ts, waiting | .quoted content :: ts, waiting | .name name :: ts, waiting
  | .open :: ts, waiting =>
      cases waiting with
      | nil | cons p rest =>
          simp only [readOperator, completed] at h
          cases h

end

theorem Token.read_quoted (cs : List Char) :
    Token.read '"' cs = match Text.readQuoted Token.escapes cs with
      | some (content, rest) => .ok (.quoted (String.ofList content), rest)
      | none => .error .unterminatedString :=
  rfl

theorem parse_of_parse_quoted {cs : List Char} {p : Phrase} (h : parse ('"' :: cs) = .ok (.phrase p)) :
    ∃ content rest, Text.readQuoted Token.escapes cs = some (content, rest) ∧
      Phrase.parse (String.ofList content) = .ok p := by
  obtain ⟨ts, read, h⟩ := Except.bind_eq_ok_iff.1 h
  rw [tokens, if_neg (by decide), if_neg (by decide)] at read
  split at read
  · rename_i token rest found
    obtain ⟨later, -, read⟩ := Except.bind_eq_ok_iff.1 read
    cases read
    rw [Token.read_quoted] at found
    split at found
    · rename_i content rest quoted
      cases found
      refine ⟨content, _, quoted, ?_⟩
      rw [ofTokens, if_neg (by simp), readOperand] at h
      split at h
      · rename_i q parsed
        rw [parsed]
        cases later with
        | nil =>
            cases h
            rfl
        | cons t rest =>
            cases t with
            | operator op =>
                rw [readOperator] at h
                cases isPhrase_readOperand h (joins_applied op _ _)
            | number n | quoted content | name spelled | «open» | close => cases h
      · cases h
    · cases found
  · cases read

end Expr

/-! ## Quoted arguments -/

namespace Line

def quoted (body : List Char) : List Char :=
  '"' :: body ++ ['"']

theorem trim_quoted (body : List Char) : Text.trim (quoted body) = quoted body := by
  rw [quoted, List.cons_append, Text.trim_cons (by decide), Text.trimEnd_append_cons (by decide)]
  rfl

def typing (source : List Char) : List Char :=
  "type ".toList ++ source

theorem trim_typing (body : List Char) :
    Text.trim (typing (quoted body)) = typing (quoted body) := by
  have whole : typing (quoted body) = 't' :: ("ype \"".toList ++ body ++ ['"']) := rfl
  rw [whole, Text.trim_cons (by decide), Text.trimEnd_append_cons (by decide)]
  rfl

theorem run_phrase (what command : String) (first : Argument) (rest : List Argument)
    (named : List (String × String)) :
    (Arguments.phrase what).run ⟨command, first :: rest, named⟩ =
      match Phrase.parse first.text with
      | .ok p => .ok (p, ⟨command, rest, named⟩)
      | .error fault => .error (.phrase fault) := by
  have taken : (Arguments.phrase what).run ⟨command, first :: rest, named⟩ =
      (Arguments.orFault .phrase (Phrase.parse first.text)).run ⟨command, rest, named⟩ := rfl
  rw [taken]
  cases Phrase.parse first.text with
  | ok p => rfl
  | error fault => rfl

theorem parse_of_takeAll_type {base : Policy} {content : String} {positional : List Argument}
    {named : List (String × String)} {p : Phrase}
    (h : takeAll (ofCommand base .type) ⟨"type", ⟨content, true⟩ :: positional, named⟩ =
      .ok (.act (.type p))) : Phrase.parse content = .ok p := by
  obtain ⟨⟨line, left⟩, ran, h⟩ := Except.bind_eq_ok_iff.1 h
  rw [ofCommand, StateT.run_bind, run_phrase] at ran
  cases parsed : Phrase.parse content with
  | error fault =>
      rw [parsed] at ran
      cases ran
  | ok q =>
      rw [parsed] at ran
      cases ran
      obtain ⟨_, -, h⟩ := Except.bind_eq_ok_iff.1 h
      cases h
      rfl

theorem parse_of_ofWords_type {base : Policy} {content : String} {words : List Word} {p : Phrase}
    (h : ofWords base "type" (.quoted content :: words) = .ok (.act (.type p))) :
    Phrase.parse content = .ok p := by
  have known : Command.ofWord? "type" = some .type := by decide
  unfold ofWords at h
  rw [known] at h
  rcases split : splitOpening (.quoted content :: words) with ⟨before, opened⟩
  rw [split] at h
  dsimp only at h
  cases opened with
  | true => cases h
  | false =>
      -- Nothing opens a body, so the command takes all the words.
      have same : before = .quoted content :: words := by
        unfold splitOpening at split
        split at split
        · cases split
        · cases split
          rfl
      subst same
      split at h
      · cases h
      split at h
      · cases h
      split at h
      · cases h
      · exact parse_of_takeAll_type h

theorem assignment?_typing (body : List Char) : assignment? (typing (quoted body)) = none := by
  have whole : typing (quoted body) = 't' :: "ype".toList ++ ' ' :: '"' :: (body ++ ['"']) := rfl
  rw [assignment?, whole, splitAssignment_words (by decide) (by decide) (by decide) (by decide)
    (by decide)]
  rfl

theorem ofLine_typing (body : List Char) :
    Word.ofLine (typing (quoted body)) = (Word.ofLine (quoted body)).map (.bare "type" :: ·) := by
  have whole : typing (quoted body) = 't' :: "ype".toList ++ ' ' :: quoted body := rfl
  have bare : Word.ofBare ('t' :: "ype".toList) = .bare "type" := by decide
  rw [whole, Word.ofLine_bare (by decide) (by decide) (by simp; decide),
    Word.ofLine_of_isBlank (by decide), bare]

theorem parse_of_read_typing {base : Policy} {body : List Char} {p : Phrase}
    (h : (read base (Text.trim (typing (quoted body)))).content = .ok (.act (.type p))) :
    ∃ content rest, Text.readQuoted Word.escapes (body ++ ['"']) = some (content, rest) ∧
      Phrase.parse (String.ofList content) = .ok p := by
  rw [trim_typing, read, assignment?_typing, ofLine_typing, quoted, List.cons_append] at h
  cases later : Word.ofLine ('"' :: (body ++ ['"'])) with
  | error fault =>
      rw [later] at h
      cases h
  | ok found =>
      obtain ⟨content, rest, words', quoted, rfl⟩ := Word.ofLine_quoted later
      rw [later] at h
      exact ⟨content, rest, quoted, parse_of_ofWords_type h⟩

theorem parse_of_read_assigning {base : Policy} {name body : List Char} {p : Phrase}
    (named : isNameChars name) (free : Command.isReserved (String.ofList name) = false)
    (h : (read base (Text.trim (assigning name (quoted body)))).content =
      .ok (.act (.assign (String.ofList name) (.phrase p)))) :
    ∃ content rest, Text.readQuoted Expr.Token.escapes (body ++ ['"']) = some (content, rest) ∧
      Phrase.parse (String.ofList content) = .ok p := by
  rw [read, assignment?_assigning named free, trim_quoted] at h
  obtain ⟨e, parsed, h⟩ := Except.map_eq_ok_iff.1 h
  cases h
  exact Expr.parse_of_parse_quoted (Except.mapError_eq_ok_iff.1 parsed)

end Line

namespace Program

theorem content_of_ofLines {base : Policy} {cs : List Char} {p : Program} {place : Place}
    {action : Action} (h : ofLines base [cs] = .ok p) (only : p.instructions = [.act place action]) :
    (Line.read base (Text.trim cs)).content = .ok (.act action) := by
  obtain ⟨s, stepped, finished⟩ := Except.bind_eq_ok_iff.1 h
  rw [Block.State.steps] at stepped
  -- A remark adds no instruction, and only an action adds this one.
  by_cases remark : Script.isRemark cs
  · obtain ⟨s', after, untitled⟩ := Block.State.step_of_remark base {} 1 remark
    rw [after] at stepped
    cases stepped
    obtain ⟨current, levels, waiting, nextIndex, defaults, title, description⟩ := s
    cases untitled
    cases finished
    cases only
  · split at stepped
    · rename_i after found
      cases stepped
      obtain ⟨l, read, taken⟩ := (Block.State.step_eq_ok_iff remark).1 found
      rw [read]
      cases l with
      | act action' =>
          cases taken
          cases finished
          cases only
          rfl
      | declare name value =>
          cases taken
          cases finished
          cases only
      | opens opening =>
          cases taken
          cases finished
      | closes | closesElse | opensElse => cases taken
    · cases stepped

def typed? (p : Program) : Option Phrase :=
  match p.instructions with
  | [.act _ (.type text)] => some text
  | _ => none

def assigned? (p : Program) : Option (String × Phrase) :=
  match p.instructions with
  | [.act _ (.assign name (.phrase text))] => some (name, text)
  | _ => none

theorem content_of_typed? {base : Policy} {cs : List Char} {text : Phrase}
    (h : (ofLines base [cs]).toOption.bind typed? = some text) :
    (Line.read base (Text.trim cs)).content = .ok (.act (.type text)) := by
  obtain ⟨p, read, typed⟩ := Option.bind_eq_some_iff.1 h
  unfold typed? at typed
  split at typed
  · rename_i only
    cases typed
    exact content_of_ofLines (Except.toOption_eq_some_iff.1 read) only
  · cases typed

theorem content_of_assigned? {base : Policy} {cs : List Char} {name : String} {text : Phrase}
    (h : (ofLines base [cs]).toOption.bind assigned? = some (name, text)) :
    (Line.read base (Text.trim cs)).content = .ok (.act (.assign name (.phrase text))) := by
  obtain ⟨p, read, assigned⟩ := Option.bind_eq_some_iff.1 h
  unfold assigned? at assigned
  split at assigned
  · rename_i only
    cases assigned
    exact content_of_ofLines (Except.toOption_eq_some_iff.1 read) only
  · cases assigned

/--
Text in quotes is typed as it is assigned if and only if no other characters than `n`, `t`, `"` and `\`
follow the backslashes in it.
-/
theorem typed_eq_assigned_iff {base : Policy} {name body : List Char} {typed assigned : Phrase}
    (named : isNameChars name) (free : Command.isReserved (String.ofList name) = false)
    (types : (ofLines base [Line.typing (Line.quoted body)]).toOption.bind typed? = some typed)
    (assigns : (ofLines base [Line.assigning name (Line.quoted body)]).toOption.bind assigned? =
      some (String.ofList name, assigned)) :
    typed = assigned ↔ ∀ c ∈ Text.escaped body, c ∈ sharedEscapes := by
  obtain ⟨content, rest, quoted, parsed⟩ := Line.parse_of_read_typing (content_of_typed? types)
  obtain ⟨content', rest', quoted', parsed'⟩ :=
    Line.parse_of_read_assigning named free (content_of_assigned? assigns)
  rw [phrase_eq_iff quoted quoted' parsed parsed', forall_escaped_append_quote]

theorem typed_eq_assigned_iff_quotes :
    let source := Line.quoted "\\\"$\x7bwho\x7d\\\"\\n".toList
    let text : Phrase := ⟨[.literal "\"", .reference "who", .literal "\"\n"]⟩
    (ofLines .standard [Line.typing source]).toOption.bind typed? = some text ∧
      (ofLines .standard [Line.assigning ['x'] source]).toOption.bind assigned? = some ("x", text) ∧
      ∀ c ∈ Text.escaped "\\\"$\x7bwho\x7d\\\"\\n".toList, c ∈ sharedEscapes := by
  intro source text
  have types : (ofLines .standard [Line.typing source]).toOption.bind typed? = some text := by
    decide +kernel
  have assigns : (ofLines .standard [Line.assigning ['x'] source]).toOption.bind assigned? =
      some ("x", text) := by
    decide +kernel
  exact ⟨types, assigns, (typed_eq_assigned_iff (by decide) (by decide) types assigns).1 rfl⟩

/-- An escape that commands keep and expressions drop. -/
theorem exists_typed_ne_assigned :
    ∃ typed assigned,
      (ofLines .standard [Line.typing (Line.quoted "a\\d".toList)]).toOption.bind typed? = some typed ∧
      (ofLines .standard [Line.assigning ['x'] (Line.quoted "a\\d".toList)]).toOption.bind assigned? =
        some ("x", assigned) ∧
      typed ≠ assigned :=
  ⟨⟨[.literal "a\\d"]⟩, ⟨[.literal "ad"]⟩, by decide +kernel, by decide +kernel, by decide⟩

end Program

end ScreenScript
