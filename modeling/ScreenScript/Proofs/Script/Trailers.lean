import ScreenScript.Proofs.Except
import ScreenScript.Proofs.Number.Digits
import ScreenScript.Proofs.Script.Assignments
import ScreenScript.Proofs.Script.Words
import ScreenScript.Proofs.Text.Quoted

namespace ScreenScript

namespace Text

inductive Trailer : List Char → Prop where
  | comment {blank : Char} (h : isBlank blank) (text : List Char) : Trailer (blank :: '#' :: text)
  | blank {blank : Char} {tail : List Char} (h : isBlank blank) (rest : Trailer tail) :
    Trailer (blank :: tail)

variable {cs tail : List Char}

theorem Trailer.exists_cons (h : Trailer tail) : ∃ c rest, tail = c :: rest ∧ isBlank c := by
  cases h with
  | comment h text => exact ⟨_, _, rfl, h⟩
  | blank h rest => exact ⟨_, _, rfl, h⟩

theorem Trailer.append {blanks : List Char} (h : Trailer tail) (blank : ∀ c ∈ blanks, isBlank c) :
    Trailer (blanks ++ tail) := by
  induction blanks with
  | nil => exact h
  | cons c rest ih =>
      exact .blank (blank c List.mem_cons_self) (ih fun d member => blank d (List.mem_cons_of_mem _ member))

theorem trailer_of_blanks {blanks : List Char} (blank : ∀ c ∈ blanks, isBlank c) (some : blanks ≠ [])
    (text : List Char) : Trailer (blanks ++ '#' :: text) := by
  obtain ⟨init, last, rfl⟩ := (List.eq_nil_or_concat blanks).resolve_left some
  rw [List.concat_eq_append, List.append_assoc, List.singleton_append]
  rw [List.concat_eq_append] at blank
  refine Trailer.append (.comment (blank last (by simp)) text) fun c member => ?_
  exact blank c (List.mem_append_left _ member)

theorem Trailer.trimEnd (h : Trailer tail) : Trailer (Text.trimEnd tail) := by
  have mark : isBlank '#' = false := by decide
  induction h with
  | @comment blank h text =>
      have kept : Text.trimEnd (blank :: '#' :: text) = blank :: '#' :: Text.trimEnd text :=
        trimEnd_append_cons mark [blank] text
      rw [kept]
      exact .comment h _
  | @blank blank tail h rest ih =>
      obtain ⟨c, more, first, -⟩ := ih.exists_cons
      rw [trimEnd_cons_of_isBlank h, if_neg (by rw [first]; exact List.cons_ne_nil _ _)]
      exact .blank h ih

theorem trim_append_trailer (some : trim cs ≠ []) (h : Trailer tail) :
    ∃ tail', Trailer tail' ∧ trim (cs ++ tail) = trim cs ++ tail' := by
  have start : trimStart cs ≠ [] := by
    intro none
    exact some (by rw [trim, none]; rfl)
  obtain ⟨blanks, blank, whole⟩ := exists_trimEnd_append (trimStart cs)
  obtain ⟨c, more, first, -⟩ := h.trimEnd.exists_cons
  have last : trimEnd tail ≠ [] := by
    rw [first]
    exact List.cons_ne_nil _ _
  refine ⟨blanks ++ trimEnd tail, h.trimEnd.append blank, ?_⟩
  rw [trim, trimStart_append start, trimEnd_append last, ← List.append_assoc, trim, ← whole]

theorem Trailer.mark_mem (h : Trailer tail) {isSep : Char → Bool}
    (blank : ∀ c, isBlank c → isSep c = false) (mark : isSep '#' = false) {before after : List Char}
    (cut : splitFirst isSep tail = some (before, after)) : '#' ∈ before := by
  induction h generalizing before with
  | @comment c h text =>
      rw [splitFirst, if_neg (by simp [blank c h]), splitFirst, if_neg (by simp [mark])] at cut
      obtain ⟨⟨first, rest⟩, found, eq⟩ := Option.map_eq_some_iff.1 cut
      cases eq
      obtain ⟨⟨first', rest'⟩, -, eq'⟩ := Option.map_eq_some_iff.1 found
      cases eq'
      simp
  | @blank c tail h rest ih =>
      rw [splitFirst, if_neg (by simp [blank c h])] at cut
      obtain ⟨⟨first, rest⟩, found, eq⟩ := Option.map_eq_some_iff.1 cut
      cases eq
      exact List.mem_cons_of_mem _ (ih found)

end Text

open Text (Trailer)

namespace Word

variable {cs tail : List Char}

theorem splitBare_trailer {word rest : List Char} (h : splitBare cs = .ok (word, rest))
    (trailer : Trailer tail) : splitBare (cs ++ tail) = .ok (word, rest ++ tail) := by
  fun_induction splitBare cs generalizing word rest with
  | case1 =>
      cases h
      refine splitBare_append rfl fun c first => ?_
      obtain ⟨d, more, rfl, blank⟩ := trailer.exists_cons
      cases first
      simp [endsBare, blank]
  | case2 => cases h
  | case3 cs close rest' found inner after split ih =>
      cases h
      obtain ⟨taken, dropped⟩ := Text.takeWhile_append_of_dropWhile found tail
      rw [List.cons_append, List.cons_append, splitBare]
      split
      · rename_i none
        cases dropped.symm.trans none
      · rename_i close' rest'' found'
        cases dropped.symm.trans found'
        rw [List.append_eq, ih split, taken]
  | case4 => cases h
  | case5 c cs notPlaceholder ends =>
      cases h
      rw [List.cons_append, splitBare.eq_3 c _ ?_, if_pos ends]
      rintro rest rfl eq
      cases ends
  | case6 c cs notPlaceholder plain inner after split ih =>
      cases h
      rw [List.cons_append, splitBare.eq_3 c _ ?_, if_neg plain, ih split]
      rintro rest rfl eq
      cases cs with
      | nil =>
          obtain ⟨d, more, rfl, blank⟩ := trailer.exists_cons
          cases eq
          cases blank
      | cons d cs =>
          cases eq
          exact notPlaceholder cs rfl rfl
  | case7 => cases h

theorem read_trailer {word : Word} {rest : List Char} {c : Char} (plain : Text.isBlank c = false)
    (h : read (c :: cs) = .ok (word, rest)) (trailer : Trailer tail) :
    read (c :: cs ++ tail) = .ok (word, rest ++ tail) := by
  obtain ⟨d, more, first, blank⟩ := trailer.exists_cons
  rw [List.cons_append]
  unfold read at h ⊢
  split at h
  · rename_i eq
    cases eq
    cases h
    rfl
  · rename_i eq
    cases eq
    cases h
    rfl
  · rename_i eq
    cases eq
    split at h
    · rename_i content rest' found
      cases h
      simp only [Text.readQuoted_append found tail]
    · cases h
  · rename_i notOpening notClosing notQuote
    split
    · rename_i eq
      exact absurd ((List.cons.inj eq).1 ▸ rfl) (notOpening cs)
    · rename_i eq
      exact absurd ((List.cons.inj eq).1 ▸ rfl) (notClosing cs)
    · rename_i eq
      exact absurd ((List.cons.inj eq).1 ▸ rfl) (notQuote cs)
    rw [← List.cons_append]
    split at h
    · cases h
    · rename_i inner after split
      rw [splitBare_trailer split trailer]
      simp only [List.cons_append]
      split at h
      · cases h
      · rename_i key named
        split at h
        · rename_i content rest' found
          cases h
          simp only [Text.readQuoted_append found tail]
        · cases h
    · rename_i inner notQuoted split
      cases h
      rw [splitBare_trailer split trailer]
      split
      · rename_i eq
        cases eq
      · rename_i word' quoted eq
        cases rest with
        | nil =>
            rw [first] at eq
            cases eq
            cases blank
        | cons e rest =>
            cases eq
            exact absurd rfl (notQuoted rest)
      · rename_i eq
        cases eq
        rfl

theorem ofLine_trailer {words : List Word} (h : ofLine cs = .ok words) (trailer : Trailer tail) :
    ofLine (cs ++ tail) = .ok words := by
  have alone : ofLine tail = .ok [] := by
    induction trailer with
    | @comment blank h text =>
        rw [ofLine_of_isBlank h, ofLine, dif_neg (by decide), if_pos rfl]
    | blank h rest ih => rw [ofLine_of_isBlank h, ih]
  fun_induction ofLine cs generalizing words with
  | case1 =>
      cases h
      exact alone
  | case2 c cs blank ih => rw [List.cons_append, ofLine_of_isBlank blank, ih h]
  | case3 cs plain =>
      cases h
      rw [List.cons_append, ofLine, dif_neg plain, if_pos rfl]
  | case4 c cs plain ne word rest found ih =>
      obtain ⟨later, read, eq⟩ := Except.bind_eq_ok_iff.1 h
      cases eq
      have plain := Bool.eq_false_iff.2 plain
      have first := read_trailer plain found trailer
      rw [List.cons_append] at first ⊢
      rw [ofLine_of_read plain ne first, ih read]
      rfl
  | case5 => cases h

end Word

namespace Expr

variable {cs tail : List Char}

namespace Token

theorem readReference_append {token : Token} {rest : List Char}
    (h : readReference cs = .ok (token, rest)) (more : List Char) :
    readReference (cs ++ more) = .ok (token, rest ++ more) := by
  unfold readReference at h
  split at h
  · rename_i inner
    split at h
    · rename_i close rest' found
      obtain ⟨taken, dropped⟩ := Text.takeWhile_append_of_dropWhile found more
      dsimp only at h
      split at h
      · rename_i named
        cases h
        simp only [List.cons_append, readReference, dropped, taken, named, if_true]
      · cases h
    · cases h
  · cases h

theorem readNumber_append {c : Char} {token : Token} {rest more : List Char}
    (h : readNumber c cs = .ok (token, rest)) (stop : Text.StopsAt isNumberChar more) :
    readNumber c (cs ++ more) = .ok (token, rest ++ more) := by
  obtain ⟨taken, dropped⟩ := Text.takeWhile_append_of_stopsAt stop cs
  unfold readNumber at h ⊢
  rw [taken, dropped]
  dsimp only at h ⊢
  split at h
  · cases h
    rfl
  · cases h

theorem stopsAt_trailer {p : Char → Bool} (h : ∀ c, p c → Text.isBlank c = false)
    (trailer : Trailer tail) : Text.StopsAt p tail := by
  intro c first
  obtain ⟨d, more, rfl, blank⟩ := trailer.exists_cons
  cases first
  refine Bool.eq_false_iff.2 fun inside => ?_
  rw [h _ inside] at blank
  cases blank

theorem not_isBlank_of_isNumberChar {c : Char} (h : isNumberChar c) : Text.isBlank c = false := by
  rcases Bool.or_eq_true_iff.1 h with digit | point
  · apply not_isBlank_of_isNameChar
    rw [isNameChar, Char.isAlphanum, digit, Bool.or_true, Bool.true_or]
  · rw [of_decide_eq_true point]
    decide

theorem read_trailer {token : Token} {rest : List Char} {c : Char} (h : read c cs = .ok (token, rest))
    (trailer : Trailer tail) : read c (cs ++ tail) = .ok (token, rest ++ tail) := by
  unfold read at h ⊢
  cases operator : Operator.ofChar? c with
  | some op =>
      rw [operator] at h
      cases h
      rfl
  | none =>
      rw [operator] at h
      dsimp only at h ⊢
      split at h
      · rw [if_pos ‹_›]
        cases h
        rfl
      rw [if_neg ‹_›]
      split at h
      · rw [if_pos ‹_›]
        cases h
        rfl
      rw [if_neg ‹_›]
      split at h
      · rw [if_pos ‹_›]
        split at h
        · rename_i found
          cases h
          rw [Text.readQuoted_append found tail]
        · cases h
      rw [if_neg ‹_›]
      split at h
      · rw [if_pos ‹_›]
        exact readReference_append h tail
      rw [if_neg ‹_›]
      split at h
      · rw [if_pos ‹_›]
        exact readNumber_append h (stopsAt_trailer (fun _ => not_isBlank_of_isNumberChar) trailer)
      rw [if_neg ‹_›]
      split at h
      · rw [if_pos ‹_›]
        obtain ⟨taken, dropped⟩ := Text.takeWhile_append_of_stopsAt
          (stopsAt_trailer (fun _ => not_isBlank_of_isNameChar) trailer) cs
        rw [taken, dropped]
        cases h
        rfl
      · cases h

end Token

theorem tokens_of_isBlank {c : Char} (h : Text.isBlank c) (cs : List Char) :
    tokens (c :: cs) = tokens cs := by
  rw [tokens, if_pos h]

theorem tokens_trailer {ts : List Token} (h : tokens cs = .ok ts) (trailer : Trailer tail) :
    tokens (cs ++ tail) = .ok ts := by
  have alone : tokens tail = .ok [] := by
    induction trailer with
    | comment h text => rw [tokens_of_isBlank h, tokens, if_neg (by decide), if_pos rfl]
    | blank h rest ih => rw [tokens_of_isBlank h, ih]
  fun_induction tokens cs generalizing ts with
  | case1 =>
      cases h
      exact alone
  | case2 c cs blank ih => rw [List.cons_append, tokens_of_isBlank blank, ih h]
  | case3 cs plain =>
      cases h
      rw [List.cons_append, tokens, if_neg plain, if_pos rfl]
  | case4 c cs plain ne token rest found ih =>
      obtain ⟨later, read, eq⟩ := Except.bind_eq_ok_iff.1 h
      cases eq
      have first := Token.read_trailer found trailer
      rw [List.cons_append, tokens, if_neg plain, if_neg ne]
      split
      · rename_i found'
        cases first.symm.trans found'
        rw [ih read]
        rfl
      · rename_i found'
        cases first.symm.trans found'
  | case5 => cases h

theorem parse_trailer {e : Expr} (h : parse cs = .ok e) (trailer : Trailer tail) :
    parse (cs ++ tail) = .ok e := by
  obtain ⟨ts, read, parsed⟩ := Except.bind_eq_ok_iff.1 h
  rw [parse, tokens_trailer read trailer]
  exact parsed

end Expr

namespace Line

variable {base : Policy} {cs tail : List Char}

theorem ne_sign_of_isBlank {c : Char} (h : Text.isBlank c) : (decide (c = '=')) = false := by
  rw [decide_eq_false_iff_not]
  rintro rfl
  cases h

theorem head?_append_trailer (after : List Char) (trailer : Trailer tail) :
    decide ((after ++ tail).head? ≠ some '=') = decide (after.head? ≠ some '=') := by
  cases after with
  | nil =>
      obtain ⟨c, more, rfl, blank⟩ := trailer.exists_cons
      have noSign := of_decide_eq_false (ne_sign_of_isBlank blank)
      simp [noSign]
  | cons d after => rfl

theorem exists_splitAssignment_trailer {name : String} {source : List Char}
    (h : splitAssignment cs = some (name, source)) (trailer : Trailer tail) :
    ∃ source', splitAssignment (cs ++ tail) = some (name, source') ∧
      (source ≠ [] → ∃ tail', Trailer tail' ∧ source' = source ++ tail') := by
  cases cut : Text.splitFirst (· = '=') cs with
  | none =>
      rw [splitAssignment, cut] at h
      cases h
  | some pieces =>
      obtain ⟨before, after⟩ := pieces
      rw [splitAssignment_of_cut cut] at h
      split at h
      · rename_i named
        cases h
        refine ⟨_, ?_, fun nonempty => Text.trim_append_trailer nonempty trailer⟩
        rw [splitAssignment_of_cut (Text.splitFirst_append_of_some cut tail),
          head?_append_trailer after trailer, if_pos named]
      · cases h

theorem splitAssignment_trailer_eq_none (h : splitAssignment cs = none) (trailer : Trailer tail) :
    splitAssignment (cs ++ tail) = none := by
  cases cut : Text.splitFirst (· = '=') cs with
  | some pieces =>
      obtain ⟨before, after⟩ := pieces
      rw [splitAssignment_of_cut cut] at h
      rw [splitAssignment_of_cut (Text.splitFirst_append_of_some cut tail),
        head?_append_trailer after trailer]
      split at h
      · cases h
      · rename_i unnamed
        rw [if_neg unnamed]
  | none =>
      have whole := Text.splitFirst_append (Text.forall_of_splitFirst_eq_none cut) tail
      cases later : Text.splitFirst (· = '=') tail with
      | none =>
          rw [later] at whole
          rw [splitAssignment, whole]
          rfl
      | some pieces =>
          obtain ⟨more, after⟩ := pieces
          rw [later] at whole
          -- The sign stands in the comment, and so does the mark before it, which is in no name.
          have mark := trailer.mark_mem (fun _ => ne_sign_of_isBlank) (by decide) later
          have inside : '#' ∈ Text.trim (cs ++ more) := by
            rw [← List.count_pos_iff, Text.count_trim (by decide), List.count_pos_iff]
            exact List.mem_append_right _ mark
          have unnamed : isNameChars (Text.trim (cs ++ more)) = false := by
            refine Bool.eq_false_iff.2 fun named => ?_
            cases isNameChar_of_mem named inside
          rw [splitAssignment_of_cut whole, unnamed, Bool.false_and, if_neg Bool.false_ne_true]

theorem ne_nil_of_parse {source : List Char} {e : Expr} (h : Expr.parse source = .ok e) :
    source ≠ [] := by
  rintro rfl
  rw [Expr.parse, Expr.tokens] at h
  cases h

theorem readDeclaration_trailer {l : Line} (h : readDeclaration cs = .ok l) (trailer : Trailer tail) :
    readDeclaration (cs ++ tail) = .ok l := by
  unfold readDeclaration at h
  cases cut : splitAssignment (Text.trimStart cs) with
  | none =>
      rw [cut] at h
      cases h
  | some assignment =>
      obtain ⟨name, source⟩ := assignment
      rw [cut] at h
      dsimp only at h
      split at h
      · cases h
      rename_i free
      obtain ⟨e, parsed, h⟩ := Except.bind_eq_ok_iff.1 h
      have parsed := Except.mapError_eq_ok_iff.1 parsed
      have inside : Text.trimStart cs ≠ [] := by
        intro none
        rw [none] at cut
        cases cut
      obtain ⟨source', cut', longer⟩ := exists_splitAssignment_trailer cut trailer
      obtain ⟨tail', trailer', rfl⟩ := longer (ne_nil_of_parse parsed)
      unfold readDeclaration
      rw [Text.trimStart_append inside, cut']
      dsimp only
      rw [if_neg free, Expr.parse_trailer parsed trailer']
      exact h

theorem assignment?_trailer_eq_none (h : assignment? cs = none) (trailer : Trailer tail) :
    assignment? (cs ++ tail) = none := by
  cases cut : splitAssignment cs with
  | none => rw [assignment?, splitAssignment_trailer_eq_none cut trailer, Option.filter_none]
  | some assignment =>
      obtain ⟨name, source⟩ := assignment
      obtain ⟨source', cut', -⟩ := exists_splitAssignment_trailer cut trailer
      rw [assignment?, cut, Option.filter_eq_none_iff] at h
      rw [assignment?, cut', Option.filter_eq_none_iff]
      rintro _ ⟨⟩
      exact h _ rfl

theorem read_trailer {l : Line} (h : (read base cs).content = .ok l) (trailer : Trailer tail) :
    (read base (cs ++ tail)).content = .ok l := by
  unfold read at h ⊢
  cases assigned : assignment? cs with
  | some assignment =>
      obtain ⟨name, source⟩ := assignment
      rw [assigned] at h
      obtain ⟨e, parsed, eq⟩ := Except.map_eq_ok_iff.1 h
      have parsed := Except.mapError_eq_ok_iff.1 parsed
      obtain ⟨cut, free⟩ := Option.filter_eq_some_iff.1 assigned
      obtain ⟨source', cut', longer⟩ := exists_splitAssignment_trailer cut trailer
      obtain ⟨tail', trailer', rfl⟩ := longer (ne_nil_of_parse parsed)
      have assigned' : assignment? (cs ++ tail) = some (name, source ++ tail') :=
        Option.filter_eq_some_iff.2 ⟨cut', free⟩
      rw [assigned']
      dsimp only
      rw [Expr.parse_trailer parsed trailer', ← eq]
      rfl
  | none =>
      rw [assigned] at h
      rw [assignment?_trailer_eq_none assigned trailer]
      dsimp only at h ⊢
      cases words : Word.ofLine cs with
      | error fault =>
          rw [words] at h
          cases h
      | ok ws =>
          rw [words] at h
          rw [Word.ofLine_trailer words trailer]
          match ws with
          | [] | .closing :: _ | .opening :: _ | .named _ _ :: _ | .quoted _ :: _ => exact h
          | .bare first :: rest =>
              dsimp only at h ⊢
              split at h
              · rw [if_pos ‹_›]
                exact h
              rw [if_neg ‹_›]
              split at h
              · rw [if_pos ‹_›]
                have long : Command.declare.length ≤ cs.length := by
                  by_contra short
                  rw [List.drop_eq_nil_of_le (Nat.le_of_not_le short)] at h
                  cases h
                rw [List.drop_append_of_le_length long]
                exact readDeclaration_trailer h trailer
              · rw [if_neg ‹_›]
                exact h

end Line

end ScreenScript
