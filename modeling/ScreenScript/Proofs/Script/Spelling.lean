import ScreenScript.Proofs.Script.Assignments
import ScreenScript.Proofs.Text.Quoted

namespace ScreenScript

namespace Text

variable {escapes : Escapes} {cs content rest : List Char}

theorem exists_quoted_append (h : readQuoted escapes cs = some (content, rest)) :
    ∃ body, cs = body ++ rest ∧ readQuoted escapes body = some (content, []) := by
  fun_induction readQuoted escapes cs generalizing content rest with
  | case1 => cases h
  | case2 cs =>
      cases h
      exact ⟨['"'], rfl, rfl⟩
  | case3 => cases h
  | case4 c cs ih =>
      obtain ⟨⟨inner, after⟩, found, eq⟩ := Option.map_eq_some_iff.1 h
      cases eq
      obtain ⟨body, rfl, read⟩ := ih found
      exact ⟨'\\' :: c :: body, rfl, by rw [readQuoted, read]; rfl⟩
  | case5 c cs notQuote notLast notEscape ih =>
      obtain ⟨⟨inner, after⟩, found, eq⟩ := Option.map_eq_some_iff.1 h
      cases eq
      obtain ⟨body, rfl, read⟩ := ih found
      have other : c ≠ '\\' := by
        rintro rfl
        cases whole : body ++ rest with
        | nil => exact notLast rfl whole
        | cons d more => exact notEscape d more rfl whole
      refine ⟨c :: body, rfl, ?_⟩
      rw [readQuoted.eq_5 escapes c body notQuote (fun same => absurd same other)
        (fun _ _ same => absurd same other), read]
      rfl

theorem exists_append_quote (h : readQuoted escapes cs = some (content, [])) :
    ∃ before, cs = before ++ ['"'] := by
  fun_induction readQuoted escapes cs generalizing content with
  | case1 => cases h
  | case2 cs =>
      cases h
      exact ⟨[], rfl⟩
  | case3 => cases h
  | case4 c cs ih =>
      obtain ⟨⟨inner, after⟩, found, eq⟩ := Option.map_eq_some_iff.1 h
      cases eq
      obtain ⟨before, rfl⟩ := ih found
      exact ⟨'\\' :: c :: before, rfl⟩
  | case5 c cs _ _ _ ih =>
      obtain ⟨⟨inner, after⟩, found, eq⟩ := Option.map_eq_some_iff.1 h
      cases eq
      obtain ⟨before, rfl⟩ := ih found
      exact ⟨c :: before, rfl⟩

end Text

namespace Word

inductive Free : List Char → Prop where
  | nil : Free []
  | plain {c : Char} {cs : List Char} (keeps : endsBare c = false) (rest : Free cs) : Free (c :: cs)
  | placeholder {content cs : List Char} (inside : '\x7d' ∉ content) (rest : Free cs) :
    Free ('$' :: '\x7b' :: content ++ '\x7d' :: cs)

variable {word cs rest : List Char}

theorem Free.head?_notMem (h : Free word) {c : Char} (first : word.head? = some c) :
    c ∉ ['\x7b', '\x7d', '"'] := by
  cases h with
  | nil => cases first
  | plain keeps =>
      cases first
      simp only [endsBare, Bool.or_eq_false_iff, decide_eq_false_iff_not] at keeps
      simp [keeps]
  | placeholder =>
      cases first
      decide

theorem Free.not_isBlank_of_head? (free : Free word) {c : Char} (first : word.head? = some c) :
    Text.isBlank c = false := by
  cases free with
  | nil => cases first
  | plain keeps =>
      cases first
      simp only [endsBare, Bool.or_eq_false_iff] at keeps
      exact keeps.1.1.1
  | placeholder =>
      cases first
      decide

theorem Free.exists_last (free : Free word) (some : word ≠ []) :
    ∃ before c, word = before ++ [c] ∧ Text.isBlank c = false := by
  induction free with
  | nil => exact absurd rfl some
  | @plain c cs keeps free ih =>
      by_cases rest : cs = []
      · subst rest
        exact ⟨[], c, rfl, (Free.plain keeps .nil).not_isBlank_of_head? rfl⟩
      · obtain ⟨before, d, rfl, plain⟩ := ih rest
        exact ⟨c :: before, d, rfl, plain⟩
  | @placeholder content cs inside free ih =>
      by_cases rest : cs = []
      · subst rest
        exact ⟨'$' :: '\x7b' :: content, '\x7d', rfl, by decide⟩
      · obtain ⟨before, d, rfl, plain⟩ := ih rest
        exact ⟨'$' :: '\x7b' :: content ++ '\x7d' :: before, d, by simp, plain⟩

theorem splitBare_of_free (h : Free word) (stop : ∀ c, rest.head? = some c → endsBare c ∧ c ≠ '\x7b') :
    splitBare (word ++ rest) = .ok (word, rest) := by
  induction h with
  | nil => exact splitBare_append rfl fun c first => (stop c first).1
  | @plain c cs keeps free ih =>
      -- A dollar sign can end a word, unless a brace behind it makes it the start of a placeholder.
      have single : ∀ more, c = '$' → cs ++ rest = '\x7b' :: more → False := by
        intro more _ opening
        cases cs with
        | nil => exact (stop '\x7b' (by rw [← List.nil_append rest, opening]; rfl)).2 rfl
        | cons d cs =>
            cases (List.cons.inj opening).1
            exact free.head?_notMem rfl (by decide)
      rw [List.cons_append, splitBare.eq_3 c _ single, if_neg (by simp [keeps]), ih]
  | @placeholder content cs inside free ih =>
      have plain : ∀ c ∈ content, decide (c ≠ '\x7d') = true := by
        intro c member
        rw [decide_eq_true_eq]
        rintro rfl
        exact inside member
      have cut : (content ++ '\x7d' :: (cs ++ rest)).dropWhile (· ≠ '\x7d') = '\x7d' :: (cs ++ rest) := by
        rw [List.dropWhile_append_of_pos plain, List.dropWhile_cons_of_neg (by simp)]
      have kept : (content ++ '\x7d' :: (cs ++ rest)).takeWhile (· ≠ '\x7d') = content := by
        rw [List.takeWhile_append_of_pos plain, List.takeWhile_cons_of_neg (by simp), List.append_nil]
      have whole : '$' :: '\x7b' :: content ++ '\x7d' :: cs ++ rest =
          '$' :: '\x7b' :: (content ++ '\x7d' :: (cs ++ rest)) := by simp
      rw [whole, splitBare]
      split
      · rename_i none
        rw [cut] at none
        cases none
      · rename_i close tail found
        rw [cut] at found
        cases found
        rw [ih, kept]

theorem free_of_splitBare (h : splitBare cs = .ok (word, rest)) : Free word := by
  fun_induction splitBare cs generalizing word rest with
  | case1 =>
      cases h
      exact .nil
  | case2 => cases h
  | case3 cs close tail found inner after split ih =>
      cases h
      have closing := List.head?_dropWhile_not (· ≠ '\x7d') cs
      rw [found] at closing
      obtain rfl : close = '\x7d' := by simpa using closing
      refine .placeholder (fun inside => ?_) (ih split)
      simpa using List.mem_takeWhile_imp inside
  | case4 => cases h
  | case5 =>
      cases h
      exact .nil
  | case6 c cs _ keeps inner after split ih =>
      cases h
      exact .plain (Bool.eq_false_iff.2 keeps) (ih split)
  | case7 => cases h

structure Spells (text : List Char) (word : Word) : Prop where
  start : ∃ c cs, text = c :: cs ∧ Text.isBlank c = false ∧ c ≠ '#'
  stop : ∃ before c, text = before ++ [c] ∧ Text.isBlank c = false
  read (rest : List Char) :
    (∀ c, rest.head? = some c → Text.isBlank c) → Word.read (text ++ rest) = .ok (word, rest)

theorem spells_of_free {c : Char} (free : Free (c :: word)) (plain : Text.isBlank c = false)
    (ne : c ≠ '#') : Spells (c :: word) (ofBare (c :: word)) where
  start := ⟨c, word, rfl, plain, ne⟩
  stop := free.exists_last (List.cons_ne_nil _ _)
  read rest stop := by
    have ends : ∀ d, rest.head? = some d → endsBare d ∧ d ≠ '\x7b' := by
      intro d first
      refine ⟨by simp [endsBare, stop d first], ?_⟩
      rintro rfl
      cases stop _ first
    refine read_of_splitBare (free.head?_notMem rfl) (splitBare_of_free free ends) ?_
    intro quote
    cases stop _ quote

theorem spells_opening : Spells ['\x7b'] .opening where
  start := ⟨'\x7b', [], rfl, by decide, by decide⟩
  stop := ⟨[], '\x7b', rfl, by decide⟩
  read _ _ := rfl

theorem spells_closing : Spells ['\x7d'] .closing where
  start := ⟨'\x7d', [], rfl, by decide, by decide⟩
  stop := ⟨[], '\x7d', rfl, by decide⟩
  read _ _ := rfl

theorem spells_quoted {body content : List Char}
    (h : Text.readQuoted escapes body = some (content, [])) :
    Spells ('"' :: body) (.quoted (String.ofList content)) where
  start := ⟨'"', body, rfl, by decide, by decide⟩
  stop := by
    obtain ⟨before, rfl⟩ := Text.exists_append_quote h
    exact ⟨'"' :: before, '"', rfl, by decide⟩
  read rest _ := by
    rw [List.cons_append, read_quoted, Text.readQuoted_append h]
    rfl

theorem spells_named {c : Char} {key body content : List Char} (free : Free (c :: word))
    (plain : Text.isBlank c = false) (ne : c ≠ '#') (named : key? (c :: word) = some key)
    (h : Text.readQuoted escapes body = some (content, [])) :
    Spells (c :: word ++ '"' :: body) (.named (String.ofList key) (String.ofList content)) where
  start := ⟨c, word ++ '"' :: body, rfl, plain, ne⟩
  stop := by
    obtain ⟨before, rfl⟩ := Text.exists_append_quote h
    exact ⟨c :: word ++ '"' :: before, '"', by simp, by decide⟩
  read rest _ := by
    have split : splitBare (c :: word ++ '"' :: (body ++ rest)) = .ok (c :: word, '"' :: (body ++ rest)) := by
      refine splitBare_of_free free fun d first => ?_
      cases first
      decide
    have whole : c :: word ++ '"' :: body ++ rest = c :: (word ++ '"' :: (body ++ rest)) := by simp
    rw [List.cons_append] at split
    rw [whole, read_of_notMem (free.head?_notMem rfl), split]
    simp only [named]
    rw [Text.readQuoted_append h]
    rfl

theorem exists_cons_of_splitBare {c : Char} (plain : Text.isBlank c = false)
    (first : c ∉ ['\x7b', '\x7d', '"']) (h : splitBare (c :: cs) = .ok (word, rest)) :
    ∃ tail, word = c :: tail ∧ cs = tail ++ rest ∧ Free (c :: tail) := by
  simp only [List.mem_cons, List.not_mem_nil, or_false, not_or] at first
  have keeps : endsBare c = false := by simp [endsBare, plain, first]
  obtain ⟨d, tail, rfl⟩ := List.exists_cons_of_ne_nil (ne_nil_of_splitBare keeps h)
  obtain ⟨rfl, whole⟩ := List.cons.inj (append_of_splitBare h)
  exact ⟨tail, rfl, whole.symm, free_of_splitBare h⟩

theorem exists_spells_of_read {c : Char} {word : Word} (plain : Text.isBlank c = false) (ne : c ≠ '#')
    (h : read (c :: cs) = .ok (word, rest)) : ∃ text, c :: cs = text ++ rest ∧ Spells text word := by
  by_cases first : c ∈ ['\x7b', '\x7d', '"']
  · simp only [List.mem_cons, List.not_mem_nil, or_false] at first
    rcases first with rfl | rfl | rfl
    · cases h
      exact ⟨_, rfl, spells_opening⟩
    · cases h
      exact ⟨_, rfl, spells_closing⟩
    · rw [read_quoted] at h
      split at h
      · rename_i content rest' found
        cases h
        obtain ⟨body, rfl, read⟩ := Text.exists_quoted_append found
        exact ⟨'"' :: body, rfl, spells_quoted read⟩
      · cases h
  · rw [read_of_notMem first] at h
    split at h
    · cases h
    · rename_i bare rest' split
      obtain ⟨tail, rfl, rfl, free⟩ := exists_cons_of_splitBare plain first split
      split at h
      · cases h
      · rename_i key named
        split at h
        · rename_i content rest'' found
          cases h
          obtain ⟨body, rfl, read⟩ := Text.exists_quoted_append found
          exact ⟨c :: tail ++ '"' :: body, by simp, spells_named free plain ne named read⟩
        · cases h
    · rename_i bare rest' _ split
      obtain ⟨tail, rfl, rfl, free⟩ := exists_cons_of_splitBare plain first split
      cases h
      exact ⟨c :: tail, rfl, spells_of_free free plain ne⟩

/-! ## Lines of given words -/

theorem ofLine_append_of_blank {gap : List Char} (blank : ∀ c ∈ gap, Text.isBlank c) (cs : List Char) :
    ofLine (gap ++ cs) = ofLine cs := by
  induction gap with
  | nil => rfl
  | cons c gap ih =>
      rw [List.cons_append, ofLine_of_isBlank (blank c List.mem_cons_self),
        ih fun d member => blank d (List.mem_cons_of_mem _ member)]

theorem Spells.ofLine {text : List Char} {word : Word} (h : Spells text word)
    (stop : ∀ c, rest.head? = some c → Text.isBlank c) :
    ofLine (text ++ rest) = (ofLine rest).map (word :: ·) := by
  obtain ⟨c, cs, rfl, plain, ne⟩ := h.start
  exact ofLine_of_read plain ne (h.read rest stop)

/-- Whether a text consists of blanks, of which there is one at least. -/
structure IsGap (gap : List Char) : Prop where
  some : gap ≠ []
  blank : ∀ c ∈ gap, Text.isBlank c

def spaced (pieces : List (List Char × List Char)) : List Char :=
  pieces.flatMap fun (gap, text) => gap ++ text

variable {pieces : List (List Char × List Char)}

theorem head?_spaced (gaps : ∀ piece ∈ pieces, IsGap piece.1) :
    ∀ c, (spaced pieces).head? = some c → Text.isBlank c := by
  intro c first
  cases pieces with
  | nil => cases first
  | cons piece pieces =>
      obtain ⟨gap, text⟩ := piece
      have gap := gaps (gap, text) List.mem_cons_self
      obtain ⟨d, more, rfl⟩ := List.exists_cons_of_ne_nil gap.some
      cases first
      exact gap.blank _ List.mem_cons_self

theorem ofLine_spaced {words : List Word} (gaps : ∀ piece ∈ pieces, IsGap piece.1)
    (spelled : List.Forall₂ (fun piece word => Spells piece.2 word) pieces words) :
    ofLine (spaced pieces) = .ok words := by
  induction spelled with
  | nil => rw [spaced, List.flatMap_nil, Word.ofLine]
  | @cons piece word pieces words spells _ ih =>
      have later := fun piece member => gaps piece (List.mem_cons_of_mem _ member)
      have whole : spaced (piece :: pieces) = piece.1 ++ (piece.2 ++ spaced pieces) := by simp [spaced]
      rw [whole, ofLine_append_of_blank (gaps piece List.mem_cons_self).blank,
        spells.ofLine (head?_spaced later), ih later]
      rfl

theorem free_of_all (h : word.all (!endsBare ·)) : Free word := by
  induction word with
  | nil => exact .nil
  | cons c word ih =>
      obtain ⟨here, later⟩ := Bool.and_eq_true_iff.1 h
      exact .plain (by simpa using here) (ih later)

theorem spells_command (command : Command) : Spells command.word.toList (.bare command.word) := by
  have bare : ofBare command.word.toList = .bare command.word := by cases command <;> decide
  have plain : command.word.toList.all (!endsBare ·) := by cases command <;> decide
  obtain ⟨c, rest, whole, start⟩ : ∃ c rest, command.word.toList = c :: rest ∧ isNameChar c := by
    cases command <;> exact ⟨_, _, rfl, by decide⟩
  rw [← bare]
  rw [whole] at plain ⊢
  refine spells_of_free (free_of_all plain) (not_isBlank_of_isNameChar start) ?_
  rintro rfl
  cases start

theorem ofLine_command {words : List Word} (command : Command) (gaps : ∀ piece ∈ pieces, IsGap piece.1)
    (spelled : List.Forall₂ (fun piece word => Spells piece.2 word) pieces words) :
    ofLine (command.word.toList ++ spaced pieces) = .ok (.bare command.word :: words) := by
  rw [(spells_command command).ofLine (head?_spaced gaps), ofLine_spaced gaps spelled]
  rfl

theorem exists_last_spaced {words : List Word} (before : List Char) {c : Char}
    (plain : Text.isBlank c = false)
    (spelled : List.Forall₂ (fun piece word => Spells piece.2 word) pieces words) :
    ∃ before' d, before ++ [c] ++ spaced pieces = before' ++ [d] ∧ Text.isBlank d = false := by
  induction spelled generalizing before c with
  | nil => exact ⟨before, c, List.append_nil _, plain⟩
  | @cons piece word pieces words spells _ ih =>
      obtain ⟨text, d, last, plain'⟩ := spells.stop
      have whole : before ++ [c] ++ spaced (piece :: pieces) =
          (before ++ [c] ++ piece.1 ++ text) ++ [d] ++ spaced pieces := by
        simp [spaced, last]
      rw [whole]
      exact ih _ plain'

theorem trim_command {words : List Word} (command : Command)
    (spelled : List.Forall₂ (fun piece word => Spells piece.2 word) pieces words) :
    Text.trim (command.word.toList ++ spaced pieces) = command.word.toList ++ spaced pieces := by
  obtain ⟨c, rest, first, start, -⟩ := (spells_command command).start
  obtain ⟨before, d, last, stop⟩ := (spells_command command).stop
  obtain ⟨before', d', whole, plain⟩ := exists_last_spaced before stop spelled
  rw [← last] at whole
  have started : Text.trimStart (command.word.toList ++ spaced pieces) =
      command.word.toList ++ spaced pieces := by
    rw [first, List.cons_append, Text.trimStart_of_not_isBlank start]
  rw [Text.trim, started, whole, Text.trimEnd_append_cons plain]
  rfl

theorem exists_spells_of_ofLine {words : List Word} (h : ofLine cs = .ok words) {word : Word}
    (member : word ∈ words) : ∃ text, text <:+: cs ∧ Spells text word := by
  fun_induction Word.ofLine cs generalizing words with
  | case1 =>
      cases h
      cases member
  | case2 c cs blank ih =>
      obtain ⟨text, inside, spells⟩ := ih h member
      exact ⟨text, List.infix_cons inside, spells⟩
  | case3 =>
      cases h
      cases member
  | case4 c cs plain ne first rest found ih =>
      obtain ⟨later, read, h⟩ := Except.bind_eq_ok_iff.1 h
      cases h
      obtain ⟨text, whole, spells⟩ := exists_spells_of_read (by simpa using plain) ne found
      rcases List.mem_cons.1 member with rfl | member
      · exact ⟨text, whole ▸ (List.prefix_append text rest).isInfix, spells⟩
      · obtain ⟨text', inside, spells'⟩ := ih read member
        exact ⟨text', whole ▸ inside.trans (List.suffix_append text rest).isInfix, spells'⟩
  | case5 => cases h

theorem isGap_space : IsGap [' '] where
  some := List.cons_ne_nil _ _
  blank c member := by
    cases List.mem_singleton.1 member
    decide

theorem exists_pieces {words : List Word}
    (spelled : ∀ word ∈ words, ∃ text, text <:+: cs ∧ Spells text word) :
    ∃ pieces, (∀ piece ∈ pieces, IsGap piece.1) ∧
      List.Forall₂ (fun piece word => Spells piece.2 word) pieces words ∧
      ∀ c ∈ spaced pieces, c = ' ' ∨ c ∈ cs := by
  induction words with
  | nil => exact ⟨[], nofun, .nil, nofun⟩
  | cons word words ih =>
      obtain ⟨pieces, gaps, spells, known⟩ := ih fun word member => spelled word (List.mem_cons_of_mem _ member)
      obtain ⟨text, inside, spells'⟩ := spelled word List.mem_cons_self
      refine ⟨([' '], text) :: pieces, List.forall_mem_cons.2 ⟨isGap_space, gaps⟩, .cons spells' spells, ?_⟩
      intro c member
      rcases List.mem_cons.1 member with blank | member
      · exact .inl blank
      · rcases List.mem_append.1 member with here | later
        · exact .inr (inside.subset here)
        · exact known c later

end Word

end ScreenScript
