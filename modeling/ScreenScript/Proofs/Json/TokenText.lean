import ScreenScript.Proofs.Json.NumberText
import ScreenScript.Proofs.Json.Quoted

namespace ScreenScript.Json

mutual

def tokensOf : Json → List Token
  | null | unusable => [.atom .null]
  | bool b => [.atom (.bool b)]
  | integer n => [.atom (numberOf (toString n))]
  | real x => [.atom (reread x)]
  | string s => [.text (some s)]
  | array elements =>
    .openArray :: ([Token.comma].intercalate (tokensOfElements elements) ++ [.closeArray])
  | object members =>
    .openObject :: ([Token.comma].intercalate (tokensOfMembers members) ++ [.closeObject])

def tokensOfElements : List Json → List (List Token)
  | [] => []
  | j :: rest => tokensOf j :: tokensOfElements rest

def tokensOfMembers : List (String × Json) → List (List Token)
  | [] => []
  | (name, j) :: rest => (.text (some name) :: .colon :: tokensOf j) :: tokensOfMembers rest

end

def Reads (text : List Char) (tokens : List Token) : Prop :=
  ∀ rest, Delimited rest → tokens? (text ++ rest) = (tokens? rest).map (tokens ++ ·)

theorem tokens?_space {c : Char} (h : isSpace c) (cs : List Char) : tokens? (c :: cs) = tokens? cs := by
  rw [tokens?, if_pos h]

theorem tokens?_spaces {blank : List Char} (h : ∀ c ∈ blank, isSpace c) (cs : List Char) :
    tokens? (blank ++ cs) = tokens? cs := by
  induction blank with
  | nil => rfl
  | cons c blank ih =>
      rw [List.cons_append, tokens?_space (h c List.mem_cons_self)]
      exact ih fun c mem => h c (List.mem_cons_of_mem _ mem)

theorem tokens?_token {c : Char} {cs rest : List Char} {token : Token} (dark : isSpace c = false)
    (h : readToken? c cs = some (token, rest)) :
    tokens? (c :: cs) = (tokens? rest).map (token :: ·) := by
  rw [tokens?, if_neg (by simp [dark])]
  split
  · rename_i found
    obtain ⟨rfl, rfl⟩ := Prod.mk.inj (Option.some.inj (found.symm.trans h))
    rfl
  · rename_i found
    exact absurd (found.symm.trans h) (by simp)

theorem tokens?_mark {c : Char} {token : Token} (dark : isSpace c = false)
    (h : mark? c = some token) (cs : List Char) :
    tokens? (c :: cs) = (tokens? cs).map (token :: ·) := by
  apply tokens?_token dark
  rw [readToken?, h]

theorem reads_number {text : String} {negative : Bool} {t : NumberText} (valid : t.Valid)
    (h : text.toList = Number.sign negative ++ t.write) :
    Reads text.toList [.atom (numberOf text)] := by
  intro rest after
  obtain ⟨c, cs, eq, dark, read⟩ := t.readToken?_write negative valid
  rw [numberOf_eq valid h, h, eq]
  exact tokens?_token dark (read rest after)

theorem reads_word {c : Char} {cs : List Char} {j : Json} (letters : ∀ c ∈ cs, c.isLower)
    (dark : isSpace c = false) (plain : mark? c = none) (quote : c ≠ '"') (lower : c.isLower)
    (word : word? (c :: cs) = some j) : Reads (c :: cs) [.atom j] := by
  intro rest after
  have stop : Text.StopsAt Char.isLower rest := by
    intro c h
    have plain := (after c h).1
    simp only [Char.isAlphanum, Char.isAlpha, Bool.or_eq_false_iff] at plain
    exact plain.1.2
  rw [List.cons_append]
  apply tokens?_token dark
  simp only [readToken?, plain, if_neg quote, lower, if_true, Text.takeWhile_append letters stop,
    Text.dropWhile_append letters stop, word, Option.map_some]

theorem reads_null : Reads "null".toList [.atom .null] :=
  reads_word (List.all_eq_true.1 rfl) rfl rfl (by decide) rfl rfl

theorem reads_bool (b : Bool) : Reads (if b then "true" else "false").toList [.atom (.bool b)] := by
  cases b
  · exact reads_word (List.all_eq_true.1 rfl) rfl rfl (by decide) rfl rfl
  · exact reads_word (List.all_eq_true.1 rfl) rfl rfl (by decide) rfl rfl

theorem reads_quote (s : String) : Reads (quote s).toList [.text (some s)] := by
  intro rest _
  have same : '"' :: (s.toList.flatMap escape ++ ['"']) ++ rest
      = '"' :: (s.toList.flatMap escape ++ '"' :: rest) := by simp
  rw [toList_quote, same]
  exact tokens?_token rfl (readToken?_quote s rest)

theorem reads_writeFloat (x : Float) : Reads (writeFloat x).toList [.atom (reread x)] := by
  by_cases finite : Number.isFinite x
  · obtain ⟨negative, t, valid, eq⟩ := exists_writeFloat finite
    exact reads_number valid eq
  · have text := writeFloat_of_not_finite (Bool.eq_false_iff.2 finite)
    rw [reread, text]
    exact reads_null

theorem reads_integer (n : Int) : Reads (toString n).toList [.atom (numberOf (toString n))] := by
  obtain ⟨negative, t, valid, eq⟩ := exists_writeInteger n
  exact reads_number valid eq

def blockLines (indent : String) (texts : List String) : List Char :=
  (",\n".intercalate (texts.map fun e => indent ++ "  " ++ e)).toList

theorem isSpace_of_mem_step : ∀ c ∈ "  ".toList, isSpace c :=
  List.all_eq_true.1 rfl

theorem tokens?_indented {indent : String} (blank : ∀ c ∈ indent.toList, isSpace c)
    (text : String) (rest : List Char) :
    tokens? ((indent ++ "  " ++ text).toList ++ rest) = tokens? (text.toList ++ rest) := by
  rw [String.toList_append, String.toList_append, List.append_assoc, List.append_assoc,
    tokens?_spaces blank, tokens?_spaces isSpace_of_mem_step]

theorem reads_blockLines {indent : String} (blank : ∀ c ∈ indent.toList, isSpace c)
    {texts : List String} {tokens : List (List Token)}
    (read : List.Forall₂ (fun text tokens => Reads text.toList tokens) texts tokens)
    (some : texts ≠ []) : Reads (blockLines indent texts) ([Token.comma].intercalate tokens) := by
  induction read with
  | nil => exact absurd rfl some
  | @cons text first texts tokens head others ih =>
      intro rest after
      cases others with
      | nil =>
          simp only [blockLines, List.map_cons, List.map_nil, String.intercalate_singleton,
            List.intercalate_singleton]
          rw [tokens?_indented blank]
          exact head rest after
      | @cons next second texts tokens second' others =>
          have lines : blockLines indent (text :: next :: texts) =
              (indent ++ "  " ++ text).toList ++ ',' :: '\n' :: blockLines indent (next :: texts) := by
            simp only [blockLines, List.map_cons, String.intercalate_cons_cons, String.toList_append]
            simp
          have comma : Delimited (',' :: '\n' :: (blockLines indent (next :: texts) ++ rest)) :=
            delimited_cons rfl (by decide) _
          have later := ih (List.cons_ne_nil _ _) rest after
          have mark : tokens? (',' :: '\n' :: (blockLines indent (next :: texts) ++ rest)) =
              (tokens? (blockLines indent (next :: texts) ++ rest)).map (.comma :: ·) := by
            rw [tokens?_mark rfl rfl, tokens?_space rfl]
          have assoc : (indent ++ "  " ++ text).toList ++
              ',' :: '\n' :: blockLines indent (next :: texts) ++ rest =
              (indent ++ "  " ++ text).toList ++
              ',' :: '\n' :: (blockLines indent (next :: texts) ++ rest) := by simp
          rw [lines, assoc, tokens?_indented blank, head _ comma, mark, later, Option.map_map,
            Option.map_map]
          congr 1
          funext ts
          simp [List.intercalate]

theorem reads_block {first last : String} {a b : Char} (firstIs : first.toList = [a])
    (lastIs : last.toList = [b]) {opening closing : Token} (openMark : mark? a = some opening)
    (closeMark : mark? b = some closing) (openDark : isSpace a = false)
    (closeDark : isSpace b = false) {indent : String} (blank : ∀ c ∈ indent.toList, isSpace c)
    {texts : List String} {tokens : List (List Token)}
    (read : List.Forall₂ (fun text tokens => Reads text.toList tokens) texts tokens) :
    Reads (block first last indent texts).toList
      (opening :: ([Token.comma].intercalate tokens ++ [closing])) := by
  intro rest after
  cases read with
  | nil =>
      have text : (block first last indent []).toList = [a, b] := by
        simp [block, firstIs, lastIs]
      rw [text]
      simp only [List.cons_append, List.nil_append, tokens?_mark openDark openMark,
        tokens?_mark closeDark closeMark, Option.map_map, List.intercalate_nil]
      rfl
  | @cons text found texts tokens head others =>
      have lines := reads_blockLines blank (.cons head others) (List.cons_ne_nil _ _)
      have text : (block first last indent (text :: texts)).toList ++ rest =
          a :: '\n' :: (blockLines indent (text :: texts) ++
            '\n' :: (indent.toList ++ b :: rest)) := by
        simp [block, blockLines, firstIs, lastIs]
      have newline : Delimited ('\n' :: (indent.toList ++ b :: rest)) :=
        delimited_cons rfl (by decide) _
      rw [text, tokens?_mark openDark openMark, tokens?_space rfl, lines _ newline,
        tokens?_space rfl, tokens?_spaces blank, tokens?_mark closeDark closeMark, Option.map_map,
        Option.map_map]
      congr 1
      funext ts
      simp

theorem isSpace_of_mem_indent {indent : String} (blank : ∀ c ∈ indent.toList, isSpace c) :
    ∀ c ∈ (indent ++ "  ").toList, isSpace c := by
  intro c h
  rw [String.toList_append] at h
  rcases List.mem_append.1 h with h | h
  · exact blank c h
  · exact isSpace_of_mem_step c h

theorem reads_member {name text : String} {tokens : List Token} (read : Reads text.toList tokens) :
    Reads (quote name ++ ": " ++ text).toList (.text (some name) :: .colon :: tokens) := by
  intro rest after
  have colon : Delimited (':' :: ' ' :: (text.toList ++ rest)) := delimited_cons rfl (by decide) _
  have apart : (quote name ++ ": " ++ text).toList ++ rest =
      (quote name).toList ++ ':' :: ' ' :: (text.toList ++ rest) := by simp
  rw [apart, reads_quote name _ colon, tokens?_mark rfl rfl, tokens?_space rfl, read rest after,
    Option.map_map, Option.map_map]
  rfl

mutual

theorem reads_pretty (j : Json) {indent : String} (blank : ∀ c ∈ indent.toList, isSpace c) :
    Reads (pretty indent j).toList (tokensOf j) := by
  cases j with
  | null => exact reads_null
  | unusable => exact reads_null
  | bool b => exact reads_bool b
  | integer n => exact reads_integer n
  | real x => exact reads_writeFloat x
  | string s => exact reads_quote s
  | array elements =>
      exact reads_block rfl rfl rfl rfl rfl rfl blank
        (reads_prettyElements elements (isSpace_of_mem_indent blank))
  | object members =>
      exact reads_block rfl rfl rfl rfl rfl rfl blank
        (reads_prettyMembers members (isSpace_of_mem_indent blank))

theorem reads_prettyElements (elements : List Json) {indent : String}
    (blank : ∀ c ∈ indent.toList, isSpace c) :
    List.Forall₂ (fun text tokens => Reads text.toList tokens) (prettyElements indent elements)
      (tokensOfElements elements) := by
  cases elements with
  | nil => exact .nil
  | cons j rest => exact .cons (reads_pretty j blank) (reads_prettyElements rest blank)

theorem reads_prettyMembers (members : List (String × Json)) {indent : String}
    (blank : ∀ c ∈ indent.toList, isSpace c) :
    List.Forall₂ (fun text tokens => Reads text.toList tokens) (prettyMembers indent members)
      (tokensOfMembers members) := by
  match members with
  | [] => exact .nil
  | (name, j) :: rest =>
      exact .cons (reads_member (reads_pretty j blank)) (reads_prettyMembers rest blank)

end

end ScreenScript.Json
