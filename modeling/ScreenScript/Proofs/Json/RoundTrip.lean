import ScreenScript.Json.Reader
import ScreenScript.Proofs.Json.TokenText

/-!
# Values read back

Every value that is written over several lines is read back (`read?_pretty`) with its texts, names
and order, and with every number as the number that its own text is read as (`restored`).
-/

namespace ScreenScript.Json

mutual

def restored : Json → Json
  | null | unusable => null
  | bool b => bool b
  | integer n => numberOf (toString n)
  | real x => reread x
  | string s => string s
  | array elements => array (restoredElements elements)
  | object members => object (restoredMembers members)

def restoredElements : List Json → List Json
  | [] => []
  | j :: rest => restored j :: restoredElements rest

def restoredMembers : List (String × Json) → List (String × Json)
  | [] => []
  | (name, j) :: rest => (name, restored j) :: restoredMembers rest

end

/-- Members as they are kept while their object is open. -/
def named (members : List (String × Json)) : List (Option String × Json) :=
  members.map fun member => (some member.1, member.2)

def readMembers (members : List (String × Json)) : List (Option String × Json) :=
  named (restoredMembers members)

theorem mapM_named {f : Option String × Json → Option (String × Json)}
    (h : ∀ name j, f (some name, j) = some (name, j)) (members : List (String × Json)) :
    (named members).mapM f = some members := by
  induction members with
  | nil => rfl
  | cons member rest ih =>
      rw [named, List.map_cons, List.mapM_cons, h, ← named, ih]
      rfl

theorem ofMembers_reverse (members : List (String × Json)) :
    ofMembers (named members).reverse = .object members := by
  rw [ofMembers, List.reverse_reverse, mapM_named fun _ _ => rfl]

theorem intercalate_comma (first second : List Token) (rest : List (List Token)) :
    [Token.comma].intercalate (first :: second :: rest) =
      first ++ .comma :: [Token.comma].intercalate (second :: rest) := by
  simp [List.intercalate]

mutual

theorem foldlM_tokensOf (j : Json) (outer : List Enclosing) (first : Bool) (ts : List Token) :
    (tokensOf j ++ ts).foldlM Progress.step (.value outer first) =
      ts.foldlM Progress.step (.complete (restored j) outer) := by
  match j with
  | .null => rfl
  | .unusable => rfl
  | .bool b => rfl
  | .integer n => rfl
  | .real x => rfl
  | .string s => rfl
  | .array [] => rfl
  | .array (j :: rest) =>
      have inner := foldlM_tokensOfElements (j :: rest) (List.cons_ne_nil _ _) [] outer true
        (.closeArray :: ts)
      rw [List.append_nil] at inner
      rw [tokensOf, List.cons_append, List.append_assoc, List.foldlM_cons]
      refine inner.trans ?_
      rw [List.foldlM_cons, restored]
      simp only [Progress.step, List.reverse_reverse, Option.bind_eq_bind, Option.bind_some]
  | .object [] => rfl
  | .object (member :: rest) =>
      have inner := foldlM_tokensOfMembers (member :: rest) (List.cons_ne_nil _ _) [] outer true
        (.closeObject :: ts)
      rw [List.append_nil] at inner
      rw [tokensOf, List.cons_append, List.append_assoc, List.foldlM_cons]
      refine inner.trans ?_
      rw [List.foldlM_cons, restored]
      simp only [Progress.step, readMembers, ofMembers_reverse, Option.bind_eq_bind,
        Option.bind_some]

theorem foldlM_tokensOfElements (elements : List Json) (some : elements ≠ [])
    (before : List Json) (outer : List Enclosing) (first : Bool) (ts : List Token) :
    ([Token.comma].intercalate (tokensOfElements elements) ++ ts).foldlM Progress.step
        (.value (.array before :: outer) first) =
      ts.foldlM Progress.step (.element ((restoredElements elements).reverse ++ before) outer) := by
  match elements with
  | [] => exact absurd rfl some
  | [j] =>
      rw [tokensOfElements, tokensOfElements, List.intercalate_singleton, foldlM_tokensOf]
      rfl
  | j :: next :: rest =>
      have later := foldlM_tokensOfElements (next :: rest) (List.cons_ne_nil _ _)
        (restored j :: before) outer false ts
      rw [tokensOfElements, tokensOfElements, intercalate_comma, List.append_assoc,
        foldlM_tokensOf, List.cons_append, List.foldlM_cons]
      refine later.trans ?_
      simp only [restoredElements, List.reverse_cons, List.append_assoc, List.cons_append,
        List.nil_append]

theorem foldlM_tokensOfMembers (members : List (String × Json)) (found : members ≠ [])
    (before : List (Option String × Json)) (outer : List Enclosing) (first : Bool)
    (ts : List Token) :
    ([Token.comma].intercalate (tokensOfMembers members) ++ ts).foldlM Progress.step
        (.name before outer first) =
      ts.foldlM Progress.step (.member ((readMembers members).reverse ++ before) outer) := by
  match members with
  | [] => exact absurd rfl found
  | [(name, j)] =>
      rw [tokensOfMembers, tokensOfMembers, List.intercalate_singleton, List.cons_append,
        List.cons_append, List.foldlM_cons]
      exact foldlM_tokensOf j (.object before (some name) :: outer) false ts
  | (name, j) :: (next, k) :: rest =>
      have later := foldlM_tokensOfMembers ((next, k) :: rest) (List.cons_ne_nil _ _)
        ((some name, restored j) :: before) outer false ts
      have value := foldlM_tokensOf j (.object before (some name) :: outer) false
        (.comma :: ([Token.comma].intercalate (tokensOfMembers ((next, k) :: rest)) ++ ts))
      rw [tokensOfMembers, tokensOfMembers, intercalate_comma, List.append_assoc,
        List.cons_append, List.cons_append, List.cons_append, List.foldlM_cons]
      refine value.trans (later.trans ?_)
      simp only [readMembers, named, restoredMembers, List.map_cons, List.reverse_cons,
        List.append_assoc, List.cons_append, List.nil_append]

end

theorem read?_pretty (j : Json) : read? (pretty "" j) = some (restored j) := by
  have blank : ∀ c ∈ "".toList, isSpace c := nofun
  have text := reads_pretty j blank [] delimited_nil
  have progress := foldlM_tokensOf j [] false []
  have none : tokens? [] = some [] := by rw [tokens?]
  rw [List.append_nil] at text progress
  rw [read?, text, none]
  simp only [Option.map_some, List.append_nil, Option.bind_eq_bind, Option.bind_some, progress]
  rfl

end ScreenScript.Json
