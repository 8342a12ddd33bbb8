import ScreenScript.Json.Number

namespace ScreenScript.Json

inductive Token where
  | openArray
  | closeArray
  | openObject
  | closeObject
  | comma
  | colon
  /-- A text, or `none` for one with half a surrogate pair. -/
  | text (content? : Option String)
  /-- A number, a truth value or null. -/
  | atom (j : Json)

def isSpace (c : Char) : Bool :=
  c = ' ' || c = '\t' || c = '\n' || c = '\x0d'

def hexValue? (c : Char) : Option Nat :=
  if c.isDigit then some (c.toNat - '0'.toNat)
  else if 'a' ≤ c ∧ c ≤ 'f' then some (c.toNat - 'a'.toNat + 10)
  else if 'A' ≤ c ∧ c ≤ 'F' then some (c.toNat - 'A'.toNat + 10)
  else none

def ofHex? (ds : List Char) : Option Nat :=
  ds.foldlM (fun n c => (hexValue? c).map (16 * n + ·)) 0

def escaped? : Char → Option Nat
  | '"' => some 0x22
  | '\\' => some 0x5C
  | '/' => some 0x2F
  | 'b' => some 8
  | 'f' => some 12
  | 'n' => some 10
  | 'r' => some 13
  | 't' => some 9
  | _ => none

/-- The code points and surrogates of a text after its opening quote, and what follows the text. -/
def units? : List Char → Option (List Nat × List Char)
  | [] => none
  | '"' :: rest => some ([], rest)
  | '\\' :: 'u' :: a :: b :: c :: d :: rest => do
    let unit ← ofHex? [a, b, c, d]
    let (units, rest) ← units? rest
    return (unit :: units, rest)
  | ['\\'] => none
  | '\\' :: c :: rest => do
    let unit ← escaped? c
    let (units, rest) ← units? rest
    return (unit :: units, rest)
  | c :: rest =>
    if c.toNat < 32 then none
    else (units? rest).map fun (units, rest) => (c.toNat :: units, rest)

theorem length_lt_of_units? {cs rest : List Char} {units : List Nat}
    (h : units? cs = some (units, rest)) : rest.length < cs.length := by
  fun_induction units? cs generalizing units rest with
  | case1 => cases h
  | case2 cs =>
    obtain ⟨-, rfl⟩ := Prod.mk.inj (Option.some.inj h)
    simp
  | case3 a b c d cs ih =>
    obtain ⟨unit, -, h⟩ := Option.bind_eq_some_iff.1 h
    obtain ⟨⟨inner, after⟩, found, h⟩ := Option.bind_eq_some_iff.1 h
    obtain ⟨-, rfl⟩ := Prod.mk.inj (Option.some.inj h)
    have := ih found
    simp only [List.length_cons]
    omega
  | case4 => cases h
  | case5 c cs _ ih =>
    obtain ⟨unit, -, h⟩ := Option.bind_eq_some_iff.1 h
    obtain ⟨⟨inner, after⟩, found, h⟩ := Option.bind_eq_some_iff.1 h
    obtain ⟨-, rfl⟩ := Prod.mk.inj (Option.some.inj h)
    have := ih found
    simp only [List.length_cons]
    omega
  | case6 => cases h
  | case7 c cs _ _ _ _ _ ih =>
    obtain ⟨⟨inner, after⟩, found, eq⟩ := Option.map_eq_some_iff.1 h
    obtain ⟨-, rfl⟩ := Prod.mk.inj eq
    have := ih found
    simp only [List.length_cons]
    omega

def isLeading (unit : Nat) : Bool :=
  0xD800 ≤ unit && unit < 0xDC00

def isTrailing (unit : Nat) : Bool :=
  0xDC00 ≤ unit && unit < 0xE000

def ofUnits? : List Nat → Option (List Char)
  | [] => some []
  | unit :: units =>
    if isLeading unit then
      match units with
      | second :: units =>
        if isTrailing second then
          (ofUnits? units).map
            (Char.ofNat (0x10000 + (unit - 0xD800) * 0x400 + (second - 0xDC00)) :: ·)
        else none
      | [] => none
    else if isTrailing unit then none
    else (ofUnits? units).map (Char.ofNat unit :: ·)

def word? (w : List Char) : Option Json :=
  if w = ['n', 'u', 'l', 'l'] then some .null
  else if w = ['t', 'r', 'u', 'e'] then some (.bool true)
  else if w = ['f', 'a', 'l', 's', 'e'] then some (.bool false)
  else none

def mark? : Char → Option Token
  | '[' => some .openArray
  | ']' => some .closeArray
  | '\x7b' => some .openObject
  | '\x7d' => some .closeObject
  | ',' => some .comma
  | ':' => some .colon
  | _ => none

def readToken? (c : Char) (cs : List Char) : Option (Token × List Char) :=
  if let some mark := mark? c then some (mark, cs)
  else if c = '"' then
    (units? cs).map fun (units, rest) => (.text ((ofUnits? units).map String.ofList), rest)
  else if c.isLower then
    (word? (c :: cs.takeWhile Char.isLower)).map fun j => (.atom j, cs.dropWhile Char.isLower)
  else (readNumber? (c :: cs)).map fun (j, rest) => (.atom j, rest)

theorem length_le_of_readToken? {c : Char} {cs rest : List Char} {token : Token}
    (h : readToken? c cs = some (token, rest)) : rest.length ≤ cs.length := by
  unfold readToken? at h
  split at h
  · obtain ⟨-, rfl⟩ := Prod.mk.inj (Option.some.inj h)
    exact Nat.le_refl _
  · split at h
    · obtain ⟨⟨units, after⟩, found, eq⟩ := Option.map_eq_some_iff.1 h
      obtain ⟨-, rfl⟩ := Prod.mk.inj eq
      exact Nat.le_of_lt (length_lt_of_units? found)
    · split at h
      · obtain ⟨j, found, eq⟩ := Option.map_eq_some_iff.1 h
        obtain ⟨-, rfl⟩ := Prod.mk.inj eq
        exact (List.dropWhile_suffix _).length_le
      · obtain ⟨⟨j, after⟩, found, eq⟩ := Option.map_eq_some_iff.1 h
        obtain ⟨-, rfl⟩ := Prod.mk.inj eq
        exact Nat.le_of_lt_succ (length_lt_of_readNumber? found)

def tokens? : List Char → Option (List Token)
  | [] => some []
  | c :: cs =>
    if isSpace c then tokens? cs
    else match _h : readToken? c cs with
      | some (token, rest) => (tokens? rest).map (token :: ·)
      | none => none
  termination_by cs => cs.length
  decreasing_by
    · simp
    · have := length_le_of_readToken? _h
      simp only [List.length_cons]
      omega

end ScreenScript.Json
