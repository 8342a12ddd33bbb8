import ScreenScript.Text.Characters
import ScreenScript.Text.Lines
import ScreenScript.Text.Quoted

/-!
# Words of a script line

A line is cut into braces, quoted texts and bare words. A bare word ends at a blank, a brace or a
quote, but a placeholder `${...}` in it is taken whole. A word `key=value`, or `key=` directly before
a quoted text, names an argument. A `#` where a word would start ends the line.
-/

namespace ScreenScript

inductive Word where
  | bare (text : String)
  | quoted (text : String)
  | named (key value : String)
  | opening
  | closing
  deriving DecidableEq, Repr

/-- Why a line has no words. -/
inductive Word.Fault where
  | unterminatedString
  | unterminatedPlaceholder (word : String)
  | strayQuote (word : String)

namespace Word

def Fault.message : Word.Fault → String
  | unterminatedString => "unterminated string"
  | unterminatedPlaceholder word => "unterminated '$\x7b' in '" ++ word ++ "'"
  | strayQuote word => "unexpected '\"' after '" ++ word ++ "'"

/-- In quotes a backslash escapes a quote, a backslash, `n` and `t`, and else stands for itself. -/
def escapes : Text.Escapes
  | 'n' => ['\n']
  | 't' => ['\t']
  | '"' => ['"']
  | '\\' => ['\\']
  | c => ['\\', c]

def endsBare (c : Char) : Bool :=
  Text.isBlank c || c = '\x7b' || c = '\x7d' || c = '"'

/--
The bare word at the start of a text, and the text after it. A placeholder without an end gives the
whole text instead.
-/
def splitBare : List Char → Except (List Char) (List Char × List Char)
  | [] => .ok ([], [])
  | '$' :: '\x7b' :: cs =>
    match _h : cs.dropWhile (· ≠ '\x7d') with
    | [] => .error ('$' :: '\x7b' :: cs)
    | close :: rest =>
      match splitBare rest with
      | .ok (word, after) => .ok ('$' :: '\x7b' :: cs.takeWhile (· ≠ '\x7d') ++ close :: word, after)
      | .error word => .error ('$' :: '\x7b' :: cs.takeWhile (· ≠ '\x7d') ++ close :: word)
  | c :: cs =>
    if endsBare c then .ok ([], c :: cs)
    else match splitBare cs with
      | .ok (word, after) => .ok (c :: word, after)
      | .error word => .error (c :: word)
  termination_by cs => cs.length
  decreasing_by
    · have shorter : (cs.dropWhile (· ≠ '\x7d')).length ≤ cs.length :=
        (List.dropWhile_suffix _).length_le
      rw [_h, List.length_cons] at shorter
      simp only [List.length_cons]
      omega
    · simp

theorem append_of_splitBare {cs word rest : List Char}
    (h : splitBare cs = .ok (word, rest)) : word ++ rest = cs := by
  fun_induction splitBare cs generalizing word rest with
  | case1 => cases h; rfl
  | case2 => cases h
  | case3 cs close tail found inner after split ih =>
    cases h
    have whole := List.takeWhile_append_dropWhile (p := (· ≠ '\x7d')) (l := cs)
    rw [found] at whole
    simpa [ih split] using whole
  | case4 => cases h
  | case5 => cases h; rfl
  | case6 c cs _ _ inner after split ih =>
    cases h
    simp [ih split]
  | case7 => cases h

theorem ne_nil_of_splitBare {c : Char} {cs word rest : List Char} (hc : endsBare c = false)
    (h : splitBare (c :: cs) = .ok (word, rest)) : word ≠ [] := by
  unfold splitBare at h
  split at h
  · rename_i eq
    cases eq
  · split at h
    · cases h
    · split at h <;> cases h
      simp
  · rename_i eq
    cases eq
    simp only [hc, Bool.false_eq_true, if_false] at h
    split at h <;> cases h
    simp

def ofBare (word : List Char) : Word :=
  match Text.splitFirst (· = '=') word with
  | some (key, value) =>
    if isNameChars key && !value.isEmpty then .named (String.ofList key) (String.ofList value)
    else .bare (String.ofList word)
  | none => .bare (String.ofList word)

def key? (word : List Char) : Option (List Char) :=
  match word.reverse with
  | '=' :: rest => if isNameChars rest.reverse then some rest.reverse else none
  | _ => none

/-- The first word of a text that starts with neither a blank nor `#`, and the text after it. -/
def read (cs : List Char) : Except Fault (Word × List Char) :=
  match cs with
  | '\x7b' :: rest => .ok (.opening, rest)
  | '\x7d' :: rest => .ok (.closing, rest)
  | '"' :: rest =>
    match Text.readQuoted escapes rest with
    | some (content, rest) => .ok (.quoted (String.ofList content), rest)
    | none => .error .unterminatedString
  | _ =>
    match splitBare cs with
    | .error word => .error (.unterminatedPlaceholder (String.ofList word))
    | .ok (word, '"' :: rest) =>
      match key? word with
      | none => .error (.strayQuote (String.ofList word))
      | some key =>
        match Text.readQuoted escapes rest with
        | some (content, rest) => .ok (.named (String.ofList key) (String.ofList content), rest)
        | none => .error .unterminatedString
    | .ok (word, rest) => .ok (ofBare word, rest)

theorem length_lt_of_read {c : Char} {cs rest : List Char} {word : Word}
    (hc : Text.isBlank c = false) (h : read (c :: cs) = .ok (word, rest)) :
    rest.length < (c :: cs).length := by
  unfold read at h
  split at h
  · rename_i eq
    cases eq; cases h; simp
  · rename_i eq
    cases eq; cases h; simp
  · rename_i eq
    cases eq
    split at h
    · rename_i found
      cases h
      have := Text.length_lt_of_readQuoted found
      simp only [List.length_cons]
      omega
    · cases h
  · rename_i notOpening notClosing notQuote
    have bare : endsBare c = false := by
      have h₁ : c ≠ '\x7b' := fun h => notOpening cs (h ▸ rfl)
      have h₂ : c ≠ '\x7d' := fun h => notClosing cs (h ▸ rfl)
      have h₃ : c ≠ '"' := fun h => notQuote cs (h ▸ rfl)
      simp [endsBare, hc, h₁, h₂, h₃]
    split at h
    · cases h
    · rename_i inner after split
      have whole := append_of_splitBare split
      split at h
      · cases h
      · split at h
        · rename_i found
          cases h
          have := Text.length_lt_of_readQuoted found
          rw [← whole]
          simp only [List.length_append, List.length_cons]
          omega
        · cases h
    · rename_i inner after _ split
      cases h
      have whole := append_of_splitBare split
      have := List.length_pos_iff.2 (ne_nil_of_splitBare bare split)
      rw [← whole, List.length_append]
      omega

def ofLine : List Char → Except Fault (List Word)
  | [] => .ok []
  | c :: cs =>
    if _hc : Text.isBlank c then ofLine cs
    else if c = '#' then .ok []
    else match _h : read (c :: cs) with
      | .ok (word, rest) => do return word :: (← ofLine rest)
      | .error fault => .error fault
  termination_by cs => cs.length
  decreasing_by
    · simp
    · exact length_lt_of_read (by simpa using _hc) _h

end Word

end ScreenScript
