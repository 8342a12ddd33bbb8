import ScreenScript.Expr.Basic
import ScreenScript.Number.Layout
import ScreenScript.Number.Reading
import ScreenScript.Text.Quoted

namespace ScreenScript.Expr

/-- Why a text is no expression. -/
inductive Fault where
  | empty
  | unterminatedString
  | loneDollar
  | unterminatedReference
  | invalidName (name : String)
  | invalidNumber (literal : String)
  | unexpectedChar (c : Char)
  | unexpectedToken (shown : String)
  | missingBracket
  | missingOperand
  | phrase (fault : Phrase.Fault)

def Fault.message : Fault → String
  | empty => "expected an expression"
  | unterminatedString => "unterminated string"
  | loneDollar => "expected '\x7b' after '$'"
  | unterminatedReference => "unterminated '$\x7b'"
  | invalidName name => s!"invalid variable name '{name}'"
  | invalidNumber literal => s!"invalid number '{literal}'"
  | unexpectedChar c => s!"unexpected character '{c}' in expression"
  | unexpectedToken shown => s!"unexpected '{shown}' in expression"
  | missingBracket => "expected ')'"
  | missingOperand => "expression ends unexpectedly"
  | phrase fault => fault.message

inductive Token where
  | number (n : Float)
  | quoted (content : String)
  | name (spelled : String)
  | operator (op : Operator)
  | open
  | close

namespace Token

def shown : Token → String
  | number n => Number.plain n
  | quoted content => "\"" ++ content ++ "\""
  | .name spelled => spelled
  | operator op => op.symbol.toString
  | .open => "("
  | close => ")"

def escapes : Text.Escapes
  | 'n' => ['\n']
  | 't' => ['\t']
  | c => [c]

def isNumberChar (c : Char) : Bool :=
  c.isDigit || c = '.'

theorem length_dropWhile_le (p : Char → Bool) (cs : List Char) :
    (cs.dropWhile p).length ≤ cs.length :=
  (List.dropWhile_suffix p).length_le

def readReference (cs : List Char) : Except Fault (Token × List Char) :=
  match cs with
  | '\x7b' :: cs =>
    match cs.dropWhile (· ≠ '\x7d') with
    | _ :: rest =>
      let name := String.ofList (Text.trim (cs.takeWhile (· ≠ '\x7d')))
      if isName name then .ok (.name name, rest) else .error (.invalidName name)
    | [] => .error .unterminatedReference
  | _ => .error .loneDollar

theorem length_le_of_readReference {cs rest : List Char} {token : Token}
    (h : readReference cs = .ok (token, rest)) : rest.length ≤ cs.length := by
  simp only [readReference] at h
  split at h
  · rename_i inner
    split at h
    · rename_i found
      split at h
      · obtain ⟨-, rfl⟩ := Prod.mk.inj (Except.ok.inj h)
        have shorter := length_dropWhile_le (· ≠ '\x7d') inner
        rw [found] at shorter
        simp only [List.length_cons] at shorter ⊢
        omega
      · cases h
    · cases h
  · cases h

def readNumber (c : Char) (cs : List Char) : Except Fault (Token × List Char) :=
  let literal := c :: cs.takeWhile isNumberChar
  match Number.read? literal with
  | some n => .ok (.number n, cs.dropWhile isNumberChar)
  | none => .error (.invalidNumber (String.ofList literal))

theorem length_le_of_readNumber {c : Char} {cs rest : List Char} {token : Token}
    (h : readNumber c cs = .ok (token, rest)) : rest.length ≤ cs.length := by
  simp only [readNumber] at h
  split at h
  · obtain ⟨-, rfl⟩ := Prod.mk.inj (Except.ok.inj h)
    exact length_dropWhile_le _ _
  · cases h

/-- The first token of `c :: cs`, where `c` is neither blank nor `#`, and the text after it. -/
def read (c : Char) (cs : List Char) : Except Fault (Token × List Char) :=
  if let some op := Operator.ofChar? c then .ok (.operator op, cs)
  else if c = '(' then .ok (.open, cs)
  else if c = ')' then .ok (.close, cs)
  else if c = '"' then
    match Text.readQuoted escapes cs with
    | some (content, rest) => .ok (.quoted (String.ofList content), rest)
    | none => .error .unterminatedString
  else if c = '$' then readReference cs
  else if isNumberChar c then readNumber c cs
  else if isNameStart c then
    .ok (.name (String.ofList (c :: cs.takeWhile isNameChar)), cs.dropWhile isNameChar)
  else .error (.unexpectedChar c)

theorem length_le_of_read {c : Char} {cs rest : List Char} {token : Token}
    (h : read c cs = .ok (token, rest)) : rest.length ≤ cs.length := by
  unfold read at h
  split at h
  · cases h
    exact Nat.le_refl _
  split at h
  · cases h
    exact Nat.le_refl _
  split at h
  · cases h
    exact Nat.le_refl _
  split at h
  · split at h
    · rename_i found
      cases h
      exact Nat.le_of_lt (Text.length_lt_of_readQuoted found)
    · cases h
  split at h
  · exact length_le_of_readReference h
  split at h
  · exact length_le_of_readNumber h
  split at h
  · cases h
    exact length_dropWhile_le _ _
  · cases h

end Token

def tokens : List Char → Except Fault (List Token)
  | [] => .ok []
  | c :: cs =>
    if Text.isBlank c then tokens cs
    else if c = '#' then .ok []
    else match _h : Token.read c cs with
      | .ok (token, rest) => do return token :: (← tokens rest)
      | .error fault => .error fault
  termination_by cs => cs.length
  decreasing_by
    · simp
    · have := Token.length_le_of_read _h
      simp only [List.length_cons]
      omega

end ScreenScript.Expr
