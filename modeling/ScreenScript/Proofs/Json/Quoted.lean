import ScreenScript.Json.Printer
import ScreenScript.Json.Token

namespace ScreenScript.Json

def prepend (unit : Nat) (text : List Nat × List Char) : List Nat × List Char :=
  (unit :: text.1, text.2)

theorem hexValue?_hexDigit (n : Nat) : hexValue? (hexDigit n) = some (n % 16) := by
  have small : ∀ k < 16, hexValue? (Nat.digitChar k) = some k := by decide
  exact small (n % 16) (Nat.mod_lt n (by decide))

theorem ofHex?_hexDigit {n : Nat} (h : n < 256) :
    ofHex? ['0', '0', hexDigit (n / 16), hexDigit n] = some n := by
  have zero : hexValue? '0' = some 0 := rfl
  simp only [ofHex?, List.foldlM, zero, hexValue?_hexDigit, Option.map_some, Option.bind_eq_bind,
    Option.bind_some, pure]
  congr 1
  omega

theorem units?_escaped {c : Char} {unit : Nat} (h : escaped? c = some unit) (rest : List Char) :
    units? ('\\' :: c :: rest) = (units? rest).map (prepend unit) := by
  have other : c ≠ 'u' := by
    rintro rfl
    cases h
  rw [units?.eq_5 _ _ (fun _ _ _ _ _ eq => absurd eq other), h]
  cases units? rest <;> rfl

theorem units?_plain {c : Char} (quote : c ≠ '"') (backslash : c ≠ '\\') (printed : ¬ c.toNat < 32)
    (rest : List Char) : units? (c :: rest) = (units? rest).map (prepend c.toNat) := by
  rw [units?.eq_6 _ _ quote (fun _ _ _ _ _ eq _ => absurd eq backslash)
    (fun eq _ => absurd eq backslash) (fun _ _ eq _ => absurd eq backslash), if_neg printed]
  rfl

theorem escape_cases (c : Char) :
    (∃ mark, escape c = ['\\', mark] ∧ escaped? mark = some c.toNat) ∨
    (c.toNat < 32 ∧
      escape c = ['\\', 'u', '0', '0', hexDigit (c.toNat / 16), hexDigit c.toNat]) ∨
    (c ≠ '"' ∧ c ≠ '\\' ∧ ¬ c.toNat < 32 ∧ escape c = [c]) := by
  unfold escape
  -- Seven characters have a mark of their own.
  iterate 7
    split
    · rename_i h
      exact .inl ⟨_, rfl, by rw [h]; rfl⟩
  split
  · rename_i control
    exact .inr (.inl ⟨control, rfl⟩)
  · rename_i quote backslash _ _ _ _ _ printed
    exact .inr (.inr ⟨quote, backslash, printed, rfl⟩)

theorem units?_escape (c : Char) (rest : List Char) :
    units? (escape c ++ rest) = (units? rest).map (prepend c.toNat) := by
  rcases escape_cases c with ⟨mark, eq, marked⟩ | ⟨control, eq⟩ | ⟨quote, backslash, printed, eq⟩
  · rw [eq]
    exact units?_escaped marked rest
  · rw [eq]
    simp only [List.cons_append, List.nil_append]
    rw [units?, ofHex?_hexDigit (by omega)]
    cases units? rest <;> rfl
  · rw [eq]
    exact units?_plain quote backslash printed rest

theorem units?_escapeAll (cs rest : List Char) :
    units? (cs.flatMap escape ++ '"' :: rest) = some (cs.map Char.toNat, rest) := by
  induction cs with
  | nil => rfl
  | cons c cs ih =>
      rw [List.flatMap_cons, List.append_assoc, units?_escape, ih]
      rfl

theorem ofUnits?_toNat (cs : List Char) : ofUnits? (cs.map Char.toNat) = some cs := by
  induction cs with
  | nil => rfl
  | cons c cs ih =>
      have valid := c.valid
      have leading : isLeading c.toNat = false := by
        simp only [isLeading, Char.toNat, UInt32.isValidChar, Nat.isValidChar] at valid ⊢
        simp only [Bool.and_eq_false_iff, decide_eq_false_iff_not]
        omega
      have trailing : isTrailing c.toNat = false := by
        simp only [isTrailing, Char.toNat, UInt32.isValidChar, Nat.isValidChar] at valid ⊢
        simp only [Bool.and_eq_false_iff, decide_eq_false_iff_not]
        omega
      rw [List.map_cons, ofUnits?.eq_def]
      simp only [leading, trailing, ih, Bool.false_eq_true, if_false, Option.map_some,
        Char.ofNat_toNat]

theorem toList_quote (s : String) : (quote s).toList = '"' :: (s.toList.flatMap escape ++ ['"']) := by
  rw [quote, String.toList_ofList]
  rfl

theorem readToken?_quote (s : String) (rest : List Char) :
    readToken? '"' (s.toList.flatMap escape ++ '"' :: rest) = some (.text (some s), rest) := by
  have mark : mark? '"' = none := rfl
  rw [readToken?, mark]
  simp only [if_true, units?_escapeAll, Option.map_some, ofUnits?_toNat, String.ofList_toList]

end ScreenScript.Json
