import ScreenScript.Proofs.Except
import ScreenScript.Proofs.Text.Trim
import ScreenScript.Script.Word

namespace ScreenScript.Word

theorem ofLine_of_isBlank {c : Char} (h : Text.isBlank c) (cs : List Char) :
    ofLine (c :: cs) = ofLine cs := by
  rw [ofLine, dif_pos h]

theorem ofLine_of_read {c : Char} {cs rest : List Char} {word : Word}
    (plain : Text.isBlank c = false) (ne : c ≠ '#') (h : read (c :: cs) = .ok (word, rest)) :
    ofLine (c :: cs) = (ofLine rest).map (word :: ·) := by
  rw [ofLine, dif_neg (by simp [plain]), if_neg ne]
  split
  · rename_i found
    cases h.symm.trans found
    rfl
  · rename_i found
    cases h.symm.trans found

theorem ofLine_of_read_error {c : Char} {cs : List Char} {fault : Fault}
    (plain : Text.isBlank c = false) (ne : c ≠ '#') (h : read (c :: cs) = .error fault) :
    ofLine (c :: cs) = .error fault := by
  rw [ofLine, dif_neg (by simp [plain]), if_neg ne]
  split
  · rename_i found
    cases h.symm.trans found
  · rename_i found
    cases h.symm.trans found
    rfl

theorem ofLine_ne_nil {c : Char} (plain : Text.isBlank c = false) (ne : c ≠ '#') (cs : List Char) :
    ofLine (c :: cs) ≠ .ok [] := by
  cases found : read (c :: cs) with
  | error fault =>
      rw [ofLine_of_read_error plain ne found]
      exact nofun
  | ok taken =>
      obtain ⟨word, rest⟩ := taken
      rw [ofLine_of_read plain ne found]
      cases ofLine rest <;> exact nofun

theorem ofLine_trimStart (cs : List Char) : ofLine (Text.trimStart cs) = ofLine cs := by
  induction cs with
  | nil => rfl
  | cons c cs ih =>
      cases h : Text.isBlank c with
      | true => rw [Text.trimStart_of_isBlank h, ofLine_of_isBlank h, ih]
      | false => rw [Text.trimStart_of_not_isBlank h]

def isPlain (c : Char) : Bool :=
  !endsBare c && c ≠ '$'

theorem splitBare_append {word rest : List Char} (plain : word.all isPlain)
    (stop : ∀ c, rest.head? = some c → endsBare c) : splitBare (word ++ rest) = .ok (word, rest) := by
  induction word with
  | nil =>
      cases rest with
      | nil => rw [List.nil_append, splitBare]
      | cons c rest =>
          have ends := stop c rfl
          have notDollar : c ≠ '$' := by
            rintro rfl
            cases ends
          rw [List.nil_append, splitBare.eq_3 c rest fun _ h => absurd h notDollar, if_pos ends]
  | cons c word ih =>
      rw [List.all_cons, Bool.and_eq_true] at plain
      obtain ⟨here, later⟩ := plain
      simp only [isPlain, Bool.and_eq_true, Bool.not_eq_true', decide_eq_true_eq] at here
      rw [List.cons_append, splitBare.eq_3 c _ fun _ h => absurd h here.2, here.1,
        if_neg Bool.false_ne_true, ih later]

theorem read_of_notMem {c : Char} (first : c ∉ ['\x7b', '\x7d', '"']) (cs : List Char) :
    read (c :: cs) = match splitBare (c :: cs) with
      | .error word => .error (.unterminatedPlaceholder (String.ofList word))
      | .ok (word, '"' :: rest) =>
        match key? word with
        | none => .error (.strayQuote (String.ofList word))
        | some key =>
          match Text.readQuoted escapes rest with
          | some (content, rest) => .ok (.named (String.ofList key) (String.ofList content), rest)
          | none => .error .unterminatedString
      | .ok (word, rest) => .ok (ofBare word, rest) := by
  simp only [List.mem_cons, List.not_mem_nil, or_false, not_or] at first
  exact read.eq_4 (c :: cs) (fun _ eq => first.1 (List.cons.inj eq).1)
    (fun _ eq => first.2.1 (List.cons.inj eq).1) fun _ eq => first.2.2 (List.cons.inj eq).1

theorem read_of_splitBare {c : Char} {cs word rest : List Char}
    (first : c ∉ ['\x7b', '\x7d', '"']) (split : splitBare (c :: cs) = .ok (word, rest))
    (stop : rest.head? ≠ some '"') : read (c :: cs) = .ok (ofBare word, rest) := by
  rw [read_of_notMem first, split]
  split
  · rename_i eq
    cases eq
  · rename_i eq
    cases eq
    exact absurd rfl stop
  · rename_i eq
    cases eq
    rfl

theorem read_bare {c : Char} {word rest : List Char} (plain : (c :: word).all isPlain)
    (stop : ∀ d, rest.head? = some d → Text.isBlank d) :
    read (c :: word ++ rest) = .ok (ofBare (c :: word), rest) := by
  have ends : ∀ d, rest.head? = some d → endsBare d := by
    intro d first
    simp [endsBare, stop d first]
  have first := List.all_eq_true.1 plain c List.mem_cons_self
  simp only [isPlain, endsBare, Bool.and_eq_true, Bool.not_eq_true', Bool.or_eq_false_iff,
    decide_eq_false_iff_not] at first
  obtain ⟨⟨⟨⟨-, notOpening⟩, notClosing⟩, notQuote⟩, -⟩ := first
  refine read_of_splitBare (by simp [notOpening, notClosing, notQuote]) (splitBare_append plain ends) ?_
  intro quote
  cases stop _ quote

theorem ofLine_bare {c : Char} {word rest : List Char} (ne : c ≠ '#')
    (plain : (c :: word).all isPlain) (stop : ∀ d, rest.head? = some d → Text.isBlank d) :
    ofLine (c :: word ++ rest) = (ofLine rest).map (ofBare (c :: word) :: ·) := by
  have first := List.all_eq_true.1 plain c List.mem_cons_self
  simp only [isPlain, endsBare, Bool.and_eq_true, Bool.not_eq_true', Bool.or_eq_false_iff] at first
  exact ofLine_of_read first.1.1.1.1 ne (read_bare plain stop)

theorem read_quoted (cs : List Char) :
    read ('"' :: cs) = match Text.readQuoted escapes cs with
      | some (content, rest) => .ok (.quoted (String.ofList content), rest)
      | none => .error .unterminatedString :=
  rfl

theorem ofLine_quoted {cs : List Char} {words : List Word} (h : ofLine ('"' :: cs) = .ok words) :
    ∃ content rest later, Text.readQuoted escapes cs = some (content, rest) ∧
      words = .quoted (String.ofList content) :: later := by
  have plain : Text.isBlank '"' = false := by decide
  cases quoted : Text.readQuoted escapes cs with
  | none =>
      have first := read_quoted cs
      rw [quoted] at first
      rw [ofLine_of_read_error plain (by decide) first] at h
      cases h
  | some found =>
      obtain ⟨content, rest⟩ := found
      have first := read_quoted cs
      rw [quoted] at first
      rw [ofLine_of_read plain (by decide) first] at h
      cases later : ofLine rest with
      | error fault =>
          rw [later] at h
          cases h
      | ok later' =>
          rw [later] at h
          cases h
          exact ⟨content, rest, later', rfl, rfl⟩

theorem endsBare_of_splitBare {cs word rest : List Char} (h : splitBare cs = .ok (word, rest)) :
    ∀ c, rest.head? = some c → endsBare c := by
  fun_induction splitBare cs generalizing word rest with
  | case1 =>
      cases h
      rintro c ⟨⟩
  | case2 => cases h
  | case3 cs close tail found inner after split ih =>
      cases h
      exact ih split
  | case4 => cases h
  | case5 c cs _ ends =>
      cases h
      rintro _ ⟨⟩
      exact ends
  | case6 c cs _ _ inner after split ih =>
      cases h
      exact ih split
  | case7 => cases h

theorem eq_of_ofBare_eq_bare {word : List Char} {text : String} (h : ofBare word = .bare text) :
    word = text.toList := by
  unfold ofBare at h
  split at h
  · split at h
    · cases h
    · cases h
      rw [String.toList_ofList]
  · cases h
    rw [String.toList_ofList]

theorem splitBare_of_read {cs rest : List Char} {text : String} (h : read cs = .ok (.bare text, rest)) :
    splitBare cs = .ok (text.toList, rest) := by
  unfold read at h
  split at h
  · cases h
  · cases h
  · split at h
    · cases h
    · cases h
  · split at h
    · cases h
    · split at h
      · cases h
      split at h
      · cases h
      · cases h
    · rename_i word rest' _ split
      obtain ⟨bare, same⟩ := Prod.mk.inj (Except.ok.inj h)
      rw [split, same, eq_of_ofBare_eq_bare bare]

theorem exists_bare_of_ofLine {cs : List Char} {text : String} {words : List Word}
    (h : ofLine cs = .ok (.bare text :: words)) :
    ∃ rest, Text.trimStart cs = text.toList ++ rest ∧ ∀ c, rest.head? = some c → endsBare c := by
  fun_induction ofLine cs with
  | case1 => cases h
  | case2 c cs blank ih =>
      rw [Text.trimStart_of_isBlank blank]
      exact ih h
  | case3 => cases h
  | case4 c cs plain ne word rest found ih =>
      obtain ⟨later, -, h⟩ := Except.bind_eq_ok_iff.1 h
      cases h
      have split := splitBare_of_read found
      rw [Text.trimStart_of_not_isBlank (by simpa using plain)]
      exact ⟨rest, (append_of_splitBare split).symm, endsBare_of_splitBare split⟩
  | case5 => cases h

end ScreenScript.Word
