import ScreenScript.Proofs.Script.Words
import ScreenScript.Script.Line

namespace ScreenScript

section Name

variable {name : List Char} {c : Char}

theorem isNameChar_of_mem (h : isNameChars name) (member : c ∈ name) : isNameChar c := by
  cases name with
  | nil => cases h
  | cons first rest =>
      obtain ⟨start, later⟩ := Bool.and_eq_true_iff.1 h
      rcases List.mem_cons.1 member with rfl | member
      · unfold isNameStart at start
        unfold isNameChar Char.isAlphanum
        rcases Bool.or_eq_true_iff.1 start with alpha | underscore
        · rw [alpha]
          rfl
        · rw [underscore, Bool.or_true]
      · exact List.all_eq_true.1 later c member

theorem not_isBlank_of_isNameChar (h : isNameChar c) : Text.isBlank c = false := by
  have range : 48 ≤ c.toNat ∧ c.toNat ≤ 122 := by
    change (((decide (65 ≤ c.val ∧ c.val ≤ 90)) || (decide (97 ≤ c.val) && decide (c.val ≤ 122))) ||
      (decide (48 ≤ c.val) && decide (c.val ≤ 57))) || decide (c = '_') at h
    simp only [Bool.or_eq_true, Bool.and_eq_true, decide_eq_true_eq, UInt32.le_iff_toNat_le] at h
    change (((65 ≤ c.toNat ∧ c.toNat ≤ 90) ∨ (97 ≤ c.toNat ∧ c.toNat ≤ 122)) ∨
      (48 ≤ c.toNat ∧ c.toNat ≤ 57)) ∨ c = '_' at h
    rcases h with ((upper | lower) | digit) | rfl
    · omega
    · omega
    · omega
    · decide
  simp only [Text.isBlank, Text.blankRanges, List.any_cons, List.any_nil, Bool.or_false,
    Bool.or_eq_false_iff, Bool.and_eq_false_iff, decide_eq_false_iff_not]
  omega

theorem exists_name_eq_cons (h : isNameChars name) : ∃ c rest, name = c :: rest ∧ isNameChar c := by
  cases name with
  | nil => cases h
  | cons c rest => exact ⟨c, rest, rfl, isNameChar_of_mem h List.mem_cons_self⟩

theorem isPlain_of_isNameChar (h : isNameChar c) : Word.isPlain c := by
  have ne {d : Char} (notName : isNameChar d = false) : c ≠ d := by
    rintro rfl
    rw [notName] at h
    cases h
  simp [Word.isPlain, Word.endsBare, not_isBlank_of_isNameChar h,
    ne (d := '\x7b') (by decide), ne (d := '\x7d') (by decide), ne (d := '"') (by decide),
    ne (d := '$') (by decide)]

end Name

namespace Command

theorem ofWord?_word (command : Command) : ofWord? command.word = some command := by
  cases command <;> decide

theorem isReserved_word (command : Command) : isReserved command.word = true := by
  rw [isReserved, ofWord?_word]
  rfl

theorem forall_word (command : Command) : ∀ c ∈ command.word.toList, isNameChar c := by
  have all : command.word.toList.all isNameChar = true := by cases command <;> rfl
  exact List.all_eq_true.1 all

end Command

namespace Text

theorem trimEnd_of_forall {cs : List Char} (h : ∀ c ∈ cs, isBlank c = false) : trimEnd cs = cs := by
  rcases List.eq_nil_or_concat cs with rfl | ⟨init, last, rfl⟩
  · rfl
  · rw [List.concat_eq_append] at h ⊢
    exact trimEnd_append_cons (h last (by simp)) init []

theorem trimEnd_append_blank {cs : List Char} {blank : Char} (h : isBlank blank) :
    trimEnd (cs ++ [blank]) = trimEnd cs := by
  simp [trimEnd, List.dropWhile_cons_of_pos h]

theorem splitFirst_append {isSep : Char → Bool} {before : List Char}
    (h : ∀ c ∈ before, isSep c = false) (cs : List Char) :
    splitFirst isSep (before ++ cs) =
      (splitFirst isSep cs).map fun (more, after) => (before ++ more, after) := by
  induction before with
  | nil => simp
  | cons c before ih =>
      rw [List.cons_append, splitFirst, if_neg (by simp [h c List.mem_cons_self]),
        ih fun d member => h d (List.mem_cons_of_mem _ member), Option.map_map]
      rfl

theorem splitFirst_append_of_some {isSep : Char → Bool} {before after : List Char}
    (h : splitFirst isSep cs = some (before, after)) (more : List Char) :
    splitFirst isSep (cs ++ more) = some (before, after ++ more) := by
  induction cs generalizing before with
  | nil => cases h
  | cons c cs ih =>
      rw [List.cons_append, splitFirst]
      rw [splitFirst] at h
      split
      · rename_i sep
        rw [if_pos sep] at h
        cases h
        rfl
      · rename_i other
        rw [if_neg other] at h
        obtain ⟨⟨first, rest⟩, found, eq⟩ := Option.map_eq_some_iff.1 h
        cases eq
        rw [ih found]
        rfl

theorem forall_of_splitFirst_eq_none {isSep : Char → Bool} (h : splitFirst isSep cs = none) :
    ∀ c ∈ cs, isSep c = false := by
  induction cs with
  | nil => exact fun c member => nomatch member
  | cons c cs ih =>
      rw [splitFirst] at h
      split at h
      · cases h
      · rename_i other
        rw [Option.map_eq_none_iff] at h
        exact List.forall_mem_cons.2 ⟨Bool.eq_false_iff.2 other, ih h⟩

theorem append_of_splitFirst {isSep : Char → Bool} {cs before after : List Char}
    (h : splitFirst isSep cs = some (before, after)) :
    ∃ sep, isSep sep ∧ cs = before ++ sep :: after ∧ ∀ c ∈ before, isSep c = false := by
  induction cs generalizing before with
  | nil => cases h
  | cons c cs ih =>
      rw [splitFirst] at h
      split at h
      · rename_i sep
        cases h
        exact ⟨c, sep, rfl, nofun⟩
      · rename_i other
        obtain ⟨⟨first, rest⟩, found, eq⟩ := Option.map_eq_some_iff.1 h
        cases eq
        obtain ⟨sep, holds, rfl, plain⟩ := ih found
        exact ⟨sep, holds, rfl, List.forall_mem_cons.2 ⟨Bool.eq_false_iff.2 other, plain⟩⟩

end Text

namespace Line

variable {name : List Char}

theorem trim_name (named : isNameChars name) : Text.trim (name ++ [' ']) = name := by
  have plain : ∀ c ∈ name, Text.isBlank c = false :=
    fun c member => not_isBlank_of_isNameChar (isNameChar_of_mem named member)
  obtain ⟨c, rest, rfl, -⟩ := exists_name_eq_cons named
  rw [List.cons_append, Text.trim_cons (plain c List.mem_cons_self),
    Text.trimEnd_append_blank (by decide),
    Text.trimEnd_of_forall fun d member => plain d (List.mem_cons_of_mem _ member)]

theorem splitAssignment_of_cut {cs before after : List Char}
    (cut : Text.splitFirst (· = '=') cs = some (before, after)) :
    splitAssignment cs = if isNameChars (Text.trim before) && after.head? ≠ some '=' then
      some (String.ofList (Text.trim before), Text.trim after) else none := by
  rw [splitAssignment, cut]
  rfl

theorem exists_cut_of_splitAssignment {cs source : List Char} {name : String}
    (h : splitAssignment cs = some (name, source)) :
    ∃ before after, Text.splitFirst (· = '=') cs = some (before, after) ∧
      isNameChars (Text.trim before) ∧ name = String.ofList (Text.trim before) := by
  cases cut : Text.splitFirst (· = '=') cs with
  | none =>
      rw [splitAssignment, cut] at h
      cases h
  | some pieces =>
      obtain ⟨before, after⟩ := pieces
      rw [splitAssignment_of_cut cut] at h
      split at h
      · rename_i named
        cases h
        exact ⟨before, after, rfl, (Bool.and_eq_true_iff.1 named).1, rfl⟩
      · cases h

theorem isName_of_splitAssignment {cs source : List Char} {name : String}
    (h : splitAssignment cs = some (name, source)) : isName name := by
  obtain ⟨before, after, -, named, rfl⟩ := exists_cut_of_splitAssignment h
  rwa [isName, String.toList_ofList]

theorem splitAssignment_name (named : isNameChars name) {source : List Char}
    (h : source.head? ≠ some '=') :
    splitAssignment (name ++ ' ' :: '=' :: source) = some (String.ofList name, Text.trim source) := by
  have before : ∀ c ∈ name ++ [' '], (decide (c = '=')) = false := by
    intro c member
    rcases List.mem_append.1 member with inside | blank
    · have nameChar := isNameChar_of_mem named inside
      rw [decide_eq_false_iff_not]
      rintro rfl
      cases nameChar
    · cases List.mem_singleton.1 blank
      rfl
  have whole : name ++ ' ' :: '=' :: source = (name ++ [' ']) ++ '=' :: source := by simp
  have cut : Text.splitFirst (· = '=') ('=' :: source) = some ([], source) := rfl
  rw [splitAssignment, whole, Text.splitFirst_append before, cut]
  simp only [Option.map_some, List.append_nil, Option.bind_eq_bind, Option.bind_some, trim_name named,
    named, Bool.true_and, decide_eq_true_eq]
  rw [if_pos h]
  rfl

def assigning (name source : List Char) : List Char :=
  name ++ " = ".toList ++ source

def assignedPart (source : List Char) : List Char :=
  Text.trimEnd (' ' :: source)

theorem assignedPart_eq (source : List Char) :
    assignedPart source = [] ∨ assignedPart source = ' ' :: Text.trimEnd source := by
  rw [assignedPart, Text.trimEnd_cons_of_isBlank (by decide)]
  split
  · exact .inl rfl
  · exact .inr rfl

theorem trimStart_assignedPart (source : List Char) :
    Text.trimStart (assignedPart source) = Text.trim source := by
  rw [assignedPart, Text.trimStart_trimEnd, Text.trim, Text.trimStart_of_isBlank (by decide), Text.trim]

theorem trim_assigning (named : isNameChars name) (source : List Char) :
    Text.trim (assigning name source) = name ++ ' ' :: '=' :: assignedPart source := by
  obtain ⟨c, rest, rfl, nameChar⟩ := exists_name_eq_cons named
  have whole : assigning (c :: rest) source = c :: ((rest ++ [' ']) ++ '=' :: ' ' :: source) := by
    simp [assigning]
  rw [whole, Text.trim_cons (not_isBlank_of_isNameChar nameChar),
    Text.trimEnd_append_cons (by decide), assignedPart]
  simp

theorem splitAssignment_assignedPart (named : isNameChars name) (source : List Char) :
    splitAssignment (name ++ ' ' :: '=' :: assignedPart source) =
      some (String.ofList name, Text.trim source) := by
  have noSign : (assignedPart source).head? ≠ some '=' := by
    rcases assignedPart_eq source with none | some
    · simp [none]
    · simp [some]
  have trimmed : Text.trim (assignedPart source) = Text.trim source := by
    rw [← Text.trimStart_trimEnd, assignedPart, Text.trimEnd_trimEnd, ← assignedPart,
      trimStart_assignedPart]
  rw [splitAssignment_name named noSign, trimmed]

theorem assignment?_assigning (named : isNameChars name)
    (free : Command.isReserved (String.ofList name) = false) (source : List Char) :
    assignment? (Text.trim (assigning name source)) =
      some (String.ofList name, Text.trim source) := by
  rw [trim_assigning named, assignment?, splitAssignment_assignedPart named]
  simp [free]

theorem splitAssignment_words {c blank d : Char} {word rest : List Char}
    (plain : Text.isBlank c = false) (noSign : '=' ∉ c :: word) (h : Text.isBlank blank)
    (plain' : Text.isBlank d = false) (ne : d ≠ '=') :
    splitAssignment (c :: word ++ blank :: d :: rest) = none := by
  have notSign : blank ≠ '=' := by
    rintro rfl
    cases h
  have before : ∀ x ∈ c :: word ++ [blank, d], (decide (x = '=')) = false := by
    intro x member
    rw [decide_eq_false_iff_not]
    rintro rfl
    simp only [List.mem_append, List.mem_cons, List.not_mem_nil, or_false] at member
    rcases member with inside | here | here
    · exact noSign (List.mem_cons.2 inside)
    · exact notSign here.symm
    · exact ne here.symm
  have whole : c :: word ++ blank :: d :: rest = (c :: word ++ [blank, d]) ++ rest := by simp
  rw [splitAssignment, whole, Text.splitFirst_append before]
  cases Text.splitFirst (· = '=') rest with
  | none => rfl
  | some pieces =>
      obtain ⟨more, after⟩ := pieces
      -- Whatever stands before the sign has the blank inside, so it is no name.
      have kept : c :: word ++ [blank, d] ++ more = c :: (word ++ [blank]) ++ d :: more := by simp
      have trimmed : Text.trim (c :: word ++ [blank, d] ++ more) =
          c :: (word ++ [blank]) ++ d :: Text.trimEnd more := by
        rw [kept, List.cons_append, Text.trim_cons plain, Text.trimEnd_append_cons plain']
        rfl
      have unnamed : isNameChars (c :: (word ++ [blank]) ++ d :: Text.trimEnd more) = false := by
        refine Bool.eq_false_iff.2 fun named => ?_
        have inside : blank ∈ c :: (word ++ [blank]) ++ d :: Text.trimEnd more := by simp
        rw [not_isBlank_of_isNameChar (isNameChar_of_mem named inside)] at h
        cases h
      simp only [Option.map_some, Option.bind_eq_bind, Option.bind_some, trimmed, unnamed,
        Bool.false_and, Bool.false_eq_true, if_false]

theorem eq_of_append_eq {name' rest rest' : List Char} (named : ∀ c ∈ name, isNameChar c)
    (stop : ∀ c, rest.head? = some c → isNameChar c = false) (named' : ∀ c ∈ name', isNameChar c)
    (stop' : ∀ c, rest'.head? = some c → isNameChar c = false) (h : name ++ rest = name' ++ rest') :
    name = name' := by
  have first {cs : List Char} (stop : ∀ c, cs.head? = some c → isNameChar c = false) :
      cs.takeWhile isNameChar = [] := by
    cases cs with
    | nil => rfl
    | cons c cs => rw [List.takeWhile_cons_of_neg (by simp [stop c rfl])]
  have taken := congrArg (List.takeWhile isNameChar) h
  rwa [List.takeWhile_append_of_pos named, List.takeWhile_append_of_pos named', first stop, first stop',
    List.append_nil, List.append_nil] at taken

theorem assignment?_of_command {cs : List Char} {command : Command} {words : List Word}
    (h : Word.ofLine cs = .ok (.bare command.word :: words)) : assignment? cs = none := by
  rw [assignment?, Option.filter_eq_none_iff]
  rintro ⟨name, source⟩ assigned
  obtain ⟨before, after, cut, named, rfl⟩ := exists_cut_of_splitAssignment assigned
  obtain ⟨sign, isSign, rfl, -⟩ := Text.append_of_splitFirst cut
  obtain ⟨tail, start, stop⟩ := Word.exists_bare_of_ofLine h
  obtain ⟨blanks, blank, whole⟩ := Text.exists_trimEnd_append (Text.trimStart before)
  rw [← Text.trim] at whole
  have some : Text.trimStart before ≠ [] := by
    intro none
    rw [Text.trim, none] at named
    cases named
  rw [Text.trimStart_append some, whole, List.append_assoc] at start
  -- The name ends where the command does: neither a blank nor the sign belongs to a name.
  have same : Text.trim before = command.word.toList := by
    refine eq_of_append_eq (fun c => isNameChar_of_mem named) ?_ command.forall_word ?_ start
    · intro c first
      cases blanks with
      | nil =>
          cases first
          obtain rfl : sign = '=' := by simpa using isSign
          rfl
      | cons d blanks =>
          cases first
          exact Bool.eq_false_iff.2 fun nameChar => absurd (blank c List.mem_cons_self)
            (by simp [not_isBlank_of_isNameChar nameChar])
    · intro c first
      refine Bool.eq_false_iff.2 fun nameChar => ?_
      have plain := isPlain_of_isNameChar nameChar
      simp [Word.isPlain, stop c first] at plain
  rw [same, String.ofList_toList]
  simp [command.isReserved_word]

theorem read_of_command {base : Policy} {cs : List Char} {command : Command} {words : List Word}
    (h : Word.ofLine cs = .ok (.bare command.word :: words)) :
    read base cs = { role := .ordinary, content := ofWords base command.word words } := by
  have notElse : command.word ≠ Command.otherwise := by cases command <;> decide
  have notDeclare : command.word ≠ Command.declare := by cases command <;> decide
  rw [read, assignment?_of_command h, h]
  dsimp only
  rw [if_neg notElse, if_neg notDeclare]

theorem content_of_command {base : Policy} {cs : List Char} {command : Command} {words : List Word}
    (h : Word.ofLine cs = .ok (.bare command.word :: words)) :
    (read base cs).content = ofWords base command.word words := by
  rw [read_of_command h]

end Line

end ScreenScript
