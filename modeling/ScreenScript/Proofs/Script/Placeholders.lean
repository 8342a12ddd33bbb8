import ScreenScript.Proofs.Except
import ScreenScript.Proofs.Script.QuotedText

namespace ScreenScript.Phrase

variable {raw : String} {run cs : List Char} {segments : List Segment}

theorem isBrace_of_isNameChar {c : Char} (h : isNameChar c) : isBrace c = false := by
  have ne (brace : Char) (other : isNameChar brace = false) : c ≠ brace := by
    rintro rfl
    rw [other] at h
    cases h
  simp [isBrace, ne '\x7b' (by decide), ne '\x7d' (by decide)]

theorem placeholder?_name {name : List Char} (h : isNameChars name) (rest : List Char) :
    placeholder? (name ++ '\x7d' :: rest) = some (name, rest) := by
  have inside (c : Char) (member : c ∈ name) : (!isBrace c) = true := by
    rw [isBrace_of_isNameChar (isNameChar_of_mem h member)]
    rfl
  unfold placeholder?
  rw [List.dropWhile_append_of_pos inside, List.takeWhile_append_of_pos inside]
  simp [isBrace]

theorem trim_name {name : List Char} (h : isNameChars name) : Text.trim name = name := by
  have plain : ∀ c ∈ name, Text.isBlank c = false :=
    fun c member => not_isBlank_of_isNameChar (isNameChar_of_mem h member)
  obtain ⟨c, rest, rfl, -⟩ := exists_name_eq_cons h
  rw [Text.trim_cons (plain c List.mem_cons_self), Text.trimEnd_of_forall fun d member =>
    plain d (List.mem_cons_of_mem _ member)]

theorem readSegments_cons {c : Char} (plain : ∀ rest, c :: cs ≠ '$' :: '\x7b' :: rest) :
    readSegments raw run (c :: cs) = readSegments raw (c :: run) cs := by
  rw [readSegments]
  intro rest dollar
  rintro rfl
  exact plain rest (by rw [dollar])

def chars (segments : List Segment) : List Char :=
  (String.join (segments.map Segment.written)).toList

theorem chars_literalSegment_append (cs : List Char) (segments : List Segment) :
    chars (literalSegment cs ++ segments) = cs ++ chars segments := by
  unfold literalSegment
  split
  · rename_i empty
    rw [List.isEmpty_iff.1 empty]
    rfl
  · simp [chars, Segment.written]

theorem chars_reference (name : String) (segments : List Segment) :
    chars (.reference name :: segments) =
      '$' :: '\x7b' :: (name.toList ++ '\x7d' :: chars segments) := by
  simp [chars, Segment.written]

theorem exists_chars_of_readSegments (raw' : String) (h : readSegments raw run cs = .ok segments) :
    ∃ written, chars segments = run.reverse ++ written ∧ written.head? = cs.head? ∧
      readSegments raw' run written = .ok segments := by
  fun_induction readSegments raw run cs generalizing segments with
  | case1 run =>
      cases h
      refine ⟨[], ?_, rfl, ?_⟩
      · simpa [chars] using chars_literalSegment_append run.reverse []
      · rw [readSegments]
  | case2 => cases h
  | case3 run cs content rest found name isName =>
      rename_i ih
      obtain ⟨later, read, h⟩ := Except.bind_eq_ok_iff.1 h
      cases h
      obtain ⟨written, same, -, again⟩ := ih read
      refine ⟨'$' :: '\x7b' :: (name.toList ++ '\x7d' :: written), ?_, rfl, ?_⟩
      · rw [chars_literalSegment_append, chars_reference, same]
        rfl
      · have named : isNameChars name.toList = true := isName
        have trimmed : String.ofList (Text.trim name.toList) = name := by
          rw [trim_name named, String.ofList_toList]
        rw [readSegments, placeholder?_name named]
        simp only [trimmed, isName, if_true, again]
        rfl
  | case4 => cases h
  | case5 run c cs plain ih =>
      obtain ⟨written, same, head, again⟩ := ih h
      refine ⟨c :: written, ?_, rfl, ?_⟩
      · rw [same, List.reverse_cons, List.append_assoc]
        rfl
      · rw [readSegments_cons, again]
        rintro rest ⟨rfl, rfl⟩
        rw [List.head?_cons] at head
        cases cs with
        | nil => cases head
        | cons d cs =>
            cases head
            exact plain cs rfl rfl

theorem parse_written {p : Phrase} (h : parse raw = .ok p) : parse p.written = .ok p := by
  obtain ⟨segments, read, h⟩ := Except.bind_eq_ok_iff.1 h
  cases h
  obtain ⟨written, same, -, again⟩ :=
    exists_chars_of_readSegments (Phrase.written ⟨segments⟩) read
  have whole : (Phrase.written ⟨segments⟩).toList = written := same
  rw [parse, whole, again]
  rfl

end ScreenScript.Phrase
