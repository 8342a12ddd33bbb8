import ScreenScript.Text.Quoted

namespace ScreenScript.Text

/-- The characters after backslashes in quoted text, given the text after the opening quote. -/
def escaped : List Char → List Char
  | [] => []
  | '"' :: _ => []
  | ['\\'] => []
  | '\\' :: c :: cs => c :: escaped cs
  | _ :: cs => escaped cs

variable {escapes escapes' : Escapes} {cs content content' rest rest' : List Char}

theorem count_readQuoted (x : Char) (h : readQuoted escapes cs = some (content, rest))
    (h' : readQuoted escapes' cs = some (content', rest')) :
    content.count x + ((escaped cs).flatMap escapes').count x =
      content'.count x + ((escaped cs).flatMap escapes).count x := by
  fun_induction readQuoted escapes cs generalizing content rest content' rest' with
  | case1 => cases h
  | case2 cs =>
      cases h
      cases h'
      rfl
  | case3 => cases h
  | case4 c cs ih =>
      obtain ⟨⟨inner, after⟩, found, eq⟩ := Option.map_eq_some_iff.1 h
      rw [readQuoted] at h'
      obtain ⟨⟨inner', after'⟩, found', eq'⟩ := Option.map_eq_some_iff.1 h'
      cases eq
      cases eq'
      have later := ih found found'
      simp only [escaped, List.count_append, List.flatMap_cons]
      omega
  | case5 c cs notQuote notLast notEscape ih =>
      obtain ⟨⟨inner, after⟩, found, eq⟩ := Option.map_eq_some_iff.1 h
      rw [readQuoted.eq_5 escapes' c cs notQuote notLast notEscape] at h'
      obtain ⟨⟨inner', after'⟩, found', eq'⟩ := Option.map_eq_some_iff.1 h'
      cases eq
      cases eq'
      have later := ih found found'
      rw [escaped.eq_5 c cs notQuote notLast notEscape]
      simp only [List.count_cons]
      omega

theorem readQuoted_congr (same : ∀ c ∈ escaped cs, escapes c = escapes' c) :
    readQuoted escapes cs = readQuoted escapes' cs := by
  fun_induction readQuoted escapes cs with
  | case1 => rfl
  | case2 cs => rfl
  | case3 => rfl
  | case4 c cs ih =>
      rw [escaped] at same
      rw [readQuoted, ih fun d member => same d (List.mem_cons_of_mem _ member),
        same c List.mem_cons_self]
  | case5 c cs notQuote notLast notEscape ih =>
      rw [escaped.eq_5 c cs notQuote notLast notEscape] at same
      rw [readQuoted.eq_5 escapes' c cs notQuote notLast notEscape, ih same]

theorem readQuoted_append {escapes : Escapes} {content rest : List Char}
    (h : readQuoted escapes cs = some (content, rest)) (more : List Char) :
    readQuoted escapes (cs ++ more) = some (content, rest ++ more) := by
  fun_induction readQuoted escapes cs generalizing content rest with
  | case1 => cases h
  | case2 cs =>
      cases h
      rfl
  | case3 => cases h
  | case4 c cs ih =>
      obtain ⟨⟨inner, after⟩, found, eq⟩ := Option.map_eq_some_iff.1 h
      cases eq
      rw [List.cons_append, List.cons_append, readQuoted, ih found]
      rfl
  | case5 c cs notQuote notLast notEscape ih =>
      obtain ⟨⟨inner, after⟩, found, eq⟩ := Option.map_eq_some_iff.1 h
      cases eq
      have read := ih found
      rw [List.cons_append]
      rw [readQuoted.eq_5 escapes c (cs ++ more) notQuote ?_ ?_, read]
      · rfl
      · rintro rfl none
        cases cs with
        | nil => exact notLast rfl rfl
        | cons d cs => cases none
      · rintro d rest' rfl eq
        cases cs with
        | nil => exact notLast rfl rfl
        | cons e cs => exact notEscape e cs rfl rfl

end ScreenScript.Text
