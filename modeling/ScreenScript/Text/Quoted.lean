namespace ScreenScript.Text

abbrev Escapes := Char → List Char

/--
The content of quoted text and what follows the closing quote, given the text after the opening
one; `none` without a closing quote.
-/
def readQuoted (escapes : Escapes) : List Char → Option (List Char × List Char)
  | [] => none
  | '"' :: cs => some ([], cs)
  | ['\\'] => none
  | '\\' :: c :: cs =>
    (readQuoted escapes cs).map fun (content, rest) => (escapes c ++ content, rest)
  | c :: cs => (readQuoted escapes cs).map fun (content, rest) => (c :: content, rest)

theorem length_lt_of_readQuoted {escapes : Escapes} {cs content rest : List Char}
    (h : readQuoted escapes cs = some (content, rest)) : rest.length < cs.length := by
  fun_induction readQuoted escapes cs generalizing content rest with
  | case1 => cases h
  | case2 cs =>
    obtain ⟨-, rfl⟩ := Prod.mk.inj (Option.some.inj h)
    simp
  | case3 => cases h
  | case4 c cs ih =>
    obtain ⟨⟨inner, after⟩, found, eq⟩ := Option.map_eq_some_iff.1 h
    obtain ⟨-, rfl⟩ := Prod.mk.inj eq
    have := ih found
    simp only [List.length_cons]
    omega
  | case5 c cs _ _ _ ih =>
    obtain ⟨⟨inner, after⟩, found, eq⟩ := Option.map_eq_some_iff.1 h
    obtain ⟨-, rfl⟩ := Prod.mk.inj eq
    have := ih found
    simp only [List.length_cons]
    omega

end ScreenScript.Text
