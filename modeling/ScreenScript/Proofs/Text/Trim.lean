import Mathlib.Data.List.DropRight
import ScreenScript.Text.Characters

namespace ScreenScript.Text

variable {c : Char}

theorem trimStart_of_not_isBlank (h : isBlank c = false) (cs : List Char) :
    trimStart (c :: cs) = c :: cs := by
  rw [trimStart, List.dropWhile_cons_of_neg (by simp [h])]

theorem trimStart_of_isBlank (h : isBlank c) (cs : List Char) :
    trimStart (c :: cs) = trimStart cs := by
  rw [trimStart, List.dropWhile_cons_of_pos h, trimStart]

theorem trimEnd_append_cons (h : isBlank c = false) (before after : List Char) :
    trimEnd (before ++ c :: after) = before ++ c :: trimEnd after := by
  have whole : (before ++ c :: after).reverse = after.reverse ++ c :: before.reverse := by simp
  have stop : (c :: before.reverse).dropWhile isBlank = c :: before.reverse :=
    List.dropWhile_cons_of_neg (by simp [h])
  rw [trimEnd, whole, List.dropWhile_append, stop, trimEnd]
  split
  · rename_i blank
    rw [List.isEmpty_iff.1 blank]
    simp
  · simp

theorem trimEnd_cons (h : isBlank c = false) (cs : List Char) :
    trimEnd (c :: cs) = c :: trimEnd cs :=
  trimEnd_append_cons h [] cs

theorem trim_cons (h : isBlank c = false) (cs : List Char) : trim (c :: cs) = c :: trimEnd cs := by
  rw [trim, trimStart_of_not_isBlank h, trimEnd_cons h]

theorem trimEnd_cons_of_isBlank (h : isBlank c) (cs : List Char) :
    trimEnd (c :: cs) = if trimEnd cs = [] then [] else c :: trimEnd cs := by
  have blank : [c].dropWhile isBlank = [] := by
    rw [List.dropWhile_cons_of_pos h, List.dropWhile_nil]
  rw [trimEnd, List.reverse_cons, List.dropWhile_append, blank, trimEnd]
  cases h : cs.reverse.dropWhile isBlank with
  | nil => simp
  | cons d ds => simp

theorem trimEnd_trimEnd (cs : List Char) : trimEnd (trimEnd cs) = trimEnd cs := by
  rw [trimEnd, trimEnd, List.reverse_reverse, List.dropWhile_idempotent]

theorem trimStart_trimEnd (cs : List Char) : trimStart (trimEnd cs) = trim cs := by
  induction cs with
  | nil => rfl
  | cons c cs ih =>
      cases h : isBlank c with
      | false => rw [trim_cons h, trimEnd_cons h, trimStart_of_not_isBlank h]
      | true =>
          have rest : trim (c :: cs) = trim cs := by rw [trim, trimStart_of_isBlank h, trim]
          rw [rest, ← ih, trimEnd_cons_of_isBlank h]
          split
          · rename_i none
            rw [none]
          · rw [trimStart_of_isBlank h]

theorem not_isBlank_of_trim_eq_cons {cs rest : List Char} (h : trim cs = c :: rest) :
    isBlank c = false := by
  rw [← trimStart_trimEnd, trimStart] at h
  have first := List.head?_dropWhile_not isBlank (trimEnd cs)
  rwa [h] at first

theorem exists_trimEnd_append (cs : List Char) :
    ∃ blanks, (∀ c ∈ blanks, isBlank c) ∧ cs = trimEnd cs ++ blanks := by
  refine ⟨(cs.reverse.takeWhile isBlank).reverse, fun c member => ?_, ?_⟩
  · exact List.mem_takeWhile_imp (List.mem_reverse.1 member)
  · rw [trimEnd, ← List.reverse_append, List.takeWhile_append_dropWhile, List.reverse_reverse]

theorem trimStart_append {cs : List Char} (h : trimStart cs ≠ []) (more : List Char) :
    trimStart (cs ++ more) = trimStart cs ++ more := by
  have some : (cs.dropWhile isBlank).isEmpty = false := List.isEmpty_eq_false_iff.2 h
  rw [trimStart, List.dropWhile_append, some, if_neg Bool.false_ne_true, trimStart]

theorem trimEnd_append {more : List Char} (h : trimEnd more ≠ []) (cs : List Char) :
    trimEnd (cs ++ more) = cs ++ trimEnd more := by
  have last : (more.reverse.dropWhile isBlank).isEmpty = false := by
    rw [List.isEmpty_eq_false_iff]
    rintro none
    exact h (by rw [trimEnd, none, List.reverse_nil])
  rw [trimEnd, List.reverse_append, List.dropWhile_append, last, if_neg Bool.false_ne_true,
    List.reverse_append, List.reverse_reverse, trimEnd]

theorem count_trimStart {x : Char} (h : isBlank x = false) (cs : List Char) :
    (trimStart cs).count x = cs.count x := by
  have whole := congrArg (List.count x) (List.takeWhile_append_dropWhile (p := isBlank) (l := cs))
  have blanks : (cs.takeWhile isBlank).count x = 0 := by
    refine List.count_eq_zero.2 fun member => ?_
    rw [List.all_eq_true.1 List.all_takeWhile x member] at h
    cases h
  rwa [List.count_append, blanks, Nat.zero_add] at whole

theorem count_trim {x : Char} (h : isBlank x = false) (cs : List Char) :
    (trim cs).count x = cs.count x := by
  have last := count_trimStart h (trimStart cs).reverse
  rw [trim, trimEnd, List.count_reverse]
  rw [trimStart, List.count_reverse] at last
  rw [last, count_trimStart h]

end ScreenScript.Text
