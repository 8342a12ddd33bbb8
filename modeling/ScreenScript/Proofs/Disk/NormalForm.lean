import ScreenScript.Disk.Path
import ScreenScript.Proofs.Text.Lines

namespace ScreenScript.Path

structure Normal where
  absolute : Bool
  parts : List (List Char)
  deriving DecidableEq

/--
One part further, given the parts so far from the last to the first. There is nothing above the root; what
is above a path that does not start from it is not known.
-/
def enter (absolute : Bool) (back : List (List Char)) (part : List Char) : List (List Char) :=
  if isIdle part then back
  else if part = ['.', '.'] then
    match back with
    | [] => if absolute then [] else [part]
    | last :: before => if last = ['.', '.'] then part :: back else before
  else part :: back

def normal (path : String) : Normal where
  absolute := isAbsolute path
  parts := ((split path.toList).foldl (enter (isAbsolute path)) []).reverse

/-- Whether a path leads from where another one leads further down, to something that has a name there. -/
def IsBelow (directory path : String) : Prop :=
  ∃ names ≠ [], ['.', '.'] ∉ names ∧
    normal path = { normal directory with parts := (normal directory).parts ++ names }

structure IsName (part : List Char) : Prop where
  busy : isIdle part = false
  down : part ≠ ['.', '.']
  single : '/' ∉ part

variable {names : List (List Char)} {directory path : String}

theorem enter_name {part : List Char} (h : IsName part) (absolute : Bool) (back : List (List Char)) :
    enter absolute back part = part :: back := by
  unfold enter
  rw [if_neg (by simp [h.busy]), if_neg h.down]

theorem foldl_enter_names (h : ∀ part ∈ names, IsName part) (absolute : Bool)
    (back : List (List Char)) : names.foldl (enter absolute) back = names.reverse ++ back := by
  induction names generalizing back with
  | nil => rfl
  | cons part rest ih =>
      rw [List.foldl_cons, enter_name (h part List.mem_cons_self),
        ih fun part member => h part (List.mem_cons_of_mem _ member)]
      simp

theorem isAbsolute_iff : isAbsolute path ↔ path.toList.head? = some '/' := by
  rw [isAbsolute, String.startsWith_string_iff, List.head?_eq_some_iff]
  constructor
  · rintro ⟨rest, whole⟩
    exact ⟨rest, whole.symm⟩
  · rintro ⟨rest, whole⟩
    exact ⟨rest, whole.symm⟩

theorem endsWith_iff : path.endsWith "/" ↔ ∃ rest, path.toList = rest ++ ['/'] := by
  rw [← String.endsWith_toSlice, String.Slice.endsWith_string_iff, String.copy_toSlice]
  constructor
  · rintro ⟨rest, whole⟩
    exact ⟨rest, whole.symm⟩
  · rintro ⟨rest, whole⟩
    exact ⟨rest, whole.symm⟩

theorem toList_join (relative : isAbsolute path = false) (some : directory.isEmpty = false) :
    ∃ before, (directory.toList = before ++ ['/'] ∨ directory.toList = before) ∧
      (join directory path).toList = before ++ '/' :: path.toList := by
  rw [join, relative, some, if_neg (by simp)]
  split
  · rename_i closed
    obtain ⟨before, whole⟩ := endsWith_iff.1 closed
    refine ⟨before, .inl whole, ?_⟩
    rw [String.toList_append, whole, List.append_assoc]
    rfl
  · refine ⟨directory.toList, .inr rfl, ?_⟩
    rw [String.toList_append, String.toList_append, List.append_assoc]
    rfl

theorem isAbsolute_join (relative : isAbsolute path = false) :
    isAbsolute (join directory path) = isAbsolute directory := by
  cases empty : directory.isEmpty with
  | true =>
      rw [join, empty, Bool.or_true, if_pos rfl, relative, String.isEmpty_iff.1 empty]
      rfl
  | false =>
      obtain ⟨before, whole, joined⟩ := toList_join relative empty
      have same : (join directory path).toList.head? = directory.toList.head? := by
        have some : directory.toList ≠ [] := by
          rw [Ne, String.toList_eq_nil_iff]
          rintro rfl
          cases empty
        rw [joined]
        rcases whole with closed | unclosed
        · rw [closed]
          cases before <;> rfl
        · rw [unclosed] at some ⊢
          obtain ⟨c, rest, rfl⟩ := List.exists_cons_of_ne_nil some
          rfl
      rw [Bool.eq_iff_iff, isAbsolute_iff, isAbsolute_iff, same]

theorem foldl_enter_join (relative : isAbsolute path = false) (absolute : Bool) :
    (split (join directory path).toList).foldl (enter absolute) [] =
      (split path.toList).foldl (enter absolute) ((split directory.toList).foldl (enter absolute) []) := by
  cases empty : directory.isEmpty with
  | true =>
      rw [join, empty, Bool.or_true, if_pos rfl, String.isEmpty_iff.1 empty]
      rfl
  | false =>
      obtain ⟨before, whole, joined⟩ := toList_join relative empty
      -- A separator at the end of the directory only adds an empty part.
      have same : (split directory.toList).foldl (enter absolute) [] =
          (split before).foldl (enter absolute) [] := by
        rcases whole with closed | unclosed
        · rw [closed, split, Text.split_append_sep, List.foldl_append]
          rfl
        · rw [unclosed]
      rw [joined, split, Text.split_append_sep, List.foldl_append, same]
      rfl

theorem split_names (some : names ≠ []) (h : ∀ part ∈ names, IsName part) :
    split (['/'].intercalate names) = names :=
  Text.split_intercalate (fun part member => (h part member).single) some

theorem isAbsolute_names (some : names ≠ []) (h : ∀ part ∈ names, IsName part) :
    isAbsolute (String.ofList (['/'].intercalate names)) = false := by
  refine Bool.eq_false_iff.2 fun absolute => ?_
  have pieces := split_names some h
  obtain ⟨rest, whole⟩ := List.head?_eq_some_iff.1 (isAbsolute_iff.1 absolute)
  rw [String.toList_ofList] at whole
  -- Its first part would be empty.
  rw [whole, split, Text.split, if_pos rfl] at pieces
  cases (h [] (pieces ▸ List.mem_cons_self)).busy

theorem normal_join (directory : String) (some : names ≠ []) (h : ∀ part ∈ names, IsName part) :
    normal (join directory (String.ofList (['/'].intercalate names))) =
      { normal directory with parts := (normal directory).parts ++ names } := by
  have relative := isAbsolute_names some h
  unfold normal
  rw [isAbsolute_join relative, foldl_enter_join relative, String.toList_ofList, split_names some h,
    foldl_enter_names h, List.reverse_append, List.reverse_reverse]

theorem isBelow_join (directory : String) (some : names ≠ []) (h : ∀ part ∈ names, IsName part) :
    IsBelow directory (join directory (String.ofList (['/'].intercalate names))) :=
  ⟨names, some, fun up => (h _ up).down rfl, normal_join directory some h⟩

end ScreenScript.Path
