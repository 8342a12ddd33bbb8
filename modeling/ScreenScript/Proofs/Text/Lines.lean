import ScreenScript.Text.Lines

namespace ScreenScript.Text

variable {sep c : Char} {cs piece line : List Char} {list : List (List Char)}

theorem notMem_of_mem_split (h : piece ∈ split sep cs) : sep ∉ piece := by
  induction cs generalizing piece with
  | nil =>
      cases List.mem_singleton.1 h
      exact List.not_mem_nil
  | cons c cs ih =>
      unfold split at h
      by_cases same : c = sep
      · rw [if_pos same] at h
        rcases List.mem_cons.1 h with rfl | later
        · exact List.not_mem_nil
        · exact ih later
      · rw [if_neg same] at h
        cases pieces : split sep cs with
        | nil =>
            rw [pieces] at h
            cases List.mem_singleton.1 h
            simp [Ne.symm same]
        | cons first rest =>
            rw [pieces] at h ih
            rcases List.mem_cons.1 h with rfl | later
            · simp [Ne.symm same, ih List.mem_cons_self]
            · exact ih (List.mem_cons_of_mem _ later)

theorem split_of_notMem (h : sep ∉ cs) : split sep cs = [cs] := by
  induction cs with
  | nil => rfl
  | cons c cs ih =>
      obtain ⟨other, inside⟩ := not_or.1 (mt List.mem_cons.2 h)
      rw [split, if_neg (Ne.symm other), ih inside]

theorem split_ne_nil (sep : Char) (cs : List Char) : split sep cs ≠ [] := by
  cases cs with
  | nil => exact List.cons_ne_nil _ _
  | cons c cs =>
      rw [split]
      split
      · exact List.cons_ne_nil _ _
      · split <;> exact List.cons_ne_nil _ _

theorem split_append_sep (sep : Char) (cs more : List Char) :
    split sep (cs ++ sep :: more) = split sep cs ++ split sep more := by
  induction cs with
  | nil => exact if_pos rfl
  | cons c cs ih =>
      rw [List.cons_append, split, split]
      split
      · rw [ih, List.cons_append]
      · rw [ih]
        cases pieces : split sep cs with
        | nil => exact absurd pieces (split_ne_nil sep cs)
        | cons piece rest => rfl

theorem split_append_cons (h : sep ∉ piece) (cs : List Char) :
    split sep (piece ++ sep :: cs) = piece :: split sep cs := by
  rw [split_append_sep, split_of_notMem h, List.singleton_append]

theorem split_intercalate (h : ∀ piece ∈ list, sep ∉ piece) (some : list ≠ []) :
    split sep ([sep].intercalate list) = list := by
  induction list with
  | nil => exact absurd rfl some
  | cons piece rest ih =>
      have plain := h piece List.mem_cons_self
      cases rest with
      | nil => rw [List.intercalate_singleton, split_of_notMem plain]
      | cons next rest =>
          rw [List.intercalate_cons_cons, List.append_assoc, List.singleton_append,
            split_append_cons plain,
            ih (fun piece member => h piece (List.mem_cons_of_mem _ member)) (List.cons_ne_nil _ _)]

theorem intercalate_split (sep : Char) (cs : List Char) : [sep].intercalate (split sep cs) = cs := by
  induction cs with
  | nil => rfl
  | cons c cs ih =>
      obtain ⟨piece, rest, pieces⟩ := List.exists_cons_of_ne_nil (split_ne_nil sep cs)
      rw [pieces] at ih
      rw [split, pieces]
      split
      · rename_i same
        rw [List.intercalate_cons_cons, ih, same]
        rfl
      · cases rest with
        | nil => rw [List.intercalate_singleton] at ih ⊢; rw [ih]
        | cons next rest =>
            rw [List.intercalate_cons_cons] at ih ⊢
            rw [List.cons_append, List.cons_append, ih]

theorem mem_intercalate (h : c ∈ [sep].intercalate list) : c = sep ∨ ∃ piece ∈ list, c ∈ piece := by
  induction list with
  | nil => cases h
  | cons piece rest ih =>
      cases rest with
      | nil =>
          rw [List.intercalate_singleton] at h
          exact .inr ⟨piece, List.mem_cons_self, h⟩
      | cons next rest =>
          rw [List.intercalate_cons_cons, List.append_assoc, List.mem_append] at h
          rcases h with inside | later
          · exact .inr ⟨piece, List.mem_cons_self, inside⟩
          · rcases List.mem_cons.1 later with same | later
            · exact .inl same
            · exact (ih later).imp_right fun ⟨piece, member, inside⟩ =>
                ⟨piece, List.mem_cons_of_mem _ member, inside⟩

theorem mem_of_mem_split (h : piece ∈ split sep cs) (inside : c ∈ piece) : c ∈ cs := by
  rw [← intercalate_split sep cs]
  generalize split sep cs = list at h
  induction list with
  | nil => cases h
  | cons first rest ih =>
      cases rest with
      | nil => rwa [List.intercalate_singleton, ← List.mem_singleton.1 h]
      | cons next rest =>
          rw [List.intercalate_cons_cons, List.append_assoc, List.mem_append]
          rcases List.mem_cons.1 h with rfl | later
          · exact .inl inside
          · exact .inr (List.mem_cons_of_mem _ (ih later))

theorem lines_of_notMem (h : '\n' ∉ cs) (some : cs ≠ []) : lines cs = [cs] := by
  obtain ⟨c, rest, rfl⟩ := List.exists_cons_of_ne_nil some
  rw [lines, split_of_notMem h]
  rfl

theorem mem_of_mem_dropReturn (h : c ∈ dropReturn line) : c ∈ line := by
  unfold dropReturn at h
  split at h
  · rename_i rest reversed
    rw [← List.mem_reverse, reversed]
    exact List.mem_cons_of_mem _ (List.mem_reverse.1 h)
  · exact h

theorem newline_notMem_of_mem_lines (h : line ∈ lines cs) : '\n' ∉ line := by
  have dropped : ∀ {line : List Char},
      line ∈ (split '\n' cs).dropLast.map dropReturn → '\n' ∉ line := by
    intro line member feed
    obtain ⟨piece, inside, rfl⟩ := List.mem_map.1 member
    exact notMem_of_mem_split (List.dropLast_subset _ inside) (mem_of_mem_dropReturn feed)
  dsimp only [lines] at h
  split at h
  · exact dropped h
  · rename_i last found
    rcases List.mem_append.1 h with before | final
    · exact dropped before
    · cases List.mem_singleton.1 final
      exact notMem_of_mem_split (List.mem_of_getLast? found)
  · cases h

/-- The text of some lines. Each ends with a carriage return too, since it may have one before. -/
def ofLines (list : List (List Char)) : List Char :=
  list.flatMap (· ++ ['\r', '\n'])

theorem split_ofLines (h : ∀ line ∈ list, '\n' ∉ line) :
    split '\n' (ofLines list) = list.map (· ++ ['\r']) ++ [[]] := by
  induction list with
  | nil => rfl
  | cons line rest ih =>
      have whole : ofLines (line :: rest) = (line ++ ['\r']) ++ '\n' :: ofLines rest := by
        simp [ofLines]
      have plain : '\n' ∉ line ++ ['\r'] := by
        simp [h line List.mem_cons_self]
      rw [whole, split_append_cons plain, ih fun line member => h line (List.mem_cons_of_mem _ member)]
      rfl

theorem lines_ofLines (h : ∀ line ∈ list, '\n' ∉ line) : lines (ofLines list) = list := by
  have last : (list.map (· ++ ['\r']) ++ [[]]).getLast? = some [] := List.getLast?_concat
  unfold lines
  rw [split_ofLines h]
  simp only [last, List.dropLast_concat, List.map_map]
  refine (List.map_congr_left fun line _ => ?_).trans (List.map_id list)
  simp [dropReturn]

end ScreenScript.Text
