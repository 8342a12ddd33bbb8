namespace ScreenScript

/-- A finite map from names to values of a type. -/
structure NameMap (α : Type) where
  entries : List (String × α)
  sorted : entries.Pairwise fun a b => a.1 < b.1

namespace NameMap

variable {α : Type}

def insertEntry (name : String) (value : α) : List (String × α) → List (String × α)
  | [] => [(name, value)]
  | (other, old) :: rest =>
    if name < other then (name, value) :: (other, old) :: rest
    else if name = other then (name, value) :: rest
    else (other, old) :: insertEntry name value rest

theorem mem_insertEntry {name : String} {value : α} {entries : List (String × α)}
    {entry : String × α} (h : entry ∈ insertEntry name value entries) :
    entry = (name, value) ∨ entry ∈ entries := by
  fun_induction insertEntry name value entries with
  | case1 => simpa using h
  | case2 => simpa using h
  | case3 =>
    rcases List.mem_cons.1 h with rfl | h
    · exact .inl rfl
    · exact .inr (List.mem_cons_of_mem _ h)
  | case4 other old rest _ _ ih =>
    rcases List.mem_cons.1 h with rfl | h
    · exact .inr List.mem_cons_self
    · exact (ih h).imp_right (List.mem_cons_of_mem _)

theorem sorted_insertEntry (name : String) (value : α) {entries : List (String × α)}
    (h : entries.Pairwise fun a b => a.1 < b.1) :
    (insertEntry name value entries).Pairwise fun a b => a.1 < b.1 := by
  fun_induction insertEntry name value entries with
  | case1 => simp
  | case2 other old rest before =>
    refine List.pairwise_cons.2 ⟨fun entry mem => ?_, h⟩
    rcases List.mem_cons.1 mem with rfl | mem
    · exact before
    · exact String.lt_trans before ((List.pairwise_cons.1 h).1 entry mem)
  | case3 => exact List.pairwise_cons.2 ⟨(List.pairwise_cons.1 h).1, (List.pairwise_cons.1 h).2⟩
  | case4 other old rest notBefore ne ih =>
    refine List.pairwise_cons.2 ⟨fun entry mem => ?_, ih (List.pairwise_cons.1 h).2⟩
    rcases mem_insertEntry mem with rfl | mem
    · exact Decidable.byContradiction fun notAfter =>
        ne (String.le_antisymm (String.not_lt.1 notAfter) (String.not_lt.1 notBefore))
    · exact (List.pairwise_cons.1 h).1 entry mem

def empty : NameMap α :=
  ⟨[], .nil⟩

instance : EmptyCollection (NameMap α) := ⟨empty⟩
instance : Inhabited (NameMap α) := ⟨empty⟩

def get? (m : NameMap α) (name : String) : Option α :=
  m.entries.lookup name

def insert (m : NameMap α) (name : String) (value : α) : NameMap α :=
  ⟨insertEntry name value m.entries, sorted_insertEntry name value m.sorted⟩

def erase (m : NameMap α) (name : String) : NameMap α :=
  ⟨m.entries.filter (·.1 ≠ name), m.sorted.filter _⟩

def ofList (entries : List (String × α)) : NameMap α :=
  entries.foldl (fun m (name, value) => m.insert name value) ∅

def toList (m : NameMap α) : List (String × α) :=
  m.entries

theorem lookup_cons_eq (first name : String) (value : α) (rest : List (String × α)) :
    ((first, value) :: rest).lookup name = if name = first then some value else rest.lookup name := by
  by_cases h : name = first
  · simp [h]
  · rw [if_neg h, List.lookup_cons, beq_eq_false_iff_ne.2 h]

theorem lookup_insertEntry (name other : String) (value : α) (entries : List (String × α)) :
    (insertEntry name value entries).lookup other =
      if other = name then some value else entries.lookup other := by
  fun_induction insertEntry name value entries with
  | case1 => rw [lookup_cons_eq]
  | case2 => rw [lookup_cons_eq]
  | case3 =>
    rw [lookup_cons_eq, lookup_cons_eq]
    split <;> rfl
  | case4 first old rest _ ne ih =>
    rw [lookup_cons_eq, lookup_cons_eq, ih]
    by_cases h : other = name
    · simp [h, ne]
    · simp [h]

theorem lookup_filter_ne (name other : String) (entries : List (String × α)) :
    (entries.filter (·.1 ≠ name)).lookup other =
      if other = name then none else entries.lookup other := by
  induction entries with
  | nil => simp
  | cons entry rest ih =>
    obtain ⟨first, value⟩ := entry
    by_cases h : first = name
    · rw [List.filter_cons_of_neg (by simp [h]), ih, lookup_cons_eq, h]
      by_cases h' : other = name <;> simp [h']
    · rw [List.filter_cons_of_pos (by simp [h]), lookup_cons_eq, lookup_cons_eq, ih]
      by_cases h' : other = name
      · simp [h', Ne.symm h]
      · simp [h']

@[simp]
theorem get?_insert (m : NameMap α) (name other : String) (value : α) :
    (m.insert name value).get? other = if other = name then some value else m.get? other :=
  lookup_insertEntry name other value m.entries

@[simp]
theorem get?_erase (m : NameMap α) (name other : String) :
    (m.erase name).get? other = if other = name then none else m.get? other :=
  lookup_filter_ne name other m.entries

end NameMap

end ScreenScript
