import Mathlib.Data.List.Induction
import Mathlib.Data.List.Sort
import ScreenScript.NameMap

namespace ScreenScript.NameMap

variable {α : Type}

theorem insertEntry_append {name : String} {value : α} {entries : List (String × α)}
    (h : ∀ entry ∈ entries, entry.1 < name) :
    insertEntry name value entries = entries ++ [(name, value)] := by
  induction entries with
  | nil => rfl
  | cons entry rest ih =>
      obtain ⟨other, old⟩ := entry
      have before : other < name := h (other, old) List.mem_cons_self
      have notBefore : ¬ name < other := fun after => String.lt_irrefl _ (String.lt_trans before after)
      have ne : name ≠ other := by
        rintro rfl
        exact String.lt_irrefl _ before
      rw [insertEntry, if_neg notBefore, if_neg ne,
        ih fun entry mem => h entry (List.mem_cons_of_mem _ mem)]
      rfl

theorem entries_foldl_insert (entries : List (String × α)) (m : NameMap α)
    (sorted : (m.entries ++ entries).Pairwise fun a b => a.1 < b.1) :
    (entries.foldl (fun m (name, value) => m.insert name value) m).entries = m.entries ++ entries := by
  induction entries generalizing m with
  | nil => exact (List.append_nil _).symm
  | cons entry rest ih =>
      obtain ⟨name, value⟩ := entry
      have before : ∀ entry ∈ m.entries, entry.1 < name := fun entry mem =>
        (List.pairwise_append.1 sorted).2.2 entry mem (name, value) List.mem_cons_self
      have inserted : (m.insert name value).entries = m.entries ++ [(name, value)] :=
        insertEntry_append before
      rw [List.foldl_cons, ih (m.insert name value), inserted, List.append_assoc]
      · rfl
      · rw [inserted, List.append_assoc]
        exact sorted

theorem toList_ofList {entries : List (String × α)}
    (sorted : entries.Pairwise fun a b => a.1 < b.1) : (ofList entries).toList = entries :=
  entries_foldl_insert entries ∅ sorted

theorem ofList_toList (m : NameMap α) : ofList m.toList = m := by
  have same := toList_ofList m.sorted
  cases h : ofList m.toList
  cases m
  rw [toList] at h same
  rw [h] at same
  cases same
  rfl

theorem mem_toList {m : NameMap α} {name : String} {value : α} :
    (name, value) ∈ m.toList ↔ m.get? name = some value := by
  obtain ⟨entries, sorted⟩ := m
  dsimp only [toList, get?]
  induction entries with
  | nil => simp
  | cons entry rest ih =>
      obtain ⟨first, old⟩ := entry
      obtain ⟨after, others⟩ := List.pairwise_cons.1 sorted
      rw [lookup_cons_eq, List.mem_cons, ih others]
      by_cases h : name = first
      · subst h
        rw [if_pos rfl]
        constructor
        · rintro (eq | found)
          · rw [(Prod.mk.inj eq).2]
          · have later := (ih others).2 found
            exact absurd (after _ later) (String.lt_irrefl _)
        · intro eq
          exact .inl (by rw [Option.some.inj eq])
      · rw [if_neg h]
        constructor
        · rintro (eq | found)
          · exact absurd (Prod.mk.inj eq).1 h
          · exact found
        · exact .inr

@[ext]
theorem ext {m m' : NameMap α} (h : ∀ name, m.get? name = m'.get? name) : m = m' := by
  have irrefl : Std.Irrefl fun a b : String × α => a.1 < b.1 := ⟨fun _ => String.lt_irrefl _⟩
  have antisymm : Std.Antisymm fun a b : String × α => a.1 < b.1 :=
    ⟨fun _ _ before after => absurd (String.lt_trans before after) (String.lt_irrefl _)⟩
  have same : m.entries = m'.entries := by
    refine m.sorted.eq_of_mem_iff m'.sorted fun entry => ?_
    obtain ⟨name, value⟩ := entry
    have found : (name, value) ∈ m.toList ↔ (name, value) ∈ m'.toList := by
      rw [mem_toList, mem_toList, h name]
    exact found
  cases m
  cases m'
  cases same
  rfl

theorem insert_eq_self_iff {m : NameMap α} {name : String} {value : α} :
    m.insert name value = m ↔ m.get? name = some value := by
  constructor
  · intro h
    rw [← h, get?_insert, if_pos rfl]
  · intro h
    ext1 other
    rw [get?_insert]
    split
    · rename_i same
      rw [same, h]
    · rfl

theorem erase_eq_self_iff {m : NameMap α} {name : String} :
    m.erase name = m ↔ m.get? name = none := by
  constructor
  · intro h
    rw [← h, get?_erase, if_pos rfl]
  · intro h
    ext1 other
    rw [get?_erase]
    split
    · rename_i same
      rw [same, h]
    · rfl

theorem mem_of_get?_foldl_insert {entries : List (String × α)} {m : NameMap α} {name : String}
    {value : α}
    (h : (entries.foldl (fun m (name, value) => m.insert name value) m).get? name = some value) :
    m.get? name = some value ∨ (name, value) ∈ entries := by
  induction entries generalizing m with
  | nil => exact .inl h
  | cons entry rest ih =>
      obtain ⟨first, old⟩ := entry
      rcases ih h with found | found
      · rw [get?_insert] at found
        split at found
        · rename_i same
          rw [same, Option.some.inj found]
          exact .inr List.mem_cons_self
        · exact .inl found
      · exact .inr (List.mem_cons_of_mem _ found)

/-- The last value that some pairs give to a name. -/
def lastOf (pairs : List (String × α)) (name : String) : Option α :=
  ((pairs.filter (·.1 = name)).map Prod.snd).getLast?

theorem lastOf_concat (pairs : List (String × α)) (name other : String) (value : α) :
    lastOf (pairs ++ [(name, value)]) other =
      if other = name then some value else lastOf pairs other := by
  rw [lastOf, List.filter_append, List.map_append]
  by_cases same : other = name
  · subst same
    simp
  · simp [Ne.symm same, same, lastOf]

theorem mem_of_lastOf {pairs : List (String × α)} {name : String} {value : α}
    (h : lastOf pairs name = some value) : (name, value) ∈ pairs := by
  obtain ⟨pair, kept, rfl⟩ := List.mem_map.1 (List.mem_of_getLast? h)
  obtain ⟨inside, same⟩ := List.mem_filter.1 kept
  rwa [← of_decide_eq_true same]

theorem get?_foldl_insert (pairs : List (String × α)) (m : NameMap α) (other : String) :
    (pairs.foldl (fun m (name, value) => m.insert name value) m).get? other =
      (lastOf pairs other).or (m.get? other) := by
  induction pairs using List.reverseRecOn with
  | nil => rfl
  | append_singleton pairs pair ih =>
      rw [List.foldl_concat, get?_insert, ih, lastOf_concat]
      split
      · rfl
      · rfl

theorem mem_of_get?_ofList {entries : List (String × α)} {name : String} {value : α}
    (h : (ofList entries).get? name = some value) : (name, value) ∈ entries := by
  rcases mem_of_get?_foldl_insert h with found | found
  · cases found
  · exact found

end ScreenScript.NameMap
