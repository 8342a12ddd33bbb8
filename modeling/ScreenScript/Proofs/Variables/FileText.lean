import ScreenScript.Proofs.Json.RoundTrip
import ScreenScript.Proofs.NameMap
import ScreenScript.Proofs.Time.Timestamp
import ScreenScript.Variables.File

namespace ScreenScript

namespace Value

/-- The value that a written value is read as, if it is read as a value at all. -/
def reread? (v : Value) : Option Value :=
  ofJson? (Json.restored v.toJson)

theorem reread?_text (s : String) : (text s).reread? = some (text s) :=
  rfl

def isFinite : Value → Bool
  | number x => Number.isFinite x
  | text _ => true

theorem reread?_of_not_isFinite {v : Value} (h : v.isFinite = false) : v.reread? = none := by
  cases v with
  | text s => cases h
  | number x =>
      have null : Json.reread x = .null := by
        rw [Json.reread, Json.writeFloat_of_not_finite h]
        rfl
      rw [reread?, toJson, Json.restored, null]
      rfl

end Value

namespace VariableFile

open Json

def Entry.reread? (e : Entry) : Option Entry :=
  e.value.reread?.map fun value => { e with value }

def rereadMember? (member : String × Entry) : Option (String × Entry) :=
  member.2.reread?.map fun e => (member.1, e)

def reread? (entries : NameMap Entry) : Option (NameMap Entry) :=
  (entries.toList.mapM rereadMember?).map .ofList

theorem ofJson?_toJson {e : Entry} (proper : e.updated.Proper) :
    Entry.ofJson? (restored e.toJson) = e.reread? := by
  have fields : record? ["value", "updated_at"] false (restored e.toJson) =
      some [some (restored e.value.toJson), some (.string (e.updated.write "Z"))] := by
    simp [Entry.toJson, restored, restoredMembers, record?, single?]
  rw [Entry.ofJson?, fields]
  simp only [Option.bind_eq_bind, Option.bind_some, required?, text?, string?,
    Timestamp.read?_write proper, Entry.reread?, Value.reread?]
  cases Value.ofJson? (restored e.value.toJson) <;> rfl

theorem mapM_ofJson? {members : List (String × Entry)}
    (proper : ∀ member ∈ members, member.2.updated.Proper) :
    (restoredMembers (members.map fun (name, e) => (name, e.toJson))).mapM
        (fun (name, j) => do return (name, ← Entry.ofJson? j)) = members.mapM rereadMember? := by
  induction members with
  | nil => rfl
  | cons member rest ih =>
      obtain ⟨name, e⟩ := member
      have later := ih fun member mem => proper member (List.mem_cons_of_mem _ mem)
      have first := ofJson?_toJson (proper (name, e) List.mem_cons_self)
      rw [List.map_cons, restoredMembers, List.mapM_cons, List.mapM_cons, later]
      dsimp only [rereadMember?] at first ⊢
      rw [first]
      cases e.reread? <;> rfl

theorem entriesOfJson?_toJson {entries : NameMap Entry}
    (proper : ∀ name e, entries.get? name = some e → e.updated.Proper) :
    entriesOfJson? (restored (entriesToJson entries)) = reread? entries := by
  have members := mapM_ofJson? fun member (mem : member ∈ entries.toList) =>
    proper member.1 member.2 (NameMap.mem_toList.1 mem)
  rw [entriesToJson, restored, entriesOfJson?, members, reread?]
  cases entries.toList.mapM rereadMember? <;> rfl

theorem read?_write {entries : NameMap Entry}
    (proper : ∀ name e, entries.get? name = some e → e.updated.Proper) :
    read? (write entries) = reread? entries := by
  have fields : record? ["variables"] false
      (restored (.object [("variables", entriesToJson entries)])) =
      some [some (restored (entriesToJson entries))] := by
    simp [restored, restoredMembers, record?, single?]
  rw [read?, write, read?_pretty]
  simp only [Option.bind_eq_bind, Option.bind_some, fields]
  exact entriesOfJson?_toJson proper

theorem mapM_rereadMember?_names {members read : List (String × Entry)}
    (h : members.mapM rereadMember? = some read) : read.map Prod.fst = members.map Prod.fst := by
  induction members generalizing read with
  | nil =>
      cases h
      rfl
  | cons member rest ih =>
      rw [List.mapM_cons] at h
      obtain ⟨first, found, h⟩ := Option.bind_eq_some_iff.1 h
      obtain ⟨later, others, h⟩ := Option.bind_eq_some_iff.1 h
      obtain ⟨e, -, rfl⟩ := Option.map_eq_some_iff.1 found
      cases h
      rw [List.map_cons, List.map_cons, ih others]

theorem rereadMember?_eq_self_iff {member : String × Entry} :
    rereadMember? member = some member ↔ member.2.value.reread? = some member.2.value := by
  obtain ⟨name, value, updated⟩ := member
  dsimp only [rereadMember?, Entry.reread?]
  cases value.reread? <;> simp

theorem mapM_rereadMember?_eq_self_iff {members : List (String × Entry)} :
    members.mapM rereadMember? = some members ↔
      ∀ member ∈ members, member.2.value.reread? = some member.2.value := by
  induction members with
  | nil => simp
  | cons member rest ih =>
      rw [List.mapM_cons, List.forall_mem_cons, ← ih, ← rereadMember?_eq_self_iff]
      cases rereadMember? member <;> cases rest.mapM rereadMember? <;> simp

theorem mapM_rereadMember?_eq_none_iff {members : List (String × Entry)} :
    members.mapM rereadMember? = none ↔
      ∃ member ∈ members, member.2.value.reread? = none := by
  induction members with
  | nil => simp
  | cons member rest ih =>
      rw [List.mapM_cons, List.exists_mem_cons_iff, ← ih]
      have first : rereadMember? member = none ↔ member.2.value.reread? = none := by
        simp [rereadMember?, Entry.reread?]
      rw [← first]
      cases rereadMember? member <;> cases rest.mapM rereadMember? <;> simp

theorem reread?_eq_self_iff {entries : NameMap Entry} :
    reread? entries = some entries ↔
      ∀ name e, entries.get? name = some e → e.value.reread? = some e.value := by
  have same : reread? entries = some entries ↔
      entries.toList.mapM rereadMember? = some entries.toList := by
    constructor
    · intro h
      obtain ⟨read, found, eq⟩ := Option.map_eq_some_iff.1 h
      have names := mapM_rereadMember?_names found
      have sorted : read.Pairwise fun a b => a.1 < b.1 := by
        have before := List.pairwise_map.2 entries.sorted
        rw [← List.pairwise_map (f := Prod.fst) (R := (· < ·)), names]
        exact before
      rw [found, ← eq, NameMap.toList_ofList sorted]
    · intro h
      rw [reread?, h, Option.map_some, NameMap.ofList_toList]
  rw [same, mapM_rereadMember?_eq_self_iff]
  constructor
  · exact fun h name e found => h (name, e) (NameMap.mem_toList.2 found)
  · exact fun h member mem => h member.1 member.2 (NameMap.mem_toList.1 mem)

theorem reread?_eq_none_iff {entries : NameMap Entry} :
    reread? entries = none ↔ ∃ name e, entries.get? name = some e ∧ e.value.reread? = none := by
  rw [reread?, Option.map_eq_none_iff, mapM_rereadMember?_eq_none_iff]
  constructor
  · rintro ⟨⟨name, e⟩, mem, none⟩
    exact ⟨name, e, NameMap.mem_toList.1 mem, none⟩
  · rintro ⟨name, e, found, none⟩
    exact ⟨(name, e), NameMap.mem_toList.2 found, none⟩

theorem proper_of_ofJson? {j : Json} {e : Entry} (h : Entry.ofJson? j = some e) :
    e.updated.Proper := by
  obtain ⟨fields, -, h⟩ := Option.bind_eq_some_iff.1 h
  split at h
  · simp only [Option.bind_eq_bind, Option.bind_eq_some_iff] at h
    obtain ⟨value, -, text, -, updated, read, h⟩ := h
    cases h
    exact Timestamp.proper_of_read? read
  · cases h

theorem mem_of_mapM {α β : Type} {f : α → Option β} {list : List α} {read : List β}
    (h : list.mapM f = some read) {y : β} (mem : y ∈ read) : ∃ x ∈ list, f x = some y := by
  induction list generalizing read with
  | nil =>
      cases h
      cases mem
  | cons x rest ih =>
      rw [List.mapM_cons] at h
      obtain ⟨first, found, h⟩ := Option.bind_eq_some_iff.1 h
      obtain ⟨later, others, h⟩ := Option.bind_eq_some_iff.1 h
      cases h
      rcases List.mem_cons.1 mem with rfl | mem
      · exact ⟨x, List.mem_cons_self, found⟩
      · obtain ⟨x, inRest, eq⟩ := ih others mem
        exact ⟨x, List.mem_cons_of_mem _ inRest, eq⟩

theorem proper_of_read? {text : String} {entries : NameMap Entry} (h : read? text = some entries)
    {name : String} {e : Entry} (found : entries.get? name = some e) : e.updated.Proper := by
  obtain ⟨j, -, h⟩ := Option.bind_eq_some_iff.1 h
  obtain ⟨fields, -, h⟩ := Option.bind_eq_some_iff.1 h
  split at h
  · cases h
    cases found
  · unfold entriesOfJson? at h
    split at h
    · obtain ⟨members, read, h⟩ := Option.bind_eq_some_iff.1 h
      cases h
      have mem := NameMap.mem_of_get?_ofList found
      obtain ⟨member, -, entry⟩ := mem_of_mapM read mem
      obtain ⟨e', written, eq⟩ := Option.bind_eq_some_iff.1 entry
      cases eq
      exact proper_of_ofJson? written
    · cases h
  · cases h

end VariableFile

end ScreenScript
