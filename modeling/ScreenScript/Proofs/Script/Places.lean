import ScreenScript.Script.Instruction

namespace ScreenScript

namespace Instruction

mutual

def places (around : List Instruction) : Instruction → List (List Instruction × Instruction)
  | act place action => [(around, act place action)]
  | loop place count body =>
    (around, loop place count body) :: placesAll (loop place count body :: around) body
  | branch place target found missed =>
    (around, branch place target found missed) ::
      (placesAll (branch place target found missed :: around) found ++
        placesAll (branch place target found missed :: around) missed)
  | guard place body => (around, guard place body) :: placesAll (guard place body :: around) body

def placesAll (around : List Instruction) : List Instruction → List (List Instruction × Instruction)
  | [] => []
  | i :: rest => places around i ++ placesAll around rest

end

theorem sizeAll_lt_of_mem_children {i : Instruction} {body : List Instruction}
    (h : body ∈ i.children) : sizeAll body < i.size := by
  cases i with
  | act place action => cases h
  | loop place count inner =>
      cases List.mem_singleton.1 h
      simp only [size]
      omega
  | branch place target found missed =>
      simp only [children, List.mem_cons, List.not_mem_nil, or_false] at h
      rcases h with rfl | rfl
      · simp only [size]
        omega
      · simp only [size]
        omega
  | guard place inner =>
      cases List.mem_singleton.1 h
      simp only [size]
      omega

theorem inductionAll {P : List Instruction → Prop} (nil : P [])
    (cons : ∀ i rest, (∀ body ∈ i.children, P body) → P rest → P (i :: rest)) (list) : P list :=
  match list with
  | [] => nil
  | i :: rest =>
    cons i rest (fun body _ => inductionAll nil cons body) (inductionAll nil cons rest)
  termination_by sizeAll list
  decreasing_by
    · have := sizeAll_lt_of_mem_children ‹_›
      simp only [sizeAll]
      omega
    · have : 0 < i.size := by cases i <;> simp [size]
      simp only [sizeAll]
      omega

theorem places_eq (around : List Instruction) (i : Instruction) :
    places around i = (around, i) :: i.children.flatMap (placesAll (i :: around)) := by
  cases i with
  | act place action => rw [places]; rfl
  | loop place count body => simp [places, children]
  | branch place target found missed => simp [places, children]
  | guard place body => simp [places, children]

theorem placesAll_cons (around : List Instruction) (i : Instruction) (rest : List Instruction) :
    placesAll around (i :: rest) =
      (around, i) :: (i.children.flatMap (placesAll (i :: around)) ++ placesAll around rest) := by
  rw [placesAll, places_eq, List.cons_append]

theorem mem_placesAll_of_mem {list : List Instruction} {i : Instruction} (h : i ∈ list)
    (around : List Instruction) : (around, i) ∈ placesAll around list := by
  induction list with
  | nil => cases h
  | cons j rest ih =>
      rw [placesAll_cons]
      rcases List.mem_cons.1 h with rfl | later
      · exact List.mem_cons_self
      · exact List.mem_cons_of_mem _ (List.mem_append_right _ (ih later))

theorem mem_placesAll_child {list body : List Instruction} {i j : Instruction}
    (inside : body ∈ i.children) (h : j ∈ body) :
    ∀ {above around : List Instruction}, (above, i) ∈ placesAll around list →
      (i :: above, j) ∈ placesAll around list := by
  induction list using inductionAll with
  | nil => exact fun member => nomatch member
  | cons first rest ihBodies ihRest =>
      intro above around member
      rw [placesAll_cons] at member ⊢
      rw [List.mem_cons, List.mem_append, List.mem_flatMap] at member ⊢
      rcases member with here | ⟨body', inside', below⟩ | later
      · cases here
        exact .inr (.inl ⟨body, inside, mem_placesAll_of_mem h _⟩)
      · exact .inr (.inl ⟨body', inside', ihBodies body' inside' below⟩)
      · exact .inr (.inr (ihRest later))

/-- The depth of a place is the number of instructions around it. -/
def level (place : List Instruction × Instruction) : Nat × Instruction :=
  (place.1.length, place.2)

theorem walkLists_eq (lists : List (List Instruction × List Instruction)) :
    walkLists (lists.map fun l => (l.1.length, l.2)) =
      (lists.flatMap fun l => placesAll l.1 l.2).map level := by
  match lists with
  | [] => simp [walkLists]
  | (around, []) :: rest =>
      have ih := walkLists_eq rest
      simp only [List.map_cons, walkLists, ih, List.flatMap_cons, placesAll, List.nil_append]
  | (around, i :: list) :: rest =>
      have ih := walkLists_eq (i.children.map (i :: around, ·) ++ (around, list) :: rest)
      simp only [List.map_append, List.map_map, Function.comp_def, List.map_cons,
        List.length_cons] at ih
      simp only [List.map_cons, walkLists, ih, List.flatMap_append, List.flatMap_map,
        List.flatMap_cons, placesAll_cons, List.map_append, List.cons_append, List.append_assoc]
      rfl
  termination_by pending (lists.map fun l => (l.1.length, l.2))
  decreasing_by
    · simp [pending]
    · cases i <;>
        simp +arith only [children, pending, List.map_cons, List.map_nil, List.nil_append,
          List.cons_append, sizeAll, size]

end Instruction

namespace Program

/-- The instructions of a program, each before those in it, with those around them. -/
def places (p : Program) : List (List Instruction × Instruction) :=
  Instruction.placesAll [] p.instructions

theorem walk_eq_places (p : Program) : p.walk = p.places.map Instruction.level := by
  have whole := Instruction.walkLists_eq [([], p.instructions)]
  rwa [List.flatMap_singleton] at whole

theorem mem_walk_of_mem_places {p : Program} {around : List Instruction} {i : Instruction}
    (h : (around, i) ∈ p.places) : (around.length, i) ∈ p.walk := by
  rw [walk_eq_places]
  exact List.mem_map_of_mem h

theorem exists_mem_places_of_mem_walk {p : Program} {depth : Nat} {i : Instruction}
    (h : (depth, i) ∈ p.walk) : ∃ around, (around, i) ∈ p.places := by
  rw [walk_eq_places] at h
  obtain ⟨⟨around, j⟩, place, same⟩ := List.mem_map.1 h
  obtain ⟨-, rfl⟩ := Prod.mk.inj same
  exact ⟨around, place⟩

end Program

end ScreenScript
