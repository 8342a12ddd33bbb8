import Mathlib.Data.List.Nodup
import ScreenScript.Proofs.Script.Meanings

namespace ScreenScript

namespace Script

open Instruction (placesAll)

/-! ## Syntax trees -/

mutual

theorem index_places (index : Nat) (around : List Instruction) (t : Statement) :
    ((t.instruction index).places around).map (·.2.index) = List.range' index t.size := by
  cases t with
  | act line action => rfl
  | loop line count body closing =>
      have inner := index_placesAll (index + 1) ((Statement.loop line count body closing).instruction
        index :: around) body
      rw [Statement.instruction] at inner ⊢
      rw [Instruction.places, List.map_cons, inner, Statement.size, List.range'_succ]
      rfl
  | guard line body closing =>
      have inner := index_placesAll (index + 1) ((Statement.guard line body closing).instruction
        index :: around) body
      rw [Statement.instruction] at inner ⊢
      rw [Instruction.places, List.map_cons, inner, Statement.size, List.range'_succ]
      rfl
  | branch line target found closing =>
      have inner := index_placesAll (index + 1) ((Statement.branch line target found
        closing).instruction index :: around) found
      rw [Statement.instruction] at inner ⊢
      rw [Instruction.places, List.map_cons, List.map_append, inner, Instruction.placesAll,
        List.map_nil, List.append_nil, Statement.size, List.range'_succ]
      rfl
  | branchElse line target found joint missed closing =>
      -- The numbers of the second body go on after those of the first.
      have first := index_placesAll (index + 1) ((Statement.branchElse line target found joint missed
        closing).instruction index :: around) found
      have second := index_placesAll (index + 1 + sizeAll found) ((Statement.branchElse line target
        found joint missed closing).instruction index :: around) missed
      rw [Statement.instruction] at first second ⊢
      rw [Instruction.places, List.map_cons, List.map_append, first, second, List.range'_append_1,
        Statement.size, List.range'_succ]
      rfl

theorem index_placesAll (index : Nat) (around : List Instruction) (ts : List Statement) :
    (placesAll around (instructions index ts)).map (·.2.index) =
      List.range' index (sizeAll ts) := by
  match ts with
  | [] => rfl
  | t :: rest =>
      rw [instructions, placesAll, List.map_append, index_places index around t,
        index_placesAll (index + t.size) around rest, List.range'_append_1, sizeAll]

end

/-! ## Scripts -/

theorem le_of_mem_remaining {line : Nat} {lines : List (List Char)} {l : Nat × List Char}
    (h : l ∈ remaining line lines) : line ≤ l.1 := by
  induction lines generalizing line with
  | nil => cases h
  | cons cs rest ih =>
      rw [remaining] at h
      split at h
      · have := ih h
        omega
      · rcases List.mem_cons.1 h with rfl | later
        · exact Nat.le_refl _
        · have := ih later
          omega

theorem pairwise_remaining (line : Nat) (lines : List (List Char)) :
    ((remaining line lines).map Prod.fst).Pairwise (· < ·) := by
  induction lines generalizing line with
  | nil => exact List.Pairwise.nil
  | cons cs rest ih =>
      rw [remaining]
      split
      · exact ih (line + 1)
      · rw [List.map_cons, List.pairwise_cons]
        refine ⟨?_, ih (line + 1)⟩
        intro n later
        obtain ⟨l, member, rfl⟩ := List.mem_map.1 later
        exact le_of_mem_remaining member

theorem pairwise_of_meanings? {base : Policy} {source : String} {ls : List (Nat × Line)}
    (h : meanings? base (remaining 1 (Text.lines source.toList)) = some ls) :
    (ls.map Prod.fst).Pairwise (· < ·) := by
  rw [fst_meanings? h]
  exact pairwise_remaining 1 _

end Script

namespace Program

variable {source : String} {base : Policy} {p : Program}

theorem index_places_of_parse (h : parse source base = .ok p) :
    p.places.map (·.2.index) = List.range p.size := by
  obtain ⟨items, -, instructions, -, size⟩ := exists_writes_of_parse h
  rw [places, instructions, size, List.range_eq_range']
  exact Script.index_placesAll 0 [] (Script.statements items)

theorem pairwise_line_places_of_parse (h : parse source base = .ok p) :
    (p.places.map (·.2.line)).Pairwise (· < ·) := by
  obtain ⟨ls, meant, same⟩ := starts_of_parse h
  have lines : p.places.map (·.2.line) = (Script.starts ls).map Prod.fst := by
    rw [← same, List.map_map]
    rfl
  rw [lines]
  exact (Script.pairwise_of_meanings? meant).sublist ((Script.starts_sublist ls).map Prod.fst)

theorem places_unique (h : parse source base = .ok p) {place place' : List Instruction × Instruction}
    (member : place ∈ p.places) (member' : place' ∈ p.places)
    (same : place.2.index = place'.2.index) : place = place' := by
  have distinct : (p.places.map (·.2.index)).Nodup := by
    rw [index_places_of_parse h]
    exact List.nodup_range
  exact List.inj_on_of_nodup_map distinct member member' same

theorem places_unique_of_line (h : parse source base = .ok p)
    {place place' : List Instruction × Instruction} (member : place ∈ p.places)
    (member' : place' ∈ p.places) (same : place.2.line = place'.2.line) : place = place' := by
  have distinct : (p.places.map (·.2.line)).Nodup :=
    (pairwise_line_places_of_parse h).imp fun {_ _} before => Nat.ne_of_lt before
  exact List.inj_on_of_nodup_map distinct member member' same

/--
The walk of a program that was read is its tree in the order of the script, each instruction with the
number of instructions around it. The instructions are numbered from zero in this order, and each has
a later line than the one before it.
-/
theorem walk_of_parse (h : parse source base = .ok p) :
    p.walk = p.places.map (fun place => (place.1.length, place.2)) ∧
      p.walk.map (·.2.index) = List.range p.size ∧
      (p.walk.map (·.2.line)).Pairwise (· < ·) := by
  refine ⟨p.walk_eq_places, ?_, ?_⟩
  · rw [walk_eq_places, List.map_map]
    exact index_places_of_parse h
  · rw [walk_eq_places, List.map_map]
    exact pairwise_line_places_of_parse h

def branchInLoop : String :=
  "repeat 2 \x7b\n  if found ok \x7b\n    press a\n  \x7d\n  else \x7b\n    abort\n  \x7d\n\x7d\nwait 5\n"

theorem walk_of_parse_branchInLoop :
    ∃ p, parse branchInLoop = .ok p ∧ p.size = 5 ∧ p.walk.map Prod.fst = [0, 1, 2, 2, 0] ∧
      p.walk.map (·.2.index) = [0, 1, 2, 3, 4] ∧ (p.walk.map (·.2.line)).Pairwise (· < ·) := by
  have counted : (parse branchInLoop).toOption.map (fun p => (p.size, p.walk.map Prod.fst)) =
      some (5, [0, 1, 2, 2, 0]) := by
    decide +kernel
  cases read : parse branchInLoop with
  | error failure =>
      rw [read] at counted
      cases counted
  | ok p =>
      rw [read] at counted
      obtain ⟨size, depths⟩ := Prod.mk.inj (Option.some.inj counted)
      obtain ⟨-, indices, lines⟩ := walk_of_parse read
      rw [size] at indices
      exact ⟨p, rfl, size, depths, indices, lines⟩

end Program

end ScreenScript
