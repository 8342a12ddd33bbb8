import ScreenScript.Proofs.Script.Derivation
import ScreenScript.Proofs.Script.Places

namespace ScreenScript

def Instruction.meaning : Instruction → Line
  | act _ action => .act action
  | loop _ count _ => .opens (.loop count)
  | branch _ target .. => .opens (.branch target)
  | guard .. => .opens .guard

def Instruction.start (i : Instruction) : Nat × Line :=
  (i.line, i.meaning)

namespace Script

open Instruction (placesAll)

def starts (ls : List (Nat × Line)) : List (Nat × Line) :=
  ls.filter (isStart ·.2)

theorem starts_cons {l : Line} (h : isStart l) (line : Nat) (ls : List (Nat × Line)) :
    starts ((line, l) :: ls) = (line, l) :: starts ls :=
  List.filter_cons_of_pos h

theorem starts_append (ls ls' : List (Nat × Line)) : starts (ls ++ ls') = starts ls ++ starts ls' :=
  List.filter_append ..

theorem starts_sublist (ls : List (Nat × Line)) : (starts ls).Sublist ls :=
  List.filter_sublist

theorem starts_append_closes (ls : List (Nat × Line)) (closing : Nat) :
    starts (ls ++ [(closing, .closes)]) = starts ls := by
  rw [starts_append]
  exact List.append_nil _

theorem starts_joint_append (joint : Joint) (ls : List (Nat × Line)) :
    starts (joint.lines ++ ls) = starts ls := by
  cases joint with
  | joined line | apart closing opening => rfl

mutual

theorem start_places (index : Nat) (around : List Instruction) (t : Statement) :
    ((t.instruction index).places around).map (·.2.start) = starts t.lines := by
  cases t with
  | act line action => rfl
  | loop line count body closing =>
      rw [Statement.instruction, Instruction.places, List.map_cons, start_placesAll _ _ body,
        Statement.lines, starts_cons rfl, starts_append_closes]
      rfl
  | guard line body closing =>
      rw [Statement.instruction, Instruction.places, List.map_cons, start_placesAll _ _ body,
        Statement.lines, starts_cons rfl, starts_append_closes]
      rfl
  | branch line target found closing =>
      rw [Statement.instruction, Instruction.places, List.map_cons, List.map_append,
        start_placesAll _ _ found, Instruction.placesAll, List.map_nil, List.append_nil,
        Statement.lines, starts_cons rfl, starts_append_closes]
      rfl
  | branchElse line target found joint missed closing =>
      rw [Statement.instruction, Instruction.places, List.map_cons, List.map_append,
        start_placesAll _ _ found, start_placesAll _ _ missed, Statement.lines,
        starts_cons rfl, starts_append, starts_joint_append,
        starts_append_closes]
      rfl

theorem start_placesAll (index : Nat) (around : List Instruction) (ts : List Statement) :
    (placesAll around (instructions index ts)).map (·.2.start) = starts (linesAll ts) := by
  match ts with
  | [] => rfl
  | t :: rest =>
      rw [instructions, placesAll, List.map_append, start_places index around t,
        start_placesAll (index + t.size) around rest, linesAll, starts_append]

end

theorem starts_statements (items : List Item) :
    starts (linesAll (statements items)) = starts (itemLines items) := by
  induction items with
  | nil => rfl
  | cons item rest ih =>
      rw [itemLines, List.flatMap_cons, starts_append, ← itemLines, ← ih]
      cases item with
      | statement t => rw [statements, linesAll, starts_append]; rfl
      | declare line name value => rfl

theorem exists_mem_of_forall₂ {α β : Type} {R : α → β → Prop} {xs : List α} {ys : List β}
    (h : List.Forall₂ R xs ys) {x : α} (member : x ∈ xs) : ∃ y ∈ ys, R x y := by
  induction h with
  | nil => cases member
  | cons related _ ih =>
      rcases List.mem_cons.1 member with rfl | later
      · exact ⟨_, List.mem_cons_self, related⟩
      · obtain ⟨y, inside, related'⟩ := ih later
        exact ⟨y, List.mem_cons_of_mem _ inside, related'⟩

section Meanings

variable {base : Policy} {lines : List (Nat × List Char)} {ls : List (Nat × Line)} {n : Nat}
  {cs : List Char} {l : Line}

theorem forall₂_of_meanings? (h : meanings? base lines = some ls) :
    List.Forall₂ (fun line meant => meant.1 = line.1 ∧ (Line.read base line.2).content = .ok meant.2)
      lines ls := by
  induction lines generalizing ls with
  | nil =>
      cases h
      exact .nil
  | cons first rest ih =>
      obtain ⟨line, cs⟩ := first
      cases read : (Line.read base cs).content with
      | error fault =>
          rw [meanings?_of_error read] at h
          cases h
      | ok l =>
          rw [meanings?_of_ok read] at h
          obtain ⟨ls', meant, rfl⟩ := Option.map_eq_some_iff.1 h
          exact .cons ⟨rfl, read⟩ (ih meant)

theorem fst_meanings? (h : meanings? base lines = some ls) : ls.map Prod.fst = lines.map Prod.fst := by
  rw [← List.forall₂_eq_eq_eq, List.forall₂_map_left_iff, List.forall₂_map_right_iff]
  exact ((forall₂_of_meanings? h).imp fun _ _ => And.left).flip

theorem read_of_mem_meanings? (h : meanings? base lines = some ls) (member : (n, l) ∈ ls) :
    ∃ cs, (n, cs) ∈ lines ∧ (Line.read base cs).content = .ok l := by
  obtain ⟨⟨line, cs⟩, inside, same, read⟩ := exists_mem_of_forall₂ (forall₂_of_meanings? h).flip member
  cases same
  exact ⟨cs, inside, read⟩

theorem exists_mem_meanings? (h : meanings? base lines = some ls) (member : (n, cs) ∈ lines) :
    ∃ l, (Line.read base cs).content = .ok l ∧ (n, l) ∈ ls := by
  obtain ⟨⟨line, l⟩, inside, same, read⟩ := exists_mem_of_forall₂ (forall₂_of_meanings? h) member
  cases same
  exact ⟨l, read, inside⟩

theorem mem_meanings?_of_read (h : meanings? base lines = some ls) (member : (n, cs) ∈ lines)
    (read : (Line.read base cs).content = .ok l) : (n, l) ∈ ls := by
  obtain ⟨l', read', inside⟩ := exists_mem_meanings? h member
  cases read.symm.trans read'
  exact inside

end Meanings

end Script

namespace Program

variable {source : String} {base : Policy} {p : Program}

theorem starts_of_parse (h : parse source base = .ok p) :
    ∃ ls, Script.meanings? base (Script.remaining 1 (Text.lines source.toList)) = some ls ∧
      p.places.map (·.2.start) = Script.starts ls := by
  obtain ⟨items, writes, instructions, -⟩ := exists_writes_of_parse h
  refine ⟨_, writes, ?_⟩
  rw [places, instructions, Script.start_placesAll, Script.starts_statements]

end Program

end ScreenScript
