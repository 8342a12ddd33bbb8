import ScreenScript.Proofs.Script.Numbering
import ScreenScript.Proofs.Script.Prefixes

namespace ScreenScript

namespace Script

def Joint.brace : Joint → Nat
  | joined line => line
  | apart _ opening => opening

namespace Opened

def brace : Opened → Nat
  | loop line _ | guard line | found line _ => line
  | missed _ _ _ joint => joint.brace

def first : Opened → Nat
  | loop line _ | guard line | found line _ | missed line .. => line

def keyword : Opened → String
  | loop .. => "repeat"
  | guard _ => "try"
  | found .. => "if"
  | missed .. => "else"

theorem lines_eq_cons (opened : Opened) :
    ∃ opening rest, opened.lines = (opened.first, .opens opening) :: rest ∧
      (opened.keyword ≠ "else" → opened.brace = opened.first) ∧
      (opened.keyword = "else" → opened.brace ∈ rest.map Prod.fst) := by
  cases opened with
  | loop line count => exact ⟨_, [], rfl, fun _ => rfl, by simp [keyword]⟩
  | guard line => exact ⟨_, [], rfl, fun _ => rfl, by simp [keyword]⟩
  | found line target => exact ⟨_, [], rfl, fun _ => rfl, by simp [keyword]⟩
  | missed line target body joint =>
      refine ⟨_, _, rfl, fun other => absurd rfl other, fun _ => ?_⟩
      rw [List.map_append]
      refine List.mem_append_right _ ?_
      cases joint with
      | joined line => exact List.mem_cons_self
      | apart closing opening => exact List.mem_cons_of_mem _ List.mem_cons_self

end Opened

/-- Whether the innermost body that some lines leave open is the given one. -/
def LeavesOpen (ls : List (Nat × Line)) (opened : Opened) : Prop :=
  ∃ before body, ls = before ++ (opened.lines ++ linesAll body)

theorem LeavesOpen.brace_mem {ls : List (Nat × Line)} {opened : Opened} (h : LeavesOpen ls opened)
    (second : opened.keyword = "else") : opened.brace ∈ ls.map Prod.fst := by
  obtain ⟨before, body, rfl⟩ := h
  obtain ⟨l, rest, lines, -, inside⟩ := opened.lines_eq_cons
  rw [List.map_append, List.map_append, lines, List.map_cons]
  exact List.mem_append_right _ (List.mem_append_left _ (List.mem_cons_of_mem _ (inside second)))

theorem LeavesOpen.first_lt_brace {ls : List (Nat × Line)} {opened : Opened}
    (h : LeavesOpen ls opened) (ordered : (ls.map Prod.fst).Pairwise (· < ·))
    (second : opened.keyword = "else") : opened.first < opened.brace := by
  obtain ⟨before, body, rfl⟩ := h
  obtain ⟨l, rest, lines, -, inside⟩ := opened.lines_eq_cons
  rw [List.map_append, List.map_append, lines, List.map_cons] at ordered
  have own := (List.pairwise_append.1 (List.pairwise_append.1 ordered).2.1).1
  exact List.rel_of_pairwise_cons own (inside second)

theorem eq_of_append_cons {before before' rest rest' : List (Nat × Line)} {line : Nat} {l l' : Line}
    (h : before ++ (line, l) :: rest = before' ++ (line, l') :: rest')
    (ordered : ((before ++ (line, l) :: rest).map Prod.fst).Pairwise (· < ·)) :
    l = l' ∧ rest = rest' := by
  -- If one of them starts earlier, its line has the number of a later one.
  have later {l : Line} {before rest : List (Nat × Line)} {n : Nat}
      (ordered : ((before ++ (line, l) :: rest).map Prod.fst).Pairwise (· < ·))
      (member : n ∈ rest.map Prod.fst) : line < n := by
    rw [List.map_append, List.map_cons] at ordered
    exact List.rel_of_pairwise_cons (List.pairwise_append.1 ordered).2.1 member
  rcases List.append_eq_append_iff.1 h with ⟨between, -, same⟩ | ⟨between, -, same⟩
  · cases between with
    | nil =>
        cases same
        exact ⟨rfl, rfl⟩
    | cons x between =>
        cases same
        exact absurd (later ordered (by simp)) (Nat.lt_irrefl line)
  · cases between with
    | nil =>
        cases same
        exact ⟨rfl, rfl⟩
    | cons x between =>
        cases same
        rw [h] at ordered
        exact absurd (later ordered (by simp)) (Nat.lt_irrefl line)

theorem LeavesOpen.eq {ls : List (Nat × Line)} {opened opened' : Opened} (h : LeavesOpen ls opened)
    (h' : LeavesOpen ls opened') (ordered : (ls.map Prod.fst).Pairwise (· < ·))
    (first : opened.first = opened'.first) (keyword : opened.keyword = opened'.keyword) :
    opened = opened' := by
  obtain ⟨before, body, rfl⟩ := h
  obtain ⟨before', body', same⟩ := h'
  cases opened with
  | loop line count =>
      cases opened' with
      | loop line' count' =>
          cases first
          cases (eq_of_append_cons same ordered).1
          rfl
      | guard | found | missed => exact absurd keyword (by simp [Opened.keyword])
  | guard line =>
      cases opened' with
      | guard line' =>
          cases first
          rfl
      | loop | found | missed => exact absurd keyword (by simp [Opened.keyword])
  | found line target =>
      cases opened' with
      | found line' target' =>
          cases first
          cases (eq_of_append_cons same ordered).1
          rfl
      | loop | guard | missed => exact absurd keyword (by simp [Opened.keyword])
  | missed line target found joint =>
      cases opened' with
      | missed line' target' found' joint' =>
          cases first
          simp only [Opened.lines, List.cons_append, List.append_assoc] at same ordered
          obtain ⟨head, rest⟩ := eq_of_append_cons same ordered
          cases head
          obtain ⟨rfl, joints⟩ := eq_of_linesAll_append found found' rest (stops_joint _ _)
            (stops_joint _ _)
          obtain ⟨rfl, -⟩ := joint_eq_of_lines joints
          rfl
      | loop | guard | found => exact absurd keyword (by simp [Opened.keyword])

end Script

namespace Block.State

open Script

variable {s s' : State} {ls : List (Nat × Line)}

theorem exists_takeAll_opened (s : State) (opened : Opened) :
    ∃ s' level, s.takeAll opened.lines = .ok s' ∧ s'.levels = level :: s.levels ∧
      level.place.line = opened.first ∧ level.block.keyword = opened.keyword := by
  have outer := levels_settle s
  cases opened with
  | loop line count => exact ⟨_, _, rfl, congrArg (_ :: ·) outer, rfl, rfl⟩
  | guard line => exact ⟨_, _, rfl, congrArg (_ :: ·) outer, rfl, rfl⟩
  | found line target => exact ⟨_, _, rfl, congrArg (_ :: ·) outer, rfl, rfl⟩
  | missed line target found joint =>
      obtain ⟨middle, taken, added⟩ :=
        takeAll_linesAll (s.settle.opens line (.branch target)) found
      have second := takeAll_joint joint taken added []
      rw [List.append_nil] at second
      exact ⟨_, _, second, congrArg (_ :: ·) outer, rfl, rfl⟩

theorem levels_of_takeAll_linesAll {ts : List Statement} (h : s.takeAll (linesAll ts) = .ok s') :
    s'.levels = s.levels := by
  obtain ⟨last, taken, added⟩ := takeAll_linesAll s ts
  cases taken.symm.trans h
  rw [← levels_settle, added, add, levels_settle]

theorem exists_level_of_leavesOpen {opened : Opened} (left : LeavesOpen ls opened)
    (h : s.takeAll ls = .ok s') :
    ∃ level rest, s'.levels = level :: rest ∧ level.place.line = opened.first ∧
      level.block.keyword = opened.keyword := by
  obtain ⟨before, body, rfl⟩ := left
  rw [takeAll_append] at h
  obtain ⟨middle, -, h⟩ := Except.bind_eq_ok_iff.1 h
  obtain ⟨inner, level, taken, levels, named⟩ := exists_takeAll_opened middle opened
  rw [takeAll_append, taken] at h
  exact ⟨level, middle.levels, (levels_of_takeAll_linesAll h).trans levels, named⟩

theorem exists_leavesOpen (h : ({} : State).takeAll ls = .ok s) (inside : s.levels ≠ []) :
    ∃ opened, LeavesOpen ls opened := by
  obtain ⟨p, fits, lines⟩ := exists_fits_takeAll fits_empty h
  obtain ⟨level, rest, levels⟩ := List.exists_cons_of_ne_nil inside
  have matched := fits.levels
  rw [levels] at matched
  obtain ⟨b, bodies, -, -, innermost⟩ := List.forall₂_cons_left_iff.1 matched
  have whole : p.lines = ls := lines
  rw [Prefix.lines_of_bodies innermost] at whole
  exact ⟨b.opened, p.outer.lines, b.statements, whole.symm⟩

end Block.State

namespace Program

open Script

theorem exists_leavesOpen_of_steps {source : String} {base : Policy} {s : Block.State}
    (accepted : ({} : Block.State).steps base 1 (Text.lines source.toList) = .ok s)
    (inside : s.levels ≠ []) :
    ∃ ls opened, meanings? base (remaining 1 (Text.lines source.toList)) = some ls ∧
      ({} : Block.State).takeAll ls = .ok s.untitled ∧ LeavesOpen ls opened ∧
      parse source base =
        .error (.parse opened.first (Block.Fault.neverClosed opened.keyword).message) := by
  obtain ⟨ls, meant, taken⟩ := (Block.State.steps_iff_takeAll _ _ _ _).1 ⟨s, accepted, rfl⟩
  obtain ⟨opened, left⟩ := Block.State.exists_leavesOpen taken inside
  obtain ⟨level, rest, levels, line, keyword⟩ := Block.State.exists_level_of_leavesOpen left taken
  refine ⟨ls, opened, meant, taken, left, ?_⟩
  rw [← line, ← keyword]
  exact parse_of_open accepted levels

/--
Lines that are accepted but leave a body open fail with the keyword of the innermost such body, at the
line where its statement starts. If this is no second body of a branch, the line has the brace of the
body. Else the line has the brace of the first body, which comes before.
-/
theorem parse_unclosed {source : String} {base : Policy} {s : Block.State}
    (accepted : ({} : Block.State).steps base 1 (Text.lines source.toList) = .ok s)
    (inside : s.levels ≠ []) :
    ∃ ls opened, meanings? base (remaining 1 (Text.lines source.toList)) = some ls ∧
      LeavesOpen ls opened ∧ (∀ other, LeavesOpen ls other → other = opened) ∧
      parse source base =
        .error (.parse opened.first (Block.Fault.neverClosed opened.keyword).message) ∧
      (opened.keyword ≠ "else" → opened.brace = opened.first) ∧
      (opened.keyword = "else" → opened.first < opened.brace) := by
  obtain ⟨ls, opened, meant, taken, left, failed⟩ := exists_leavesOpen_of_steps accepted inside
  have ordered := pairwise_of_meanings? meant
  refine ⟨ls, opened, meant, left, fun other left' => ?_, failed, ?_, left.first_lt_brace ordered⟩
  · -- The level on the stack is that of both bodies.
    obtain ⟨level, rest, levels, line, keyword⟩ := Block.State.exists_level_of_leavesOpen left taken
    obtain ⟨level', rest', levels', line', keyword'⟩ :=
      Block.State.exists_level_of_leavesOpen left' taken
    cases levels.symm.trans levels'
    exact left'.eq left ordered (line'.symm.trans line) (keyword'.symm.trans keyword)
  · obtain ⟨l, rest, -, single, -⟩ := opened.lines_eq_cons
    exact single

def openedElse : String :=
  "repeat 2 \x7b\n  if found ok \x7b\n    press a\n  \x7d\n  else \x7b\n    abort\n"

theorem parse_unclosed_openedElse :
    ∃ s ls opened, ({} : Block.State).steps .standard 1 (Text.lines openedElse.toList) = .ok s ∧
      s.levels ≠ [] ∧ meanings? .standard (remaining 1 (Text.lines openedElse.toList)) = some ls ∧
      LeavesOpen ls opened ∧ opened.first = 2 ∧ 2 < opened.brace ∧
      parse openedElse = .error (.parse 2 (Block.Fault.neverClosed "else").message) := by
  have counted : (({} : Block.State).steps .standard 1 (Text.lines openedElse.toList)).toOption.map
      (·.levels.map fun level => (level.place.line, level.block.keyword)) =
        some [(2, "else"), (1, "repeat")] := by
    decide +kernel
  obtain ⟨s, accepted, levels⟩ := Option.map_eq_some_iff.1 counted
  have accepted := Except.toOption_eq_some_iff.1 accepted
  obtain ⟨level, rest, inside, named, -⟩ := List.map_eq_cons_iff.1 levels
  obtain ⟨line, keyword⟩ := Prod.mk.inj named
  have failed := parse_of_open accepted inside
  rw [line, keyword] at failed
  have unclosed : s.levels ≠ [] := by
    rw [inside]
    exact List.cons_ne_nil _ _
  obtain ⟨ls, opened, meant, left, -, reported, -, second⟩ := parse_unclosed accepted unclosed
  injection reported.symm.trans failed with same
  injection same with first message
  have different : ∀ other ∈ ["repeat", "try", "if"],
      (Block.Fault.neverClosed other).message ≠ (Block.Fault.neverClosed "else").message := by
    decide +kernel
  have isElse : opened.keyword = "else" := by
    cases opened with
    | missed => rfl
    | loop | guard | found => exact absurd message (different _ (by simp [Opened.keyword]))
  exact ⟨s, ls, opened, accepted, unclosed, meant, left, first, first ▸ second isElse, failed⟩

/-- The second body is opened on line 2, and the line of the first is reported. -/
theorem exists_reported_before_brace :
    ∃ s ls opened, ({} : Block.State).steps .standard 1
        (Text.lines "if found a \x7b\n\x7d else \x7b\n".toList) = .ok s ∧
      s.levels ≠ [] ∧
      meanings? .standard (remaining 1 (Text.lines "if found a \x7b\n\x7d else \x7b\n".toList)) =
        some ls ∧
      LeavesOpen ls opened ∧ opened.brace = 2 ∧
      parse "if found a \x7b\n\x7d else \x7b\n" =
        .error (.parse 1 (Block.Fault.neverClosed opened.keyword).message) := by
  have counted : (({} : Block.State).steps .standard 1
      (Text.lines "if found a \x7b\n\x7d else \x7b\n".toList)).toOption.map
      (·.levels.map fun level => (level.place.line, level.block.keyword)) = some [(1, "else")] := by
    decide +kernel
  have numbers : (remaining 1 (Text.lines "if found a \x7b\n\x7d else \x7b\n".toList)).map Prod.fst =
      [1, 2] := by
    decide +kernel
  obtain ⟨s, accepted, levels⟩ := Option.map_eq_some_iff.1 counted
  have accepted := Except.toOption_eq_some_iff.1 accepted
  obtain ⟨level, rest, inside, named, -⟩ := List.map_eq_cons_iff.1 levels
  obtain ⟨line, keyword⟩ := Prod.mk.inj named
  have unclosed : s.levels ≠ [] := by
    rw [inside]
    exact List.cons_ne_nil _ _
  obtain ⟨ls, opened, meant, taken, left, failed⟩ := exists_leavesOpen_of_steps accepted unclosed
  obtain ⟨level', rest', inside', line', keyword'⟩ := Block.State.exists_level_of_leavesOpen left taken
  cases inside.symm.trans inside'
  have first : opened.first = 1 := line'.symm.trans line
  have second : opened.keyword = "else" := keyword'.symm.trans keyword
  -- The brace is on a line after the first, and there are two lines.
  have later := left.first_lt_brace (pairwise_of_meanings? meant) second
  rw [first] at failed later
  have counts := left.brace_mem second
  rw [fst_meanings? meant, numbers] at counts
  have brace : opened.brace = 2 := by
    simp only [List.mem_cons, List.not_mem_nil, or_false] at counts
    omega
  exact ⟨s, ls, opened, accepted, unclosed, meant, left, brace, failed⟩

end Program

end ScreenScript
