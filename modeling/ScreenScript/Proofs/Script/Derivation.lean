import Mathlib.Data.List.Forall2
import ScreenScript.Proofs.Script.Reading

/-!
# Scripts are read by the grammar

The lines that have been read at any time are those of a tree with open bodies (`Script.Prefix`),
which grows by one line in every step (`Block.State.exists_fits_take`). When no body is open, it is a
whole tree; so a script is read if and only if its lines are those of a tree (`Program.parse_iff`).
-/

namespace ScreenScript

/-! ## Trees with open bodies -/

namespace Script

inductive Opened where
  | loop (line : Nat) (count : Expr)
  | guard (line : Nat)
  | found (line : Nat) (target : Target)
  | missed (line : Nat) (target : Target) (first : List Statement) (joint : Joint)

structure Body where
  opened : Opened
  statements : List Statement := []

structure Prefix where
  items : List Item := []
  bodies : List Body := []

namespace Opened

def lines : Opened → List (Nat × Line)
  | loop line count => [(line, .opens (.loop count))]
  | guard line => [(line, .opens .guard)]
  | found line target => [(line, .opens (.branch target))]
  | missed line target first joint =>
    (line, .opens (.branch target)) :: (linesAll first ++ joint.lines)

def statement (closing : Nat) (body : List Statement) : Opened → Statement
  | loop line count => .loop line count body closing
  | guard line => .guard line body closing
  | found line target => .branch line target body closing
  | missed line target first joint => .branchElse line target first joint body closing

def ofOpening (line : Nat) : Opening → Opened
  | .loop count => loop line count
  | .guard => guard line
  | .branch target => found line target

theorem lines_statement (opened : Opened) (closing : Nat) (body : List Statement) :
    (opened.statement closing body).lines =
      opened.lines ++ linesAll body ++ [(closing, .closes)] := by
  cases opened with
  | loop line count =>
      rw [statement, Statement.lines]
      rfl
  | guard line =>
      rw [statement, Statement.lines]
      rfl
  | found line target =>
      rw [statement, Statement.lines]
      rfl
  | missed line target first joint =>
      rw [statement, Statement.lines]
      simp only [lines, List.cons_append, List.append_assoc]

end Opened

def Body.lines (b : Body) : List (Nat × Line) :=
  b.opened.lines ++ linesAll b.statements

namespace Prefix

def lines (p : Prefix) : List (Nat × Line) :=
  itemLines p.items ++ p.bodies.reverse.flatMap Body.lines

def enter (p : Prefix) (opened : Opened) : Prefix :=
  { p with bodies := { opened } :: p.bodies }

def add (p : Prefix) (t : Statement) : Prefix :=
  match p.bodies with
  | [] => { p with items := p.items ++ [.statement t] }
  | b :: rest => { p with bodies := { b with statements := b.statements ++ [t] } :: rest }

def declare (p : Prefix) (line : Nat) (name : String) (value : Value) : Prefix :=
  { p with items := p.items ++ [.declare line name value] }

def outer (p : Prefix) : Prefix :=
  { p with bodies := p.bodies.tail }

theorem lines_of_bodies {p : Prefix} {b : Body} {rest : List Body} (h : p.bodies = b :: rest) :
    p.lines = p.outer.lines ++ (b.opened.lines ++ linesAll b.statements) := by
  simp only [lines, outer, h, List.tail_cons, List.reverse_cons, List.flatMap_append,
    List.flatMap_cons, List.flatMap_nil, List.append_nil, Body.lines, List.append_assoc]

theorem lines_enter (p : Prefix) (opened : Opened) :
    (p.enter opened).lines = p.lines ++ opened.lines := by
  simp only [lines, enter, List.reverse_cons, List.flatMap_append, List.flatMap_cons,
    List.flatMap_nil, List.append_nil, Body.lines, linesAll, List.append_assoc]

theorem lines_add (p : Prefix) (t : Statement) : (p.add t).lines = p.lines ++ t.lines := by
  obtain ⟨items, bodies⟩ := p
  cases bodies with
  | nil =>
      simp only [lines, add, itemLines, List.flatMap_append, List.flatMap_cons, List.flatMap_nil,
        List.append_nil, List.reverse_nil, Item.lines]
  | cons b rest =>
      simp only [lines, add, List.reverse_cons, List.flatMap_append, List.flatMap_cons,
        List.flatMap_nil, List.append_nil, Body.lines, linesAll_append, linesAll,
        List.append_assoc]

theorem lines_declare {p : Prefix} (outside : p.bodies = []) (line : Nat) (name : String)
    (value : Value) :
    (p.declare line name value).lines = p.lines ++ [(line, .declare name value)] := by
  simp only [lines, declare, outside, itemLines, List.flatMap_append, List.flatMap_cons,
    List.flatMap_nil, List.append_nil, List.reverse_nil, Item.lines]

end Prefix

end Script

/-! ## What has been read -/

namespace Block

open Script

def Level.Fits (level : Level) (b : Body) : Prop :=
  match level.block, b.opened with
  | .loop _, .loop .. | .guard, .guard _ | .found _, .found .. | .missed .., .missed .. => True
  | _, _ => False

namespace State

structure Fits (s : State) (p : Prefix) : Prop where
  levels : List.Forall₂ Level.Fits s.levels p.bodies
  waiting : s.waiting.isSome → ∃ before line target found closing,
    p = Prefix.add before (.branch line target found closing)

section

variable {s s' : State} {p : Prefix} {line : Nat}

theorem fits_empty : Fits {} {} where
  levels := .nil
  waiting := nofun

theorem fits_of_levels (h : List.Forall₂ Level.Fits s.levels p.bodies)
    (unsettled : s.waiting = none) : s.Fits p where
  levels := h
  waiting := by
    rw [unsettled]
    nofun

theorem Fits.settle (fits : s.Fits p) : s.settle.Fits p := by
  refine fits_of_levels ?_ (waiting_settle s)
  rw [levels_settle]
  exact fits.levels

theorem forall₂_bodies_add {levels : List Level} (p : Prefix) (t : Statement) :
    List.Forall₂ Level.Fits levels (p.add t).bodies ↔ List.Forall₂ Level.Fits levels p.bodies := by
  obtain ⟨items, bodies⟩ := p
  cases bodies with
  | nil => exact Iff.rfl
  | cons b rest =>
      constructor
      · rintro (_ | ⟨kind, others⟩)
        exact .cons kind others
      · rintro (_ | ⟨kind, others⟩)
        exact .cons kind others

theorem exists_fits_closes (fits : s.Fits p) (unsettled : s.waiting = none)
    (h : s.closes = .ok s') :
    ∃ p', s'.Fits p' ∧ p'.lines = p.lines ++ [(line, .closes)] := by
  obtain ⟨levels, -⟩ := fits
  cases hs : s.levels with
  | nil =>
      rw [closes, hs] at h
      cases h
  | cons level rest =>
      rw [hs] at levels
      obtain ⟨b, bodies, kind, others, hp⟩ := List.forall₂_cons_left_iff.1 levels
      have added := p.outer.lines_add (b.opened.statement line b.statements)
      rw [Opened.lines_statement, ← List.append_assoc, ← Prefix.lines_of_bodies hp] at added
      have inner : List.Forall₂ Level.Fits rest
          (p.outer.add (b.opened.statement line b.statements)).bodies := by
        rw [forall₂_bodies_add, Prefix.outer, hp]
        exact others
      refine ⟨_, ?_, added⟩
      rw [closes, hs] at h
      obtain ⟨place, block, before⟩ := level
      cases block with
      | loop count =>
          cases h
          exact fits_of_levels inner unsettled
      | guard =>
          cases h
          exact fits_of_levels inner unsettled
      | missed target first =>
          cases h
          exact fits_of_levels inner unsettled
      | found target =>
          -- Only here does a branch wait, and it is the statement that has just been added.
          cases h
          refine ⟨inner, fun _ => ?_⟩
          cases opened : b.opened with
          | found line' target' => exact ⟨_, _, _, _, _, rfl⟩
          | _ => simp [Level.Fits, opened] at kind

theorem exists_fits_closesElse (fits : s.Fits p) (unsettled : s.waiting = none)
    (h : s.closesElse = .ok s') :
    ∃ p', s'.Fits p' ∧ p'.lines = p.lines ++ [(line, .closesElse)] := by
  obtain ⟨levels, -⟩ := fits
  cases hs : s.levels with
  | nil =>
      rw [closesElse, hs] at h
      cases h
  | cons level rest =>
      rw [hs] at levels
      obtain ⟨b, bodies, kind, others, hp⟩ := List.forall₂_cons_left_iff.1 levels
      rw [closesElse, hs] at h
      obtain ⟨place, block, before⟩ := level
      cases block with
      | loop count => cases h
      | guard => cases h
      | missed target first => cases h
      | found target =>
          cases h
          cases opened : b.opened with
          | found line' target' =>
              refine ⟨p.outer.enter (.missed line' target' b.statements (.joined line)), ?_, ?_⟩
              · refine fits_of_levels (.cons trivial ?_) unsettled
                rw [Prefix.outer, hp]
                exact others
              · rw [p.outer.lines_enter, Prefix.lines_of_bodies hp, opened]
                simp only [Opened.lines, Joint.lines, List.append_assoc, List.cons_append,
                  List.nil_append]
          | _ => simp [Level.Fits, opened] at kind

theorem exists_fits_opensElse (fits : s.Fits p) (h : s.opensElse = .ok s') :
    ∃ p', s'.Fits p' ∧ p'.lines = p.lines ++ [(line, .opensElse)] := by
  cases hs : s.waiting with
  | none =>
      rw [opensElse, hs] at h
      cases h
  | some w =>
      rw [opensElse, hs] at h
      cases h
      obtain ⟨before, line', target, found, closing, rfl⟩ := fits.waiting (by rw [hs]; rfl)
      refine ⟨before.enter (.missed line' target found (.apart closing line)), ?_, ?_⟩
      · exact fits_of_levels (.cons trivial ((forall₂_bodies_add before _).1 fits.levels)) rfl
      · rw [before.lines_enter, before.lines_add, Statement.lines]
        simp only [Opened.lines, Joint.lines, List.append_assoc, List.cons_append, List.nil_append]

theorem exists_fits_take {l : Line} (fits : s.Fits p) (h : s.take line l = .ok s') :
    ∃ p', s'.Fits p' ∧ p'.lines = p.lines ++ [(line, l)] := by
  obtain ⟨_, admitted, h⟩ := Except.bind_eq_ok_iff.1 h
  have unsettled := waiting_settle s
  cases l with
  | act action =>
      cases h
      refine ⟨p.add (.act line action), ?_, p.lines_add _⟩
      exact fits_of_levels ((forall₂_bodies_add p _).2 fits.settle.levels) unsettled
  | declare name value =>
      cases h
      have outside : p.bodies = [] := by
        have levels := fits.levels
        cases hs : s.levels with
        | nil =>
            rw [hs] at levels
            exact List.forall₂_nil_left_iff.1 levels
        | cons level rest =>
            rw [Line.role, admits, hs] at admitted
            cases admitted
      refine ⟨p.declare line name value, ?_, p.lines_declare outside line name value⟩
      exact fits_of_levels fits.settle.levels unsettled
  | opens opening =>
      cases h
      refine ⟨p.enter (.ofOpening line opening), ?_, ?_⟩
      · refine fits_of_levels (.cons ?_ fits.settle.levels) unsettled
        cases opening with
        | loop count => trivial
        | guard => trivial
        | branch target => trivial
      · rw [p.lines_enter]
        cases opening with
        | loop count => rfl
        | guard => rfl
        | branch target => rfl
  | closes => exact exists_fits_closes fits.settle unsettled h
  | closesElse => exact exists_fits_closesElse fits.settle unsettled h
  | opensElse => exact exists_fits_opensElse fits h

theorem exists_fits_takeAll {ls : List (Nat × Line)} (fits : s.Fits p) (h : s.takeAll ls = .ok s') :
    ∃ p', s'.Fits p' ∧ p'.lines = p.lines ++ ls := by
  induction ls generalizing s p with
  | nil =>
      cases h
      exact ⟨p, fits, (List.append_nil _).symm⟩
  | cons first rest ih =>
      obtain ⟨line, l⟩ := first
      obtain ⟨middle, taken, h⟩ := Except.bind_eq_ok_iff.1 h
      obtain ⟨p₁, fits₁, lines₁⟩ := exists_fits_take fits taken
      obtain ⟨p₂, fits₂, lines₂⟩ := ih fits₁ h
      refine ⟨p₂, fits₂, ?_⟩
      rw [lines₂, lines₁, List.append_assoc]
      rfl

theorem exists_items_of_takeAll {ls : List (Nat × Line)} (h : ({} : State).takeAll ls = .ok s)
    (outside : s.levels = []) : ∃ items, ls = itemLines items := by
  obtain ⟨p, fits, lines⟩ := exists_fits_takeAll fits_empty h
  have levels := fits.levels
  rw [outside] at levels
  have bodies : p.bodies = [] := List.forall₂_nil_left_iff.1 levels
  refine ⟨p.items, Eq.symm ?_⟩
  simpa [Prefix.lines, bodies, itemLines] using lines

end

end State

end Block

/-! ## Whole scripts -/

/-- Whether the lines of a script that count are those of a tree, each read by itself. -/
def Script.Writes (base : Policy) (source : String) (items : List Item) : Prop :=
  meanings? base (remaining 1 (Text.lines source.toList)) = some (itemLines items)

namespace Program

open Script

theorem parse_eq_ok_iff (source : String) (base : Policy) (p : Program) :
    parse source base = .ok p ↔
      ∃ s, ({} : Block.State).steps base 1 (Text.lines source.toList) = .ok s ∧
        s.finish = .ok p := by
  rw [parse, Except.mapError_eq_ok_iff, ofLines, Except.bind_eq_ok_iff]

theorem finish_of_addItems {s : Block.State} {items : List Item}
    (h : s.untitled.settle = ({} : Block.State).addItems items) :
    ∃ p, s.finish = .ok p ∧ p.instructions = Script.instructions 0 (statements items) ∧
      p.defaults = declared ∅ items ∧ p.size = sizeAll (statements items) := by
  rw [Block.State.untitled_settle] at h
  have outside : s.levels = [] := by
    rw [← Block.State.levels_settle]
    exact congrArg Block.State.levels h
  refine ⟨_, by rw [Block.State.finish, outside], ?_, ?_, ?_⟩
  · have current : s.settle.current = (Script.instructions 0 (statements items)).reverse ++ [] :=
      congrArg Block.State.current h
    rw [current, List.append_nil, List.reverse_reverse]
  · exact s.defaults_settle.symm.trans (congrArg Block.State.defaults h)
  · have number : s.settle.nextIndex = 0 + sizeAll (statements items) :=
      congrArg Block.State.nextIndex h
    exact (s.nextIndex_settle.symm.trans number).trans (Nat.zero_add _)

theorem exists_writes_of_parse {source : String} {base : Policy} {p : Program}
    (h : parse source base = .ok p) :
    ∃ items, Writes base source items ∧
      p.instructions = Script.instructions 0 (statements items) ∧
      p.defaults = declared ∅ items ∧ p.size = sizeAll (statements items) := by
  obtain ⟨s, read, finished⟩ := (parse_eq_ok_iff source base p).1 h
  obtain ⟨ls, meant, taken⟩ := (Block.State.steps_iff_takeAll _ _ _ _).1 ⟨s, read, rfl⟩
  have outside : s.levels = [] := by
    cases hs : s.levels with
    | nil => rfl
    | cons level rest =>
        rw [Block.State.finish, hs] at finished
        cases finished
  obtain ⟨items, rfl⟩ := Block.State.exists_items_of_takeAll taken outside
  -- The lines are those of `items`, so reading them again shows what has been read.
  obtain ⟨s', taken', added⟩ := Block.State.takeAll_itemLines {} rfl items
  cases taken.symm.trans taken'
  obtain ⟨p', finished', same⟩ := finish_of_addItems added
  cases finished.symm.trans finished'
  exact ⟨items, meant, same⟩

theorem exists_parse_of_writes {source : String} {base : Policy} {items : List Item}
    (h : Writes base source items) : ∃ p, parse source base = .ok p := by
  obtain ⟨t, taken, added⟩ := Block.State.takeAll_itemLines {} rfl items
  obtain ⟨s, read, rfl⟩ := (Block.State.steps_iff_takeAll {} t _ _).2 ⟨_, h, taken⟩
  obtain ⟨p, finished, -⟩ := finish_of_addItems added
  exact ⟨p, (parse_eq_ok_iff source base p).2 ⟨s, read, finished⟩⟩

/--
A script is read if and only if it is written by a tree. The tree is then the only one that writes
it, and the program has its instructions.
-/
theorem parse_iff (source : String) (base : Policy) :
    ((∃ p, parse source base = .ok p) ↔ ∃ items, Writes base source items) ∧
      ∀ p, parse source base = .ok p →
        ∃ items, Writes base source items ∧
          (∀ others, Writes base source others → others = items) ∧
          p.instructions = Script.instructions 0 (statements items) ∧
          p.defaults = declared ∅ items ∧
          p.size = sizeAll (statements items) := by
  refine ⟨⟨?_, ?_⟩, ?_⟩
  · rintro ⟨p, h⟩
    obtain ⟨items, writes, -⟩ := exists_writes_of_parse h
    exact ⟨items, writes⟩
  · rintro ⟨items, writes⟩
    exact exists_parse_of_writes writes
  · intro p h
    obtain ⟨items, writes, same⟩ := exists_writes_of_parse h
    refine ⟨items, writes, ?_, same⟩
    intro others writes'
    exact itemLines_injective (Option.some.inj (writes'.symm.trans writes))

end Program

end ScreenScript
