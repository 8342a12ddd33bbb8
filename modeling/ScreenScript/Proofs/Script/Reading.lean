import ScreenScript.Proofs.Script.Grammar
import ScreenScript.Proofs.Script.Sentences

namespace ScreenScript

namespace Block

namespace State

open Script

section

variable (s : State)

theorem levels_settle : s.settle.levels = s.levels := by
  unfold settle
  cases s.waiting with
  | none => rfl
  | some w => rfl

theorem nextIndex_settle : s.settle.nextIndex = s.nextIndex := by
  unfold settle
  cases s.waiting with
  | none => rfl
  | some w => rfl

theorem defaults_settle : s.settle.defaults = s.defaults := by
  unfold settle
  cases s.waiting with
  | none => rfl
  | some w => rfl

theorem waiting_settle : s.settle.waiting = none := by
  unfold settle
  cases h : s.waiting with
  | none => exact h
  | some w => rfl

theorem settle_of_waiting {s : State} (h : s.waiting = none) : s.settle = s := by
  rw [settle, h]

theorem takeAll_append (ls ls' : List (Nat × Line)) :
    s.takeAll (ls ++ ls') = s.takeAll ls >>= fun s' => s'.takeAll ls' := by
  induction ls generalizing s with
  | nil => rfl
  | cons first rest ih =>
      rw [List.cons_append, takeAll, takeAll]
      cases s.take first.1 first.2 with
      | error fault => rfl
      | ok s' => exact ih s'

def add (s : State) (ts : List Statement) : State :=
  { s with
    current := (instructions s.nextIndex ts).reverse ++ s.current
    nextIndex := s.nextIndex + sizeAll ts }

theorem add_cons (t : Statement) (rest : List Statement) :
    s.add (t :: rest) = (s.add [t]).add rest := by
  simp only [add, instructions, sizeAll, List.reverse_cons, List.reverse_nil, List.append_assoc,
    List.nil_append, List.cons_append, Nat.add_zero, Nat.add_assoc]

theorem take_closes {s : State} (line : Nat) (inside : s.levels ≠ []) :
    s.take line .closes = s.settle.closes := by
  obtain ⟨level, rest, h⟩ := List.exists_cons_of_ne_nil inside
  simp only [take, admits, Line.role, h]
  rfl

theorem take_closesElse {s : State} (line : Nat) (inside : s.levels ≠ []) :
    s.take line .closesElse = s.settle.closesElse := by
  obtain ⟨level, rest, h⟩ := List.exists_cons_of_ne_nil inside
  simp only [take, admits, Line.role, h]
  rfl

theorem take_opensElse {s s' : State} (line : Nat) (h : s.opensElse = .ok s') :
    s.take line .opensElse = .ok s' := by
  have waits : s.waiting.isNone = false := by
    cases h' : s.waiting with
    | none =>
        rw [opensElse, h'] at h
        cases h
    | some w => rfl
  simp only [take, admits, Line.role, waits]
  exact h

end

def second (r : State) (line : Nat) (target : Target) (found : List Statement) : State :=
  { r with
    current := []
    levels := ⟨⟨r.nextIndex, line⟩, .missed target (instructions (r.nextIndex + 1) found),
      r.current⟩ :: r.levels
    nextIndex := r.nextIndex + 1 + sizeAll found }

section

variable (r : State) (line closing : Nat)

theorem closes_loop (count : Expr) (body : List Statement) :
    ((r.opens line (.loop count)).add body).closes =
      .ok (r.add [.loop line count body closing]) := by
  simp only [add, opens, enter, closes, leave, instructions, Statement.instruction, sizeAll,
    Statement.size, List.append_nil, List.reverse_reverse, List.reverse_cons, List.reverse_nil,
    List.nil_append, List.cons_append, Nat.add_zero]
  rw [Nat.add_assoc, Nat.add_comm 1]

theorem closes_guard (body : List Statement) :
    ((r.opens line .guard).add body).closes = .ok (r.add [.guard line body closing]) := by
  simp only [add, opens, enter, closes, leave, instructions, Statement.instruction, sizeAll,
    Statement.size, List.append_nil, List.reverse_reverse, List.reverse_cons, List.reverse_nil,
    List.nil_append, List.cons_append, Nat.add_zero]
  rw [Nat.add_assoc, Nat.add_comm 1]

theorem closes_branch (target : Target) (found : List Statement) (unsettled : r.waiting = none) :
    ∃ s', ((r.opens line (.branch target)).add found).closes = .ok s' ∧
      s'.settle = r.add [.branch line target found closing] ∧
      s'.opensElse = .ok (r.second line target found) := by
  refine ⟨_, rfl, ?_, ?_⟩
  · simp only [add, opens, enter, leave, settle, Waiting.instruction, instructions,
      Statement.instruction, sizeAll, Statement.size, List.append_nil, List.reverse_reverse,
      List.reverse_cons, List.reverse_nil, List.nil_append, List.cons_append, Nat.add_zero,
      unsettled]
    rw [Nat.add_assoc, Nat.add_comm 1]
  · simp only [add, opens, enter, leave, opensElse, second, List.append_nil, List.reverse_reverse,
      unsettled]

theorem closesElse_branch (target : Target) (found : List Statement) :
    ((r.opens line (.branch target)).add found).closesElse =
      .ok (r.second line target found) := by
  simp only [add, opens, enter, closesElse, leave, second, List.append_nil, List.reverse_reverse]

theorem closes_second (target : Target) (found missed : List Statement) (joint : Joint) :
    ((r.second line target found).add missed).closes =
      .ok (r.add [.branchElse line target found joint missed closing]) := by
  simp only [add, second, closes, leave, instructions, Statement.instruction, sizeAll,
    Statement.size, List.append_nil, List.reverse_reverse, List.reverse_cons, List.reverse_nil,
    List.nil_append, List.cons_append, Nat.add_zero]
  have number : r.nextIndex + 1 + sizeAll found + sizeAll missed =
      r.nextIndex + (sizeAll found + sizeAll missed + 1) := by omega
  rw [number]

end

section

variable {s s' : State} {ts : List Statement}

theorem takeAll_body (taken : s.takeAll (linesAll ts) = .ok s') (added : s'.settle = s.settle.add ts)
    (unsettled : s.waiting = none) (inside : s.levels ≠ []) (closing : Nat)
    (after : List (Nat × Line)) :
    s.takeAll (linesAll ts ++ (closing, .closes) :: after) =
      (s.add ts).closes >>= fun s' => s'.takeAll after := by
  rw [settle_of_waiting unsettled] at added
  have same : s'.levels = s.levels := by rw [← levels_settle, added, add]
  rw [takeAll_append, taken, ← added, ← take_closes closing (by rwa [same])]
  rfl

theorem takeAll_body_else (taken : s.takeAll (linesAll ts) = .ok s')
    (added : s'.settle = s.settle.add ts) (unsettled : s.waiting = none) (inside : s.levels ≠ [])
    (line : Nat) (after : List (Nat × Line)) :
    s.takeAll (linesAll ts ++ (line, .closesElse) :: after) =
      (s.add ts).closesElse >>= fun s' => s'.takeAll after := by
  rw [settle_of_waiting unsettled] at added
  have same : s'.levels = s.levels := by rw [← levels_settle, added, add]
  rw [takeAll_append, taken, ← added, ← take_closesElse line (by rwa [same])]
  rfl

theorem takeAll_joint {line : Nat} {target : Target} {found : List Statement} (joint : Joint)
    (taken : (s.settle.opens line (.branch target)).takeAll (linesAll found) = .ok s')
    (added : s'.settle = (s.settle.opens line (.branch target)).settle.add found)
    (after : List (Nat × Line)) :
    (s.settle.opens line (.branch target)).takeAll (linesAll found ++ (joint.lines ++ after)) =
      (s.settle.second line target found).takeAll after := by
  have unsettled := waiting_settle s
  cases joint with
  | joined between =>
      have first := takeAll_body_else taken added unsettled (List.cons_ne_nil _ _) between after
      rw [closesElse_branch] at first
      exact first
  | apart closing opening =>
      have first := takeAll_body taken added unsettled (List.cons_ne_nil _ _) closing
        ((opening, .opensElse) :: after)
      obtain ⟨closed, closed_eq, -, reopened⟩ :=
        closes_branch s.settle line closing target found unsettled
      rw [closed_eq] at first
      have second : closed.takeAll ((opening, .opensElse) :: after) =
          (s.settle.second line target found).takeAll after := by
        rw [takeAll, take_opensElse opening reopened]
        rfl
      exact first.trans second

end

mutual

theorem takeAll_lines (s : State) (t : Statement) :
    ∃ s', s.takeAll t.lines = .ok s' ∧ s'.settle = s.settle.add [t] := by
  -- A waiting branch of `s` is settled by the first line, which never starts with `else`.
  have unsettled := waiting_settle s
  cases t with
  | act line action =>
      refine ⟨s.settle.act line action, by rw [Statement.lines]; rfl, ?_⟩
      exact settle_of_waiting unsettled
  | loop line count body closing =>
      obtain ⟨last, taken, added⟩ := takeAll_linesAll (s.settle.opens line (.loop count)) body
      have whole := takeAll_body taken added unsettled (List.cons_ne_nil _ _) closing []
      rw [closes_loop s.settle line closing] at whole
      refine ⟨_, ?_, settle_of_waiting unsettled⟩
      rw [Statement.lines]
      exact whole
  | guard line body closing =>
      obtain ⟨last, taken, added⟩ := takeAll_linesAll (s.settle.opens line .guard) body
      have whole := takeAll_body taken added unsettled (List.cons_ne_nil _ _) closing []
      rw [closes_guard s.settle line closing] at whole
      refine ⟨_, ?_, settle_of_waiting unsettled⟩
      rw [Statement.lines]
      exact whole
  | branch line target found closing =>
      obtain ⟨last, taken, added⟩ := takeAll_linesAll (s.settle.opens line (.branch target)) found
      have whole := takeAll_body taken added unsettled (List.cons_ne_nil _ _) closing []
      obtain ⟨closed, closed_eq, settled, -⟩ :=
        closes_branch s.settle line closing target found unsettled
      rw [closed_eq] at whole
      refine ⟨closed, ?_, settled⟩
      rw [Statement.lines]
      exact whole
  | branchElse line target found joint missed closing =>
      obtain ⟨middle, taken, added⟩ :=
        takeAll_linesAll (s.settle.opens line (.branch target)) found
      obtain ⟨last, taken', added'⟩ := takeAll_linesAll (s.settle.second line target found) missed
      have whole := takeAll_body taken' added' unsettled (List.cons_ne_nil _ _) closing []
      rw [closes_second s.settle line closing target found missed joint] at whole
      refine ⟨_, ?_, settle_of_waiting unsettled⟩
      rw [Statement.lines]
      exact (takeAll_joint joint taken added _).trans whole

theorem takeAll_linesAll (s : State) (ts : List Statement) :
    ∃ s', s.takeAll (linesAll ts) = .ok s' ∧ s'.settle = s.settle.add ts := by
  match ts with
  | [] => exact ⟨s, rfl, rfl⟩
  | t :: rest =>
      obtain ⟨first, taken, settled⟩ := takeAll_lines s t
      obtain ⟨last, taken', settled'⟩ := takeAll_linesAll first rest
      refine ⟨last, ?_, ?_⟩
      · rw [linesAll, takeAll_append, taken]
        exact taken'
      · rw [settled', settled, ← add_cons]

end

def addItems (s : State) (items : List Item) : State :=
  { s.add (statements items) with defaults := declared s.defaults items }

theorem addItems_statement (s : State) (t : Statement) (rest : List Item) :
    s.addItems (.statement t :: rest) = (s.add [t]).addItems rest := by
  rw [addItems, statements, add_cons]
  rfl

def declare (s : State) (name : String) (value : Value) : State :=
  { s with defaults := s.defaults.insert name value }

theorem take_declare {s : State} (line : Nat) (name : String) (value : Value)
    (outside : s.levels = []) :
    s.take line (.declare name value) = .ok (s.settle.declare name value) := by
  simp only [take, admits, Line.role, outside]
  rfl

theorem takeAll_itemLines (s : State) (outside : s.levels = []) (items : List Item) :
    ∃ s', s.takeAll (itemLines items) = .ok s' ∧ s'.settle = s.settle.addItems items := by
  induction items generalizing s with
  | nil => exact ⟨s, rfl, rfl⟩
  | cons item rest ih =>
      rw [itemLines, List.flatMap_cons, takeAll_append]
      cases item with
      | statement t =>
          obtain ⟨first, taken, settled⟩ := takeAll_lines s t
          have same : first.levels = s.levels := by
            rw [← levels_settle, settled, add, levels_settle]
          obtain ⟨last, taken', settled'⟩ := ih first (same.trans outside)
          refine ⟨last, ?_, ?_⟩
          · rw [Item.lines, taken]
            exact taken'
          · rw [settled', settled, ← addItems_statement]
      | declare line name value =>
          have unsettled : (s.settle.declare name value).waiting = none := waiting_settle s
          obtain ⟨last, taken', settled'⟩ :=
            ih (s.settle.declare name value) ((levels_settle s).trans outside)
          refine ⟨last, ?_, ?_⟩
          · rw [Item.lines, takeAll, take_declare line name value outside]
            exact taken'
          · rw [settled', settle_of_waiting unsettled]
            rfl

end State

end Block

end ScreenScript
