import ScreenScript.Script.Line

namespace ScreenScript

namespace Script

inductive Joint where
  /-- One line closes the first body and opens the second. -/
  | joined (line : Nat)
  /-- A line closes the first body, and the next one opens the second. -/
  | apart (closing opening : Nat)

inductive Statement where
  | act (line : Nat) (action : Action)
  | loop (line : Nat) (count : Expr) (body : List Statement) (closing : Nat)
  | guard (line : Nat) (body : List Statement) (closing : Nat)
  | branch (line : Nat) (target : Target) (found : List Statement) (closing : Nat)
  | branchElse (line : Nat) (target : Target) (found : List Statement) (joint : Joint)
    (missed : List Statement) (closing : Nat)

inductive Item where
  | statement (statement : Statement)
  | declare (line : Nat) (name : String) (value : Value)

/-! ## The lines of a tree -/

def Joint.lines : Joint → List (Nat × Line)
  | joined line => [(line, .closesElse)]
  | apart closing opening => [(closing, .closes), (opening, .opensElse)]

mutual

def Statement.lines : Statement → List (Nat × Line)
  | .act line action => [(line, .act action)]
  | .loop line count body closing =>
    (line, .opens (.loop count)) :: (linesAll body ++ [(closing, .closes)])
  | .guard line body closing => (line, .opens .guard) :: (linesAll body ++ [(closing, .closes)])
  | .branch line target found closing =>
    (line, .opens (.branch target)) :: (linesAll found ++ [(closing, .closes)])
  | .branchElse line target found joint missed closing =>
    (line, .opens (.branch target)) ::
      (linesAll found ++ (joint.lines ++ (linesAll missed ++ [(closing, .closes)])))

def linesAll : List Statement → List (Nat × Line)
  | [] => []
  | t :: rest => t.lines ++ linesAll rest

end

def Item.lines : Item → List (Nat × Line)
  | statement t => t.lines
  | declare line name value => [(line, .declare name value)]

def itemLines (items : List Item) : List (Nat × Line) :=
  items.flatMap Item.lines

theorem linesAll_append (ts ts' : List Statement) :
    linesAll (ts ++ ts') = linesAll ts ++ linesAll ts' := by
  induction ts with
  | nil => rfl
  | cons t rest ih => rw [List.cons_append, linesAll, ih, linesAll, List.append_assoc]

/-! ## The instructions of a tree -/

mutual

def Statement.size : Statement → Nat
  | .act .. => 1
  | .loop _ _ body _ => sizeAll body + 1
  | .guard _ body _ => sizeAll body + 1
  | .branch _ _ found _ => sizeAll found + 1
  | .branchElse _ _ found _ missed _ => sizeAll found + sizeAll missed + 1

def sizeAll : List Statement → Nat
  | [] => 0
  | t :: rest => t.size + sizeAll rest

end

mutual

def Statement.instruction (index : Nat) : Statement → Instruction
  | .act line action => .act ⟨index, line⟩ action
  | .loop line count body _ => .loop ⟨index, line⟩ count (instructions (index + 1) body)
  | .guard line body _ => .guard ⟨index, line⟩ (instructions (index + 1) body)
  | .branch line target found _ =>
    .branch ⟨index, line⟩ target (instructions (index + 1) found) []
  | .branchElse line target found _ missed _ =>
    .branch ⟨index, line⟩ target (instructions (index + 1) found)
      (instructions (index + 1 + sizeAll found) missed)

def instructions (index : Nat) : List Statement → List Instruction
  | [] => []
  | t :: rest => t.instruction index :: instructions (index + t.size) rest

end

def statements : List Item → List Statement
  | [] => []
  | .statement t :: rest => t :: statements rest
  | .declare .. :: rest => statements rest

/-- The defaults with those that some items declare; the last one of a name counts. -/
def declared (defaults : NameMap Value) : List Item → NameMap Value
  | [] => defaults
  | .statement _ :: rest => declared defaults rest
  | .declare _ name value :: rest => declared (defaults.insert name value) rest

/-! ## No two trees have the same lines -/

def isStart : Line → Bool
  | .act _ | .opens _ => true
  | _ => false

def Stops (rest : List (Nat × Line)) : Prop :=
  ∀ line l, rest.head? = some (line, l) → isStart l = false ∧ l ≠ .opensElse

def NoElse (rest : List (Nat × Line)) : Prop :=
  ∀ line l, rest.head? = some (line, l) → l ≠ .opensElse

theorem exists_lines_eq_cons (t : Statement) :
    ∃ line l rest, t.lines = (line, l) :: rest ∧ isStart l := by
  cases t with
  | act line action => exact ⟨line, _, _, by rw [Statement.lines], rfl⟩
  | loop line count body closing => exact ⟨line, _, _, by rw [Statement.lines], rfl⟩
  | guard line body closing => exact ⟨line, _, _, by rw [Statement.lines], rfl⟩
  | branch line target found closing => exact ⟨line, _, _, by rw [Statement.lines], rfl⟩
  | branchElse line target found joint missed closing =>
      exact ⟨line, _, _, by rw [Statement.lines], rfl⟩

theorem noElse_lines_append (t : Statement) (rest : List (Nat × Line)) :
    NoElse (t.lines ++ rest) := by
  obtain ⟨line, l, others, eq, start⟩ := exists_lines_eq_cons t
  rintro line' l' h rfl
  rw [eq] at h
  cases h
  cases start

theorem noElse_linesAll_append (ts : List Statement) {rest : List (Nat × Line)} (stop : Stops rest) :
    NoElse (linesAll ts ++ rest) := by
  cases ts with
  | nil => exact fun line l h => (stop line l h).2
  | cons t ts =>
      rw [linesAll, List.append_assoc]
      exact noElse_lines_append t _

theorem stops_closes (closing : Nat) (rest : List (Nat × Line)) :
    Stops ((closing, .closes) :: rest) := by
  rintro line l ⟨⟩
  exact ⟨rfl, nofun⟩

theorem stops_declare (line : Nat) (name : String) (value : Value) (rest : List (Nat × Line)) :
    Stops ((line, .declare name value) :: rest) := by
  rintro line' l ⟨⟩
  exact ⟨rfl, nofun⟩

theorem stops_joint (joint : Joint) (rest : List (Nat × Line)) : Stops (joint.lines ++ rest) := by
  cases joint with
  | joined line =>
      rintro line l ⟨⟩
      exact ⟨rfl, nofun⟩
  | apart closing opening =>
      rintro line l ⟨⟩
      exact ⟨rfl, nofun⟩

theorem ne_lines_append (t : Statement) {rest rest' : List (Nat × Line)} (stop : Stops rest) :
    rest ≠ t.lines ++ rest' := by
  obtain ⟨line, l, others, eq, start⟩ := exists_lines_eq_cons t
  intro h
  rw [eq] at h
  have stopped := (stop line l (by rw [h]; rfl)).1
  rw [stopped] at start
  cases start

theorem joint_eq_of_lines {joint joint' : Joint} {rest rest' : List (Nat × Line)}
    (h : joint.lines ++ rest = joint'.lines ++ rest') : joint = joint' ∧ rest = rest' := by
  cases joint with
  | joined line =>
      cases joint' with
      | joined line' =>
          cases h
          exact ⟨rfl, rfl⟩
      | apart closing opening => cases h
  | apart closing opening =>
      cases joint' with
      | joined line' => cases h
      | apart closing' opening' =>
          cases h
          exact ⟨rfl, rfl⟩

theorem closes_ne_joint {closing : Nat} {joint : Joint} {rest rest' : List (Nat × Line)}
    (after : NoElse rest) : (closing, Line.closes) :: rest ≠ joint.lines ++ rest' := by
  intro h
  cases joint with
  | joined line => cases h
  | apart closing' opening =>
      cases h
      exact after opening .opensElse rfl rfl

mutual

theorem eq_of_lines_append (t t' : Statement) {rest rest' : List (Nat × Line)}
    (h : t.lines ++ rest = t'.lines ++ rest') (after : NoElse rest) (after' : NoElse rest') :
    t = t' ∧ rest = rest' := by
  cases t with
  | act line action =>
      cases t' with
      | act line' action' =>
          rw [Statement.lines, Statement.lines] at h
          cases h
          exact ⟨rfl, rfl⟩
      | _ => simp [Statement.lines] at h
  | loop line count body closing =>
      cases t' with
      | loop line' count' body' closing' =>
          simp only [Statement.lines, List.cons_append, List.append_assoc, List.nil_append] at h
          obtain ⟨first, others⟩ := List.cons.inj h
          obtain ⟨rfl, last⟩ := eq_of_linesAll_append body body' others (stops_closes _ _)
            (stops_closes _ _)
          cases first
          cases last
          exact ⟨rfl, rfl⟩
      | _ => simp [Statement.lines] at h
  | guard line body closing =>
      cases t' with
      | guard line' body' closing' =>
          simp only [Statement.lines, List.cons_append, List.append_assoc, List.nil_append] at h
          obtain ⟨first, others⟩ := List.cons.inj h
          obtain ⟨rfl, last⟩ := eq_of_linesAll_append body body' others (stops_closes _ _)
            (stops_closes _ _)
          cases first
          cases last
          exact ⟨rfl, rfl⟩
      | _ => simp [Statement.lines] at h
  | branch line target found closing =>
      cases t' with
      | branch line' target' found' closing' =>
          simp only [Statement.lines, List.cons_append, List.append_assoc, List.nil_append] at h
          obtain ⟨first, others⟩ := List.cons.inj h
          obtain ⟨rfl, last⟩ := eq_of_linesAll_append found found' others (stops_closes _ _)
            (stops_closes _ _)
          cases first
          cases last
          exact ⟨rfl, rfl⟩
      | branchElse line' target' found' joint' missed' closing' =>
          -- The same first body, and then one of the two goes on with `else`.
          simp only [Statement.lines, List.cons_append, List.append_assoc, List.nil_append] at h
          obtain ⟨-, others⟩ := List.cons.inj h
          obtain ⟨-, last⟩ := eq_of_linesAll_append found found' others (stops_closes _ _)
            (stops_joint _ _)
          exact absurd last (closes_ne_joint after)
      | _ => simp [Statement.lines] at h
  | branchElse line target found joint missed closing =>
      cases t' with
      | branch line' target' found' closing' =>
          simp only [Statement.lines, List.cons_append, List.append_assoc, List.nil_append] at h
          obtain ⟨-, others⟩ := List.cons.inj h
          obtain ⟨-, last⟩ := eq_of_linesAll_append found found' others (stops_joint _ _)
            (stops_closes _ _)
          exact absurd last.symm (closes_ne_joint after')
      | branchElse line' target' found' joint' missed' closing' =>
          simp only [Statement.lines, List.cons_append, List.append_assoc, List.nil_append] at h
          obtain ⟨first, others⟩ := List.cons.inj h
          obtain ⟨rfl, between⟩ := eq_of_linesAll_append found found' others (stops_joint _ _)
            (stops_joint _ _)
          obtain ⟨rfl, second⟩ := joint_eq_of_lines between
          obtain ⟨rfl, last⟩ := eq_of_linesAll_append missed missed' second (stops_closes _ _)
            (stops_closes _ _)
          cases first
          cases last
          exact ⟨rfl, rfl⟩
      | _ => simp [Statement.lines] at h

theorem eq_of_linesAll_append (ts ts' : List Statement) {rest rest' : List (Nat × Line)}
    (h : linesAll ts ++ rest = linesAll ts' ++ rest') (stop : Stops rest) (stop' : Stops rest') :
    ts = ts' ∧ rest = rest' := by
  match ts, ts' with
  | [], [] => exact ⟨rfl, h⟩
  | [], t' :: ts' =>
      simp only [linesAll, List.nil_append, List.append_assoc] at h
      exact absurd h (ne_lines_append t' stop)
  | t :: ts, [] =>
      simp only [linesAll, List.nil_append, List.append_assoc] at h
      exact absurd h.symm (ne_lines_append t stop')
  | t :: ts, t' :: ts' =>
      rw [linesAll, linesAll, List.append_assoc, List.append_assoc] at h
      obtain ⟨rfl, others⟩ := eq_of_lines_append t t' h (noElse_linesAll_append ts stop)
        (noElse_linesAll_append ts' stop')
      obtain ⟨rfl, rfl⟩ := eq_of_linesAll_append ts ts' others stop stop'
      exact ⟨rfl, rfl⟩

end

theorem noElse_itemLines (items : List Item) : NoElse (itemLines items) := by
  cases items with
  | nil => nofun
  | cons item rest =>
      cases item with
      | statement t => exact noElse_lines_append t _
      | declare line name value =>
          rintro line' l ⟨⟩
          exact nofun

theorem itemLines_injective {items items' : List Item} (h : itemLines items = itemLines items') :
    items = items' := by
  induction items generalizing items' with
  | nil =>
      cases items' with
      | nil => rfl
      | cons item' rest' =>
          cases item' with
          | statement t' => exact absurd h (ne_lines_append t' nofun)
          | declare line' name' value' => cases h
  | cons item rest ih =>
      cases item with
      | statement t =>
          cases items' with
          | nil => exact absurd h.symm (ne_lines_append t nofun)
          | cons item' rest' =>
              cases item' with
              | statement t' =>
                  obtain ⟨rfl, others⟩ := eq_of_lines_append t t' h (noElse_itemLines rest)
                    (noElse_itemLines rest')
                  rw [ih others]
              | declare line' name' value' =>
                  exact absurd h.symm (ne_lines_append t (stops_declare _ _ _ _))
      | declare line name value =>
          cases items' with
          | nil => cases h
          | cons item' rest' =>
              cases item' with
              | statement t' => exact absurd h (ne_lines_append t' (stops_declare _ _ _ _))
              | declare line' name' value' =>
                  obtain ⟨first, others⟩ := List.cons.inj h
                  cases first
                  rw [ih others]

end Script

end ScreenScript
