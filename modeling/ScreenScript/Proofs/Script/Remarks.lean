import ScreenScript.Proofs.Script.Numbering
import ScreenScript.Proofs.Script.Prefixes
import ScreenScript.Proofs.Script.Trailers

/-!
# Blank lines and comments

A line without a meaning changes nothing, not even whether a branch is still waiting for its second
body, so lines of this kind between the others move only the line numbers (`steps_intersperse`). The
places in a state are renumbered by a function on lines, and reading a line commutes with this, since it
reads nothing out of them (`apply_renumber`). A comment at the end of a line does not change its meaning,
so it changes no state (`steps_commented`).
-/

namespace ScreenScript

/-! ## Other line numbers -/

def Place.renumber (ρ : Nat → Nat) (place : Place) : Place :=
  { place with line := ρ place.line }

namespace Instruction

mutual

/-- The instruction with other line numbers, also in its bodies. -/
def renumber (ρ : Nat → Nat) : Instruction → Instruction
  | act place action => act (place.renumber ρ) action
  | loop place count body => loop (place.renumber ρ) count (renumberAll ρ body)
  | branch place target found missed =>
    branch (place.renumber ρ) target (renumberAll ρ found) (renumberAll ρ missed)
  | guard place body => guard (place.renumber ρ) (renumberAll ρ body)

def renumberAll (ρ : Nat → Nat) : List Instruction → List Instruction
  | [] => []
  | i :: rest => i.renumber ρ :: renumberAll ρ rest

end

theorem renumberAll_eq_map (ρ : Nat → Nat) (list : List Instruction) :
    renumberAll ρ list = list.map (renumber ρ) := by
  induction list with
  | nil => rfl
  | cons i rest ih => rw [renumberAll, ih, List.map_cons]

theorem renumberAll_reverse (ρ : Nat → Nat) (list : List Instruction) :
    renumberAll ρ list.reverse = (renumberAll ρ list).reverse := by
  rw [renumberAll_eq_map, renumberAll_eq_map, List.map_reverse]

end Instruction

open Instruction (renumberAll renumberAll_reverse)

/-- The program with other line numbers. -/
def Program.renumber (ρ : Nat → Nat) (p : Program) : Program :=
  { p with instructions := renumberAll ρ p.instructions }

namespace Block

def renumber (ρ : Nat → Nat) : Block → Block
  | loop count => loop count
  | guard => guard
  | found target => found target
  | missed target first => missed target (renumberAll ρ first)

theorem keyword_renumber (ρ : Nat → Nat) (block : Block) :
    (block.renumber ρ).keyword = block.keyword := by
  cases block with
  | loop | guard | found | missed => rfl

def Level.renumber (ρ : Nat → Nat) (level : Level) : Level :=
  ⟨level.place.renumber ρ, level.block.renumber ρ, renumberAll ρ level.before⟩

def Waiting.renumber (ρ : Nat → Nat) (w : Waiting) : Waiting :=
  ⟨w.place.renumber ρ, w.target, renumberAll ρ w.found⟩

namespace State

/-- The state with other numbers for the lines that it was read from. -/
def renumber (ρ : Nat → Nat) (s : State) : State :=
  { s with
    current := renumberAll ρ s.current
    levels := s.levels.map (Level.renumber ρ)
    waiting := s.waiting.map (Waiting.renumber ρ) }

section

variable (ρ : Nat → Nat) (s : State)

theorem settle_renumber : (s.renumber ρ).settle = s.settle.renumber ρ := by
  obtain ⟨current, levels, waiting, nextIndex, defaults, title, description⟩ := s
  cases waiting with
  | none => rfl
  | some w => rfl

theorem act_renumber (line : Nat) (action : Action) :
    (s.renumber ρ).act (ρ line) action = (s.act line action).renumber ρ := rfl

theorem opens_renumber (line : Nat) (opening : Opening) :
    (s.renumber ρ).opens (ρ line) opening = (s.opens line opening).renumber ρ := by
  cases opening with
  | loop | branch | guard => rfl

theorem closes_renumber : (s.renumber ρ).closes = s.closes.map (renumber ρ) := by
  obtain ⟨current, levels, waiting, nextIndex, defaults, title, description⟩ := s
  match levels with
  | [] => rfl
  | ⟨place, .loop count, before⟩ :: rest =>
      simp only [renumber, closes, leave, List.map_cons, Level.renumber, Block.renumber, Except.map,
        Instruction.renumberAll, Instruction.renumber, renumberAll_reverse]
  | ⟨place, .guard, before⟩ :: rest =>
      simp only [renumber, closes, leave, List.map_cons, Level.renumber, Block.renumber, Except.map,
        Instruction.renumberAll, Instruction.renumber, renumberAll_reverse]
  | ⟨place, .found target, before⟩ :: rest =>
      simp only [renumber, closes, leave, List.map_cons, Level.renumber, Block.renumber, Except.map,
        Option.map_some, Waiting.renumber, renumberAll_reverse]
  | ⟨place, .missed target first, before⟩ :: rest =>
      simp only [renumber, closes, leave, List.map_cons, Level.renumber, Block.renumber, Except.map,
        Instruction.renumberAll, Instruction.renumber, renumberAll_reverse]

theorem closesElse_renumber : (s.renumber ρ).closesElse = s.closesElse.map (renumber ρ) := by
  obtain ⟨current, levels, waiting, nextIndex, defaults, title, description⟩ := s
  match levels with
  | [] => rfl
  | ⟨place, .loop count, before⟩ :: rest => rfl
  | ⟨place, .guard, before⟩ :: rest => rfl
  | ⟨place, .missed target first, before⟩ :: rest => rfl
  | ⟨place, .found target, before⟩ :: rest =>
      simp only [renumber, closesElse, leave, enter, List.map_cons, Level.renumber, Block.renumber,
        Except.map, Instruction.renumberAll, renumberAll_reverse]

theorem opensElse_renumber : (s.renumber ρ).opensElse = s.opensElse.map (renumber ρ) := by
  obtain ⟨current, levels, waiting, nextIndex, defaults, title, description⟩ := s
  cases waiting with
  | none => rfl
  | some w => rfl

theorem apply_renumber (line : Nat) (l : Line) :
    (s.renumber ρ).apply (ρ line) l = (s.apply line l).map (renumber ρ) := by
  cases l with
  | act action => rw [apply, settle_renumber, act_renumber, apply, Except.map]
  | declare name value =>
      rw [apply, settle_renumber, apply, Except.map]
      rfl
  | opens opening => rw [apply, settle_renumber, opens_renumber, apply, Except.map]
  | closes => rw [apply, settle_renumber, closes_renumber, apply]
  | closesElse => rw [apply, settle_renumber, closesElse_renumber, apply]
  | opensElse => rw [apply, opensElse_renumber, apply]

theorem admits_renumber (role : Line.Role) : (s.renumber ρ).admits role = s.admits role := by
  cases role with
  | ordinary => rfl
  | declaration | closing => simp only [admits, renumber, List.isEmpty_map]
  | otherwise => simp only [admits, renumber, Option.isNone_map]

theorem comment_renumber (cs : List Char) :
    (s.renumber ρ).comment cs = (s.comment cs).renumber ρ := by
  unfold comment
  split
  · rfl
  dsimp only
  split
  · rfl
  split
  · rfl
  · rfl

theorem step_renumber (base : Policy) (line : Nat) (cs : List Char) :
    (s.renumber ρ).step base (ρ line) cs = (s.step base line cs).map (renumber ρ) := by
  by_cases remark : Script.isRemark cs
  · rcases Script.trim_of_isRemark remark with blank | ⟨text, comment⟩
    · rw [step, blank, step, blank]
      rfl
    · rw [step, comment, step, comment]
      exact congrArg Except.ok (comment_renumber ρ s _)
  · rw [step_of_counts _ _ remark, step_of_counts _ _ remark, takeReading, takeReading, admits_renumber]
    cases s.admits (Line.read base (Text.trim cs)).role with
    | error fault => rfl
    | ok _ =>
        cases (Line.read base (Text.trim cs)).content with
        | error fault => rfl
        | ok l => exact apply_renumber ρ s line l

theorem finish_renumber :
    (s.renumber ρ).finish =
      (s.finish.map (Program.renumber ρ)).mapError fun (line, fault) => (ρ line, fault) := by
  cases h : s.levels with
  | nil =>
      have outside : (s.renumber ρ).levels = [] := by rw [renumber, h, List.map_nil]
      rw [finish, finish, h, outside, settle_renumber]
      simp only [Except.map, Except.mapError, Program.renumber, renumber, renumberAll_reverse]
  | cons level rest =>
      have inside : (s.renumber ρ).levels = level.renumber ρ :: rest.map (Level.renumber ρ) := by
        rw [renumber, h, List.map_cons]
      rw [finish, finish, h, inside]
      simp only [Level.renumber, keyword_renumber]
      rfl

end

end State

end Block

/-! ## Lines between the others -/

namespace Script

def isHeader (cs : List Char) : Bool :=
  match Text.splitFirst (· = ':') cs with
  | none => false
  | some (key, _) =>
    String.ofList ((Text.trim key).map Char.toLower) ∈ ["title", "description"]

/-- Whether a line is blank, or a comment that gives neither a title nor a description. -/
def isSilent (cs : List Char) : Bool :=
  match Text.trim cs with
  | [] => true
  | '#' :: text => !isHeader (Text.trim text)
  | _ => false

/-- Some lines with further ones between them: before line `k`, counted from 0, those of `gaps k`. -/
def intersperse (gaps : Nat → List (List Char)) : List (List Char) → List (List Char)
  | [] => gaps 0
  | cs :: rest => gaps 0 ++ cs :: intersperse (fun k => gaps (k + 1)) rest

/-- The number that a line gets, from its number without the further lines, both counted from 1. -/
def shifted (gaps : Nat → List (List Char)) (line : Nat) : Nat :=
  line + ((List.range line).map fun k => (gaps k).length).sum

theorem shifted_succ (gaps : Nat → List (List Char)) (line : Nat) :
    shifted gaps (line + 1) = (gaps 0).length + 1 + shifted (fun k => gaps (k + 1)) line := by
  rw [shifted, shifted, List.range_succ_eq_map, List.map_cons, List.map_map, List.sum_cons]
  simp only [Function.comp_def, Nat.succ_eq_add_one]
  omega

/-- Whether two lists of lines are the same but for blanks at the ends of lines. -/
def SameLines (lines lines' : List (List Char)) : Prop :=
  lines.map Text.trim = lines'.map Text.trim

/-- Whether a line that is no remark gets a comment at its end, after at least one blank. -/
def Commented (cs cs' : List Char) : Prop :=
  ¬ isRemark cs ∧ ∃ blanks text, blanks ≠ [] ∧ (∀ c ∈ blanks, Text.isBlank c) ∧
    Text.trim cs' = Text.trim (cs ++ blanks ++ '#' :: text)

end Script

namespace Block.State

variable {base : Policy} {s s' : State} {line line' : Nat} {cs cs' : List Char}
  {lines lines' : List (List Char)}

theorem comment_of_not_isHeader (s : State) (h : Script.isHeader cs = false) : s.comment cs = s := by
  unfold Script.isHeader at h
  unfold comment
  split
  · rfl
  · rename_i key value cut
    rw [cut] at h
    have other := List.mem_cons.not.1 (of_decide_eq_false h)
    obtain ⟨notTitle, notDescription⟩ := not_or.1 other
    dsimp only
    rw [if_neg notTitle, if_neg fun same => notDescription (List.mem_singleton.2 same)]

theorem blank_or_comment_of_isSilent (h : Script.isSilent cs) :
    Text.trim cs = [] ∨ ∃ text, Text.trim cs = '#' :: text ∧ Script.isHeader (Text.trim text) = false := by
  unfold Script.isSilent at h
  split at h
  · exact .inl ‹_›
  · exact .inr ⟨_, ‹_›, by simpa using h⟩
  · cases h

theorem step_of_isSilent (base : Policy) (s : State) (line : Nat) (h : Script.isSilent cs) :
    s.step base line cs = .ok s := by
  unfold step
  rcases blank_or_comment_of_isSilent h with blank | ⟨text, comment, silent⟩
  · rw [blank]
  · rw [comment]
    exact congrArg Except.ok (comment_of_not_isHeader s silent)

theorem steps_of_isSilent (base : Policy) (s : State) (line : Nat) {gap : List (List Char)}
    (silent : ∀ cs ∈ gap, Script.isSilent cs) (rest : List (List Char)) :
    s.steps base line (gap ++ rest) = s.steps base (line + gap.length) rest := by
  induction gap generalizing line with
  | nil => rfl
  | cons cs gap ih =>
      rw [List.cons_append, steps, step_of_isSilent base s line (silent cs List.mem_cons_self)]
      have later := ih (line + 1) fun cs member => silent cs (List.mem_cons_of_mem _ member)
      rw [List.length_cons, Nat.add_comm gap.length, ← Nat.add_assoc]
      exact later

theorem steps_congr (s : State) (line : Nat) (same : Script.SameLines lines lines') :
    s.steps base line lines = s.steps base line lines' := by
  induction lines generalizing s line lines' with
  | nil =>
      cases List.map_eq_nil_iff.1 same.symm
      rfl
  | cons cs rest ih =>
      obtain ⟨cs', rest', rfl, first, later⟩ := List.map_eq_cons_iff.1 same.symm
      have stepped : s.step base line cs = s.step base line cs' := by
        rw [step, step, first]
      rw [steps, steps, stepped]
      cases s.step base line cs' with
      | error fault => rfl
      | ok after => exact ih after (line + 1) later.symm

theorem steps_intersperse (s : State) {ρ : Nat → Nat} {gaps : Nat → List (List Char)}
    (silent : ∀ k, ∀ cs ∈ gaps k, Script.isSilent cs)
    (moved : ∀ i, ρ (line + i) + 1 = line' + Script.shifted gaps (i + 1)) :
    (s.renumber ρ).steps base line' (Script.intersperse gaps lines) =
      ((s.steps base line lines).map (renumber ρ)).mapError fun (n, fault) => (ρ n, fault) := by
  induction lines generalizing s line line' gaps with
  | nil =>
      have none := steps_of_isSilent base (s.renumber ρ) line' (silent 0) []
      rw [List.append_nil] at none
      rw [Script.intersperse, none]
      rfl
  | cons cs rest ih =>
      have number : line' + (gaps 0).length = ρ line := by
        have first : ρ line + 1 = line' + Script.shifted gaps (0 + 1) := moved 0
        have zero : Script.shifted (fun k => gaps (k + 1)) 0 = 0 := rfl
        rw [Script.shifted_succ, zero] at first
        omega
      rw [Script.intersperse, steps_of_isSilent _ _ _ (silent 0), number, steps, steps, step_renumber]
      cases s.step base line cs with
      | error fault => rfl
      | ok after =>
          refine ih after (fun k => silent (k + 1)) fun i => ?_
          have next := moved (i + 1)
          rw [Script.shifted_succ, ← Nat.add_assoc, Nat.add_right_comm] at next
          omega

theorem exists_trailer (h : Script.Commented cs cs') :
    ∃ tail, Text.Trailer tail ∧ Text.trim cs' = Text.trim cs ++ tail := by
  obtain ⟨counts, blanks, text, some, blank, trimmed⟩ := h
  obtain ⟨c, rest, first, -⟩ := Script.exists_trim_eq_cons counts
  have nonempty : Text.trim cs ≠ [] := by
    rw [first]
    exact List.cons_ne_nil _ _
  rw [trimmed, List.append_assoc]
  exact Text.trim_append_trailer nonempty (Text.trailer_of_blanks blank some text)

theorem step_commented (h : Script.Commented cs cs') (stepped : s.step base line cs = .ok s') :
    s.step base line cs' = .ok s' := by
  obtain ⟨tail, trailer, trimmed⟩ := exists_trailer h
  obtain ⟨c, rest, first, plain⟩ := Script.exists_trim_eq_cons h.1
  have counts : ¬ Script.isRemark cs' := by
    rw [first, List.cons_append] at trimmed
    exact Script.not_isRemark_of_trim trimmed plain
  obtain ⟨l, read, taken⟩ := (step_eq_ok_iff h.1).1 stepped
  refine (step_eq_ok_iff counts).2 ⟨l, ?_, taken⟩
  rw [trimmed]
  exact Line.read_trailer read trailer

theorem steps_commented
    (h : List.Forall₂ (fun cs cs' => Text.trim cs' = Text.trim cs ∨ Script.Commented cs cs') lines lines')
    (stepped : s.steps base line lines = .ok s') : s.steps base line lines' = .ok s' := by
  induction h generalizing s line with
  | nil => exact stepped
  | @cons cs cs' rest rest' first _ ih =>
      rw [steps] at stepped ⊢
      cases once : s.step base line cs with
      | error fault =>
          rw [once] at stepped
          cases stepped
      | ok after =>
          rw [once] at stepped
          have once' : s.step base line cs' = .ok after := by
            rcases first with same | commented
            · rw [step, same, ← step, once]
            · exact step_commented commented once
          rw [once']
          exact ih stepped

end Block.State

/-! ## Whole scripts -/

namespace Program

variable {base : Policy} {lines lines' : List (List Char)}

theorem ofLines_intersperse (base : Policy) {gaps : Nat → List (List Char)}
    (silent : ∀ k, ∀ cs ∈ gaps k, Script.isSilent cs)
    (same : Script.SameLines lines' (Script.intersperse gaps lines)) :
    ofLines base lines' =
      ((ofLines base lines).map (renumber (Script.shifted gaps))).mapError fun (line, fault) =>
        (Script.shifted gaps line, fault) := by
  have moved : ∀ i, Script.shifted gaps (1 + i) + 1 = 1 + Script.shifted gaps (i + 1) := by
    intro i
    rw [Nat.add_comm 1 i, Nat.add_comm 1]
  have read : ({} : Block.State).steps base 1 (Script.intersperse gaps lines) =
      ((({} : Block.State).steps base 1 lines).map (Block.State.renumber (Script.shifted gaps))).mapError
        fun (line, fault) => (Script.shifted gaps line, fault) :=
    Block.State.steps_intersperse {} silent moved
  rw [ofLines, ofLines, Block.State.steps_congr _ _ same, read]
  cases ({} : Block.State).steps base 1 lines with
  | error found => rfl
  | ok s => exact Block.State.finish_renumber _ s

/--
Blank lines and comments that give neither title nor description may stand between any lines of a script:
the program is the same but for the numbers of its lines, and so is the failure of a script that cannot
be read. A comment may stand after a blank at the end of each line that counts, whatever it says.
-/
theorem parse_of_remarks (source source' : String) (base : Policy) :
    (∀ gaps : Nat → List (List Char), (∀ k, ∀ cs ∈ gaps k, Script.isSilent cs) →
      Script.SameLines (Text.lines source'.toList)
        (Script.intersperse gaps (Text.lines source.toList)) →
      (∀ p, parse source base = .ok p →
        parse source' base = .ok (p.renumber (Script.shifted gaps))) ∧
      ∀ failure, parse source base = .error failure → ∃ line message,
        failure = .parse line message ∧
        parse source' base = .error (.parse (Script.shifted gaps line) message)) ∧
    (List.Forall₂ (fun cs cs' => Text.trim cs' = Text.trim cs ∨ Script.Commented cs cs')
      (Text.lines source.toList) (Text.lines source'.toList) →
      ∀ p, parse source base = .ok p → parse source' base = .ok p) := by
  constructor
  · intro gaps silent same
    have read := ofLines_intersperse base silent same
    rw [parse, parse, read]
    cases ofLines base (Text.lines source.toList) with
    | error found =>
        constructor
        · rintro p ⟨⟩
        · rintro failure ⟨⟩
          exact ⟨_, _, rfl, rfl⟩
    | ok p =>
        constructor
        · rintro p ⟨⟩
          rfl
        · rintro failure ⟨⟩
  · intro commented p parsed
    obtain ⟨s, steps, finished⟩ := Except.bind_eq_ok_iff.1 (Except.mapError_eq_ok_iff.1 parsed)
    refine Except.mapError_eq_ok_iff.2 (Except.bind_eq_ok_iff.2 ⟨s, ?_, finished⟩)
    exact Block.State.steps_commented commented steps

def beforeElse (k : Nat) : List (List Char) :=
  if k = 4 then [[], "# then = \x7b".toList] else []

theorem isSilent_of_mem_beforeElse (k : Nat) {cs : List Char} (h : cs ∈ beforeElse k) :
    Script.isSilent cs := by
  unfold beforeElse at h
  split at h
  · simp only [List.mem_cons, List.not_mem_nil, or_false] at h
    rcases h with rfl | rfl
    · rfl
    · decide +kernel
  · cases h

def remarkedBranch : String :=
  "repeat 2 \x7b\n  if found ok \x7b\n    press a\n  \x7d\n\n# then = \x7b\n  else \x7b\n    abort\n  \x7d\n\x7d\nwait 5\n"

theorem parse_remarkedBranch :
    (∃ p, parse branchInLoop = .ok p ∧ p.places.map (·.2.line) = [1, 2, 3, 6, 9] ∧
      parse remarkedBranch = .ok (p.renumber (Script.shifted beforeElse))) ∧
    ∃ p, parse "x = 1" = .ok p ∧ parse "x = 1 # \"y\" = $\x7b" = .ok p := by
  have counted : (parse branchInLoop).toOption.map (fun p => p.places.map (·.2.line)) =
      some [1, 2, 3, 6, 9] := by
    decide +kernel
  have same : Script.SameLines (Text.lines remarkedBranch.toList)
      (Script.intersperse beforeElse (Text.lines branchInLoop.toList)) := by
    unfold Script.SameLines
    decide +kernel
  have assigned : (parse "x = 1").toOption.isSome := by
    decide +kernel
  have commented : Script.Commented "x = 1".toList "x = 1 # \"y\" = $\x7b".toList := by
    refine ⟨by decide +kernel, [' '], " \"y\" = $\x7b".toList, List.cons_ne_nil _ _, ?_, ?_⟩
    · exact List.forall_mem_singleton.2 (by decide)
    · decide +kernel
  constructor
  · cases read : parse branchInLoop with
    | error failure =>
        rw [read] at counted
        cases counted
    | ok p =>
        rw [read] at counted
        have moved := (parse_of_remarks branchInLoop remarkedBranch Policy.standard).1 beforeElse
          isSilent_of_mem_beforeElse same
        exact ⟨p, rfl, Option.some.inj counted, moved.1 p read⟩
  · cases read : parse "x = 1" with
    | error failure =>
        rw [read] at assigned
        cases assigned
    | ok p =>
        have kept := (parse_of_remarks "x = 1" "x = 1 # \"y\" = $\x7b" Policy.standard).2
          (.cons (.inr commented) .nil)
        exact ⟨p, rfl, kept p read⟩

end Program

end ScreenScript
