import Mathlib.Logic.Basic
import ScreenScript.Proofs.Script.Reading
import ScreenScript.Proofs.Text.Lines

/-!
# The first lines of a script

Lines are read one after the other, so the first one that cannot be read decides how every script ends
that starts with the same lines (`Block.State.steps_take_of_error`). If there is none, the open blocks are
all that is missing: a closing brace always closes the innermost, so a script can be completed after any
such line, with as many braces as blocks are open (`Program.malformed_or_completed`).
-/

namespace ScreenScript

namespace Block

def closing : List Char :=
  ['\x7d']

theorem read_closing (base : Policy) :
    Line.read base (Text.trim closing) = ⟨.closing, .ok .closes⟩ := by
  have trimmed : Text.trim closing = closing := by decide
  have plain : Text.isBlank '\x7d' = false := by decide
  have first : Word.read ['\x7d'] = .ok (.closing, []) := rfl
  have words : Word.ofLine closing = .ok [.closing] := by
    rw [closing, Word.ofLine, dif_neg (by rw [plain]; exact Bool.false_ne_true), if_neg (by decide)]
    split
    · rename_i word rest h
      cases first.symm.trans h
      rw [Word.ofLine]
      rfl
    · rename_i fault h
      cases first.symm.trans h
  have unassigned : Line.assignment? closing = none := by decide
  rw [trimmed, Line.read, unassigned]
  simp only [words]
  rfl

namespace State

variable {base : Policy} {s s' : State} {line n : Nat} {cs : List Char} {lines : List (List Char)}
  {fault : Block.Fault}

theorem steps_append (base : Policy) (s : State) (line : Nat) (lines more : List (List Char)) :
    s.steps base line (lines ++ more) =
      s.steps base line lines >>= fun s' => s'.steps base (line + lines.length) more := by
  induction lines generalizing s line with
  | nil => rfl
  | cons cs rest ih =>
      rw [List.cons_append, steps, steps]
      cases s.step base line cs with
      | error fault => rfl
      | ok after =>
          have number : line + (cs :: rest).length = line + 1 + rest.length := by
            rw [List.length_cons]
            omega
          rw [number]
          exact ih after (line + 1)

theorem steps_take_of_error (h : s.steps base line lines = .error (n, fault)) :
    line ≤ n ∧ n < line + lines.length ∧
      s.steps base line (lines.take (n + 1 - line)) = .error (n, fault) := by
  induction lines generalizing s line with
  | nil => cases h
  | cons cs rest ih =>
      rw [steps] at h
      cases stepped : s.step base line cs with
      | error fault =>
          rw [stepped] at h
          cases h
          have first : (cs :: rest).take (n + 1 - n) = [cs] := by
            rw [Nat.add_sub_cancel_left]
            rfl
          rw [first, steps, stepped, List.length_cons]
          exact ⟨Nat.le_refl _, by omega, rfl⟩
      | ok after =>
          rw [stepped] at h
          obtain ⟨low, high, same⟩ := ih h
          have number : n + 1 - line = n + 1 - (line + 1) + 1 := by omega
          rw [number, List.take_succ_cons, steps, stepped, List.length_cons]
          exact ⟨by omega, by omega, same⟩

theorem exists_step_of_steps_error {before after : List (List Char)}
    (h : s.steps base line (before ++ cs :: after) = .error (line + before.length, fault)) :
    ∃ s' : State, s'.step base (line + before.length) cs = .error fault := by
  rw [steps_append] at h
  cases first : s.steps base line before with
  | error found =>
      rw [first] at h
      cases h
      obtain ⟨-, high, -⟩ := steps_take_of_error first
      omega
  | ok s' =>
      rw [first] at h
      have rest : s'.steps base (line + before.length) (cs :: after) =
        .error (line + before.length, fault) := h
      rw [steps] at rest
      cases stepped : s'.step base (line + before.length) cs with
      | error fault' =>
          rw [stepped] at rest
          cases rest
          exact ⟨s', stepped⟩
      | ok next =>
          rw [stepped] at rest
          obtain ⟨low, -⟩ := steps_take_of_error rest
          omega

/-! ## Closing what is open -/

theorem step_closing (base : Policy) (s : State) (line : Nat) :
    s.step base line closing = s.take line .closes := by
  refine step_eq_take s line ?_ ?_
  · decide
  · rw [read_closing]

theorem exists_closes {level : Level} {rest : List Level} (h : s.levels = level :: rest) :
    ∃ s', s.closes = .ok s' ∧ s'.levels = rest := by
  obtain ⟨place, block, before⟩ := level
  rw [closes, h]
  cases block with
  | loop | guard | found | missed => exact ⟨_, rfl, rfl⟩

theorem exists_step_closing (base : Policy) (line : Nat) {level : Level} {rest : List Level}
    (h : s.levels = level :: rest) : ∃ s', s.step base line closing = .ok s' ∧ s'.levels = rest := by
  have inside : s.levels ≠ [] := by
    rw [h]
    exact List.cons_ne_nil _ _
  rw [step_closing, take_closes line inside]
  exact exists_closes ((levels_settle s).trans h)

theorem step_closing_of_outside (base : Policy) (line : Nat) (h : s.levels = []) :
    s.step base line closing = .error .unmatchedClosing := by
  rw [step_closing]
  simp only [take, admits, Line.role, h]
  rfl

theorem exists_steps_closing (base : Policy) (s : State) (line : Nat) (le : n ≤ s.levels.length) :
    ∃ s', s.steps base line (List.replicate n closing) = .ok s' ∧ s'.levels = s.levels.drop n := by
  induction n generalizing s line with
  | zero => exact ⟨s, rfl, rfl⟩
  | succ n ih =>
      cases h : s.levels with
      | nil =>
          rw [h] at le
          cases le
      | cons level rest =>
          obtain ⟨after, stepped, left⟩ := exists_step_closing base line h
          rw [List.replicate_succ, steps, stepped]
          rw [h, List.length_cons] at le
          obtain ⟨s', closed, levels⟩ := ih after (line + 1) (by rw [left]; omega)
          exact ⟨s', closed, by rw [levels, left, List.drop_succ_cons]⟩

theorem steps_closing_of_lt (base : Policy) (s : State) (line : Nat) (lt : s.levels.length < n) :
    s.steps base line (List.replicate n closing) =
      .error (line + s.levels.length, .unmatchedClosing) := by
  induction n generalizing s line with
  | zero => cases lt
  | succ n ih =>
      rw [List.replicate_succ, steps]
      cases h : s.levels with
      | nil =>
          rw [step_closing_of_outside base line h]
          rfl
      | cons level rest =>
          obtain ⟨after, stepped, left⟩ := exists_step_closing base line h
          rw [h, List.length_cons] at lt
          rw [stepped]
          have more := ih after (line + 1) (by rw [left]; omega)
          have number : line + 1 + rest.length = line + (level :: rest).length := by
            rw [List.length_cons]
            omega
          rw [left, number] at more
          exact more

/-! ## The lines of open blocks -/

structure Within (n : Nat) (s : State) : Prop where
  levels : ∀ level ∈ s.levels, 1 ≤ level.place.line ∧ level.place.line ≤ n
  waiting : ∀ w, s.waiting = some w → 1 ≤ w.place.line ∧ w.place.line ≤ n

theorem within_empty : Within 0 {} where
  levels := nofun
  waiting := nofun

theorem Within.mono (within : s.Within n) (le : n ≤ line) : s.Within line where
  levels level member := (within.levels level member).imp id fun last => Nat.le_trans last le
  waiting w waits := (within.waiting w waits).imp id fun last => Nat.le_trans last le

theorem Within.settle (within : s.Within n) : s.settle.Within n where
  levels := by
    rw [levels_settle]
    exact within.levels
  waiting := by
    rw [waiting_settle]
    nofun

theorem Within.untitled (within : s.Within n) (same : s'.untitled = s.untitled) : s'.Within n := by
  have levels : s'.untitled.levels = s.untitled.levels := by rw [same]
  have waiting : s'.untitled.waiting = s.untitled.waiting := by rw [same]
  change s'.levels = s.levels at levels
  change s'.waiting = s.waiting at waiting
  exact ⟨levels ▸ within.levels, waiting ▸ within.waiting⟩

theorem Within.closes (within : s.Within n) (h : s.closes = .ok s') : s'.Within n := by
  obtain ⟨levels, waiting⟩ := within
  unfold State.closes at h
  cases hs : s.levels with
  | nil =>
      rw [hs] at h
      cases h
  | cons level rest =>
      rw [hs] at h levels
      have inner : ∀ level ∈ rest, 1 ≤ level.place.line ∧ level.place.line ≤ n := fun l member =>
        levels l (List.mem_cons_of_mem _ member)
      obtain ⟨place, block, before⟩ := level
      cases block with
      | loop | guard | missed =>
          cases h
          exact ⟨inner, waiting⟩
      | found =>
          cases h
          refine ⟨inner, ?_⟩
          rintro w ⟨⟩
          exact levels _ List.mem_cons_self

theorem Within.closesElse (within : s.Within n) (h : s.closesElse = .ok s') : s'.Within n := by
  obtain ⟨levels, waiting⟩ := within
  unfold State.closesElse at h
  cases hs : s.levels with
  | nil =>
      rw [hs] at h
      cases h
  | cons level rest =>
      rw [hs] at h levels
      obtain ⟨place, block, before⟩ := level
      cases block with
      | loop | guard | missed => cases h
      | found target =>
          cases h
          refine ⟨?_, waiting⟩
          intro l member
          rcases List.mem_cons.1 member with rfl | inside
          · exact levels ⟨place, .found target, before⟩ List.mem_cons_self
          · exact levels l (List.mem_cons_of_mem _ inside)

theorem Within.opensElse (within : s.Within n) (h : s.opensElse = .ok s') : s'.Within n := by
  unfold State.opensElse at h
  cases waits : s.waiting with
  | none =>
      rw [waits] at h
      cases h
  | some w =>
      rw [waits] at h
      cases h
      refine ⟨?_, nofun⟩
      intro l member
      rcases List.mem_cons.1 member with rfl | inside
      · exact within.waiting w waits
      · exact within.levels l inside

theorem Within.take (within : s.Within line) (positive : 1 ≤ line) {l : Line}
    (h : s.take line l = .ok s') : s'.Within line := by
  obtain ⟨_, -, h⟩ := Except.bind_eq_ok_iff.1 h
  cases l with
  | act | declare =>
      cases h
      exact ⟨within.settle.levels, within.settle.waiting⟩
  | opens opening =>
      cases h
      refine ⟨?_, within.settle.waiting⟩
      intro level member
      rcases List.mem_cons.1 member with rfl | inside
      · exact ⟨positive, Nat.le_refl _⟩
      · exact within.settle.levels level inside
  | closes => exact within.settle.closes h
  | closesElse => exact within.settle.closesElse h
  | opensElse => exact within.opensElse h

theorem Within.step (within : s.Within line) (positive : 1 ≤ line)
    (h : s.step base line cs = .ok s') : s'.Within line := by
  by_cases remark : Script.isRemark cs
  · obtain ⟨after, stepped, same⟩ := step_of_remark base s line remark
    cases stepped.symm.trans h
    exact within.untitled same
  · cases read : (Line.read base (Text.trim cs)).content with
    | error fault =>
        obtain ⟨fault', stepped⟩ := exists_step_eq_error s line remark read
        cases stepped.symm.trans h
    | ok l =>
        rw [step_eq_take s line remark read] at h
        exact within.take positive h

theorem Within.steps (within : s.Within n) (h : s.steps base (n + 1) lines = .ok s') :
    s'.Within (n + lines.length) := by
  induction lines generalizing s n with
  | nil =>
      cases h
      exact within
  | cons cs rest ih =>
      rw [State.steps] at h
      cases stepped : s.step base (n + 1) cs with
      | error fault =>
          rw [stepped] at h
          cases h
      | ok after =>
          rw [stepped] at h
          have later := ih ((within.mono (Nat.le_succ n)).step (Nat.succ_pos n) stepped) h
          rwa [List.length_cons, Nat.add_comm rest.length, ← Nat.add_assoc]

end State

end Block

/-! ## Whole scripts -/

namespace Program

open Block (closing)

variable {base : Policy} {source source' : String} {s : Block.State} {n k d : Nat} {fault : Block.Fault}

theorem parse_of_error
    (h : ({} : Block.State).steps base 1 (Text.lines source.toList) = .error (n, fault)) :
    parse source base = .error (.parse n fault.message) := by
  rw [parse, ofLines, h]
  rfl

theorem parse_of_open {level : Block.Level} {rest : List Block.Level}
    (h : ({} : Block.State).steps base 1 (Text.lines source.toList) = .ok s)
    (inside : s.levels = level :: rest) :
    parse source base =
      .error (.parse level.place.line (Block.Fault.neverClosed level.block.keyword).message) := by
  have finished : s.finish = .error (level.place.line, .neverClosed level.block.keyword) := by
    rw [Block.State.finish, inside]
  rw [parse, ofLines, h]
  change s.finish.mapError _ = _
  rw [finished]
  rfl

theorem exists_parse_of_closed
    (h : ({} : Block.State).steps base 1 (Text.lines source.toList) = .ok s)
    (outside : s.levels = []) : ∃ p, parse source base = .ok p := by
  rw [parse, ofLines, h]
  change ∃ p, s.finish.mapError _ = _
  rw [Block.State.finish, outside]
  exact ⟨_, rfl⟩

theorem exists_line_of_parse_error {failure : Failure} (h : parse source base = .error failure) :
    ∃ line message, failure = .parse line message ∧
      1 ≤ line ∧ line ≤ (Text.lines source.toList).length := by
  cases read : ({} : Block.State).steps base 1 (Text.lines source.toList) with
  | error found =>
      obtain ⟨line, fault⟩ := found
      obtain ⟨low, high, -⟩ := Block.State.steps_take_of_error read
      cases (parse_of_error read).symm.trans h
      exact ⟨line, fault.message, rfl, low, by omega⟩
  | ok s =>
      cases inside : s.levels with
      | nil =>
          obtain ⟨p, parsed⟩ := exists_parse_of_closed read inside
          cases parsed.symm.trans h
      | cons level rest =>
          have within := Block.State.within_empty.steps (n := 0) read
          obtain ⟨low, high⟩ := within.levels level (inside ▸ List.mem_cons_self)
          rw [Nat.zero_add] at high
          cases (parse_of_open read inside).symm.trans h
          exact ⟨_, _, rfl, low, high⟩

/-- Whether every script with the same lines up to some line fails at this line, in the same way. -/
def Malformed (base : Policy) (source : String) (k : Nat) : Prop :=
  ∃ line message, line ≤ k ∧ ∀ source', (Text.lines source'.toList).take line =
    (Text.lines source.toList).take line → parse source' base = .error (.parse line message)

/-- Whether a script has the first `k` lines of another, and `n` closing lines after them. -/
def Cut (source : String) (k n : Nat) (source' : String) : Prop :=
  Text.lines source'.toList = (Text.lines source.toList).take k ++ List.replicate n closing

/-- Whether `d` closing lines are just what is missing after the first `k` lines. -/
structure Completed (base : Policy) (source : String) (k d : Nat) : Prop where
  exact : ∀ source', Cut source k d source' → ∃ p, parse source' base = .ok p
  fewer : ∀ n source', n < d → Cut source k n source' → ∃ line, ∃ block : Block, line ≤ k ∧
    parse source' base = .error (.parse line (Block.Fault.neverClosed block.keyword).message)
  more : ∀ n source', d < n → Cut source k n source' →
    parse source' base = .error (.parse (((Text.lines source.toList).take k).length + d + 1)
      Block.Fault.unmatchedClosing.message)

theorem exists_cut (source : String) (k n : Nat) : ∃ source', Cut source k n source' := by
  refine ⟨.ofList (Text.ofLines ((Text.lines source.toList).take k ++ List.replicate n closing)), ?_⟩
  rw [Cut, String.toList_ofList]
  apply Text.lines_ofLines
  intro line member
  rcases List.mem_append.1 member with before | after
  · exact Text.newline_notMem_of_mem_lines (List.mem_of_mem_take before)
  · rw [List.eq_of_mem_replicate after]
    decide

theorem malformed_of_error (h : ({} : Block.State).steps base 1
    ((Text.lines source.toList).take k) = .error (n, fault)) : Malformed base source k := by
  obtain ⟨low, high, same⟩ := Block.State.steps_take_of_error h
  rw [List.length_take] at high
  rw [Nat.add_sub_cancel, List.take_take, Nat.min_eq_left (by omega)] at same
  refine ⟨n, fault.message, by omega, ?_⟩
  intro source' shared
  apply parse_of_error
  rw [← List.take_append_drop n (Text.lines source'.toList), Block.State.steps_append, shared, same]
  rfl

theorem completed_of_ok (h : ({} : Block.State).steps base 1
    ((Text.lines source.toList).take k) = .ok s) : Completed base source k s.levels.length := by
  have closed : ∀ {n source'}, Cut source k n source' →
      ({} : Block.State).steps base 1 (Text.lines source'.toList) =
        s.steps base (1 + ((Text.lines source.toList).take k).length) (List.replicate n closing) := by
    intro n source' cut
    rw [Cut] at cut
    rw [cut, Block.State.steps_append, h]
    rfl
  refine ⟨?_, ?_, ?_⟩
  · intro source' cut
    obtain ⟨s', steps, levels⟩ := Block.State.exists_steps_closing base s
      (1 + ((Text.lines source.toList).take k).length) (Nat.le_refl _)
    rw [← closed cut] at steps
    rw [List.drop_length] at levels
    exact exists_parse_of_closed steps levels
  · intro n source' few cut
    obtain ⟨s', steps, levels⟩ := Block.State.exists_steps_closing base s
      (1 + ((Text.lines source.toList).take k).length) (Nat.le_of_lt few)
    rw [← closed cut] at steps
    cases inside : s'.levels with
    | nil =>
        rw [inside] at levels
        exact absurd (List.drop_eq_nil_iff.1 levels.symm) (Nat.not_le.2 few)
    | cons level rest =>
        have member : level ∈ s.levels.drop n := by
          rw [← levels, inside]
          exact List.mem_cons_self
        have within := Block.State.within_empty.steps (n := 0) h
        obtain ⟨-, last⟩ := within.levels level (List.mem_of_mem_drop member)
        rw [List.length_take] at last
        exact ⟨_, level.block, by omega, parse_of_open steps inside⟩
  · intro n source' many cut
    have steps := closed cut
    rw [Block.State.steps_closing_of_lt base s _ many] at steps
    rw [parse_of_error steps, Nat.add_comm 1, Nat.add_right_comm]

theorem Completed.eq (completed : Completed base source k d) {p : Program} (cut : Cut source k n source')
    (parsed : parse source' base = .ok p) : n = d := by
  rcases Nat.lt_trichotomy n d with few | same | many
  · obtain ⟨line, block, -, failed⟩ := completed.fewer n source' few cut
    cases failed.symm.trans parsed
  · exact same
  · cases (completed.more n source' many cut).symm.trans parsed

theorem Completed.not_malformed (completed : Completed base source k d) :
    ¬ Malformed base source k := by
  rintro ⟨line, message, le, fails⟩
  by_cases inside : line ≤ (Text.lines source.toList).length
  · obtain ⟨source', cut⟩ := exists_cut source k d
    obtain ⟨p, parsed⟩ := completed.exact source' cut
    have shared : (Text.lines source'.toList).take line = (Text.lines source.toList).take line := by
      rw [Cut] at cut
      rw [cut, List.take_append_of_le_length (by rw [List.length_take]; omega), List.take_take,
        Nat.min_eq_left le]
    cases (fails source' shared).symm.trans parsed
  · -- Beyond the last line nothing is at fault, not even in the script itself.
    obtain ⟨line', message', same, -, high⟩ := exists_line_of_parse_error (fails source rfl)
    cases same
    exact inside high

/--
Either some line among the first `k` cannot be read, and then no script can be read that starts with
the same lines up to this one, or there is exactly one number of closing braces that completes the
first `k` lines: with fewer of them a block is never closed, and with more there is a brace without a
block. Whatever cannot be read has its fault on one of the lines.
-/
theorem malformed_or_completed (source : String) (base : Policy) (k : Nat) :
    Xor (Malformed base source k) (∃ d, Completed base source k d ∧
      ∀ n source' p, Cut source k n source' → parse source' base = .ok p → n = d) ∧
    (∀ n, ∃ source', Cut source k n source') ∧
    ∀ failure, parse source base = .error failure → ∃ line message,
      failure = .parse line message ∧ 1 ≤ line ∧ line ≤ (Text.lines source.toList).length := by
  refine ⟨?_, exists_cut source k, fun failure => exists_line_of_parse_error⟩
  cases read : ({} : Block.State).steps base 1 ((Text.lines source.toList).take k) with
  | error found =>
      obtain ⟨n, fault⟩ := found
      have malformed := malformed_of_error read
      refine .inl ⟨malformed, ?_⟩
      rintro ⟨d, completed, -⟩
      exact completed.not_malformed malformed
  | ok s =>
      have completed := completed_of_ok read
      refine .inr ⟨⟨_, completed, fun n source' p => completed.eq⟩, completed.not_malformed⟩

end Program

end ScreenScript
