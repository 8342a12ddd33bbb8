import ScreenScript.Proofs.Script.Unclosed

namespace ScreenScript

theorem Instruction.eq_act_of_start {i : Instruction} {line : Nat} {action : Action}
    (h : i.start = (line, .act action)) : i = .act ⟨i.index, line⟩ action := by
  cases i with
  | act place action' =>
      cases h
      rfl
  | loop | branch | guard => cases h

namespace Script

variable {base : Policy} {lines : List (List Char)} {ls : List (Nat × Line)}

theorem remaining_append (line : Nat) (lines more : List (List Char)) :
    remaining line (lines ++ more) = remaining line lines ++ remaining (line + lines.length) more := by
  induction lines generalizing line with
  | nil => rfl
  | cons cs rest ih =>
      have number : line + (cs :: rest).length = line + 1 + rest.length := by
        rw [List.length_cons]
        omega
      rw [List.cons_append, remaining, remaining, number, ih]
      split <;> rfl

theorem mem_remaining {cs : List Char} (counts : ¬ isRemark cs) (before after : List (List Char)) :
    (before.length + 1, Text.trim cs) ∈ remaining 1 (before ++ cs :: after) := by
  rw [remaining_append, remaining, if_neg counts, Nat.add_comm]
  exact List.mem_append_right _ List.mem_cons_self

theorem eq_of_mem_of_ordered (ordered : (ls.map Prod.fst).Pairwise (· < ·)) {line : Nat} {l l' : Line}
    (member : (line, l) ∈ ls) (member' : (line, l') ∈ ls) : l = l' := by
  have distinct : (ls.map Prod.fst).Nodup := ordered.imp fun {_ _} before => Nat.ne_of_lt before
  exact (Prod.mk.inj (List.inj_on_of_nodup_map distinct member member' rfl)).2

/-- Whether a line does one thing and nothing else, alone or in a script, with blanks around it or not. -/
structure Acts (base : Policy) (line : List Char) (action : Action) : Prop where
  /-- It can be read at any point, and adds the action there. -/
  step (s : Block.State) (n : Nat) (cs : List Char) :
    Text.trim cs = line → s.step base n cs = .ok (s.settle.act n action)
  alone : Program.parse (String.ofList line) base =
    .ok { instructions := [.act ⟨0, 1⟩ action], size := 1 }
  /-- No script is refused at this line. -/
  accepted (source : String) (before after : List (List Char)) (cs : List Char) :
    Text.lines source.toList = before ++ cs :: after → Text.trim cs = line →
      ∀ n message, Program.parse source base = .error (.parse n message) → n ≠ before.length + 1
  once (source : String) (before after : List (List Char)) (cs : List Char) :
    Text.lines source.toList = before ++ cs :: after → Text.trim cs = line →
      ∀ p, Program.parse source base = .ok p →
        ∃ depth index, (depth, .act ⟨index, before.length + 1⟩ action) ∈ p.walk ∧
          ∀ other ∈ p.walk, other.2.line = before.length + 1 →
            other = (depth, .act ⟨index, before.length + 1⟩ action)

/-- Whether a line is in no script that is accepted, with blanks around it or not. -/
def Refused (base : Policy) (line : List Char) : Prop :=
  ∀ (source : String) (before after : List (List Char)) (cs : List Char),
    Text.lines source.toList = before ++ cs :: after → Text.trim cs = line →
      ∀ p, Program.parse source base ≠ .ok p

section

variable {source : String} {before after : List (List Char)} {cs line : List Char} {action : Action}

theorem step_act (counts : ¬ isRemark cs)
    (read : (Line.read base (Text.trim cs)).content = .ok (.act action)) (s : Block.State) (n : Nat) :
    s.step base n cs = .ok (s.settle.act n action) :=
  Block.State.step_eq_take s n counts read

theorem ne_of_steps_error (counts : ¬ isRemark cs)
    (read : (Line.read base (Text.trim cs)).content = .ok (.act action)) {s : Block.State} {n k : Nat}
    {fault : Block.Fault} (h : s.steps base k (before ++ cs :: after) = .error (n, fault)) :
    n ≠ k + before.length := by
  rintro rfl
  obtain ⟨s', refused⟩ := Block.State.exists_step_of_steps_error h
  rw [step_act counts read] at refused
  cases refused

theorem ne_of_parse_error (lines : Text.lines source.toList = before ++ cs :: after)
    (counts : ¬ isRemark cs) (read : (Line.read base (Text.trim cs)).content = .ok (.act action))
    {n : Nat} {message : String} (h : Program.parse source base = .error (.parse n message)) :
    n ≠ before.length + 1 := by
  cases taken : ({} : Block.State).steps base 1 (Text.lines source.toList) with
  | error found =>
      obtain ⟨line, fault⟩ := found
      cases (Program.parse_of_error taken).symm.trans h
      rw [lines] at taken
      have other := ne_of_steps_error counts read taken
      omega
  | ok s =>
      by_cases outside : s.levels = []
      · obtain ⟨p, parsed⟩ := Program.exists_parse_of_closed taken outside
        cases parsed.symm.trans h
      · -- The line at fault opens a block, so it is another one.
        obtain ⟨ls, opened, meant, -, ⟨first, body, rfl⟩, failed⟩ :=
          Program.exists_leavesOpen_of_steps taken outside
        cases failed.symm.trans h
        intro same
        obtain ⟨opening, rest, opens, -⟩ := opened.lines_eq_cons
        have here := mem_meanings?_of_read meant (lines ▸ mem_remaining counts before after) read
        have there : (opened.first, Line.opens opening) ∈ first ++ (opened.lines ++ linesAll body) := by
          simp [opens]
        rw [same] at there
        cases eq_of_mem_of_ordered (pairwise_of_meanings? meant) here there

theorem exists_place_of_parse (lines : Text.lines source.toList = before ++ cs :: after)
    (counts : ¬ isRemark cs) {p : Program} (h : Program.parse source base = .ok p) :
    ∃ l, (Line.read base (Text.trim cs)).content = .ok l ∧
      (isStart l → ∃ around i, (around, i) ∈ p.places ∧ i.start = (before.length + 1, l)) := by
  obtain ⟨ls, meant, starts_eq⟩ := Program.starts_of_parse h
  obtain ⟨l, read, inside⟩ := exists_mem_meanings? meant (lines ▸ mem_remaining counts before after)
  refine ⟨l, read, fun start => ?_⟩
  have started : (before.length + 1, l) ∈ p.places.map (·.2.start) := by
    rw [starts_eq]
    exact List.mem_filter.2 ⟨inside, start⟩
  obtain ⟨⟨around, i⟩, member, same⟩ := List.mem_map.1 started
  exact ⟨around, i, member, same⟩

theorem exists_mem_walk_of_parse (lines : Text.lines source.toList = before ++ cs :: after)
    (counts : ¬ isRemark cs) (read : (Line.read base (Text.trim cs)).content = .ok (.act action))
    {p : Program} (h : Program.parse source base = .ok p) :
    ∃ depth index, (depth, .act ⟨index, before.length + 1⟩ action) ∈ p.walk ∧
      ∀ other ∈ p.walk, other.2.line = before.length + 1 →
        other = (depth, .act ⟨index, before.length + 1⟩ action) := by
  obtain ⟨l, read', starts⟩ := exists_place_of_parse lines counts h
  cases read.symm.trans read'
  obtain ⟨around, i, member, start⟩ := starts rfl
  have acts := Instruction.eq_act_of_start start
  refine ⟨around.length, i.index, ?_, ?_⟩
  · rw [← acts]
    exact Program.mem_walk_of_mem_places member
  · intro other walked sameLine
    rw [p.walk_eq_places] at walked
    obtain ⟨place, member', rfl⟩ := List.mem_map.1 walked
    rw [Program.places_unique_of_line h member' member
      (sameLine.trans (congrArg Prod.fst start).symm), ← acts]
    rfl

theorem parse_alone (feed : '\n' ∉ line) (counts : ¬ isRemark line)
    (read : (Line.read base (Text.trim line)).content = .ok (.act action)) :
    Program.parse (String.ofList line) base =
      .ok { instructions := [.act ⟨0, 1⟩ action], size := 1 } := by
  have some : line ≠ [] := by
    rintro rfl
    exact counts rfl
  rw [Program.parse, Program.ofLines, String.toList_ofList, Text.lines_of_notMem feed some,
    Block.State.steps, step_act counts read]
  rfl

theorem not_isRemark_of_trim_eq (trimmed : Text.trim line = line) (counts : ¬ isRemark line)
    (same : Text.trim cs = line) : ¬ isRemark cs := by
  rwa [isRemark, same, ← trimmed, ← isRemark]

theorem acts_of_read (trimmed : Text.trim line = line) (feed : '\n' ∉ line) (counts : ¬ isRemark line)
    (read : (Line.read base line).content = .ok (.act action)) : Acts base line action := by
  have counts_of {cs : List Char} (same : Text.trim cs = line) : ¬ isRemark cs :=
    not_isRemark_of_trim_eq trimmed counts same
  constructor
  case step => exact fun s n cs same => step_act (counts_of same) (same ▸ read) s n
  case alone => exact parse_alone feed counts (trimmed.symm ▸ read)
  case accepted =>
    exact fun source before after cs lines same n message =>
      ne_of_parse_error lines (counts_of same) (same ▸ read)
  case once =>
    exact fun source before after cs lines same p =>
      exists_mem_walk_of_parse lines (counts_of same) (same ▸ read)

theorem refused_of_read {fault : Line.Fault} (trimmed : Text.trim line = line) (counts : ¬ isRemark line)
    (read : (Line.read base line).content = .error fault) : Refused base line := by
  rintro source before after cs lines same p parsed
  obtain ⟨l, read', -⟩ := exists_place_of_parse lines (not_isRemark_of_trim_eq trimmed counts same) parsed
  rw [same, read] at read'
  cases read'

theorem Refused.alone (refused : Refused base line) (trimmed : Text.trim line = line)
    (feed : '\n' ∉ line) (counts : ¬ isRemark line) (p : Program) :
    Program.parse (String.ofList line) base ≠ .ok p := by
  have some : line ≠ [] := by
    rintro rfl
    exact counts rfl
  refine refused _ [] [] line ?_ trimmed p
  rw [String.toList_ofList, Text.lines_of_notMem feed some, List.nil_append]

end

end Script

end ScreenScript
