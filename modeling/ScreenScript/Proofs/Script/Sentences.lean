import ScreenScript.Proofs.Script.Assignments
import ScreenScript.Proofs.Script.Commands
import ScreenScript.Script.Block

namespace ScreenScript

namespace Line

def role : Line → Line.Role
  | act _ | opens _ => .ordinary
  | declare .. => .declaration
  | closes | closesElse => .closing
  | opensElse => .otherwise

theorem role_of_yields {base : Policy} {named : List (String × String)} {command : Command} {l : Line}
    (h : command.Yields base named l) : l.role = .ordinary := by
  cases h with
  | click | hover | clickAt | scroll | scrollBy | wait | type | press | log | launch | abort => rfl
  | loop | branch | guard => rfl

inductive Means (base : Policy) : Line → Prop where
  | assign {name : String} {source : List Char} {e : Expr} (named : isName name)
    (free : Command.isReserved name = false) (parsed : Expr.parse source = .ok e) :
    Means base (.act (.assign name e))
  | declare {name : String} (named : isName name) (free : Command.isReserved name = false)
    (value : Value) : Means base (.declare name value)
  | command {named : List (String × String)} {command : Command} {l : Line}
    (yields : command.Yields base named l) : Means base l
  | closes : Means base .closes
  | closesElse : Means base .closesElse
  | opensElse : Means base .opensElse

theorem means_of_readDeclaration {base : Policy} {cs : List Char} {l : Line}
    (h : readDeclaration cs = .ok l) : Means base l ∧ l.role = .declaration := by
  unfold readDeclaration at h
  split at h
  · cases h
  · rename_i name source assigned
    split at h
    · cases h
    rename_i free
    obtain ⟨e, -, h⟩ := Except.bind_eq_ok_iff.1 h
    dsimp only at h
    split at h
    · cases h
    obtain ⟨value, -, h⟩ := Except.bind_eq_ok_iff.1 h
    cases h
    exact ⟨.declare (isName_of_splitAssignment assigned) (Bool.eq_false_iff.2 free) value, rfl⟩

theorem means_of_read {base : Policy} {cs : List Char} {l : Line}
    (h : (read base cs).content = .ok l) : Means base l ∧ (read base cs).role = l.role := by
  unfold read at h ⊢
  cases assigned : assignment? cs with
  | some assignment =>
      obtain ⟨name, source⟩ := assignment
      rw [assigned] at h
      obtain ⟨e, parsed, rfl⟩ := Except.map_eq_ok_iff.1 h
      obtain ⟨cut, free⟩ := Option.filter_eq_some_iff.1 assigned
      have free : Command.isReserved name = false := by simpa using free
      exact ⟨.assign (isName_of_splitAssignment cut) free (Except.mapError_eq_ok_iff.1 parsed), rfl⟩
  | none =>
      rw [assigned] at h
      match words : Word.ofLine cs with
      | .error fault | .ok [] | .ok (.opening :: _) | .ok (.named _ _ :: _) | .ok (.quoted _ :: _) =>
          rw [words] at h
          cases h
      | .ok (.closing :: rest) =>
          rw [words] at h
          dsimp only at h ⊢
          split at h
          · cases h
            exact ⟨.closes, rfl⟩
          split at h
          · cases h
            exact ⟨.closesElse, rfl⟩
          · cases h
      | .ok (.bare first :: rest) =>
          rw [words] at h
          dsimp only at h ⊢
          split at h
          · rw [if_pos ‹_›]
            dsimp only at h ⊢
            split at h
            · cases h
              exact ⟨.opensElse, rfl⟩
            · cases h
          rw [if_neg ‹_›]
          split at h
          · rw [if_pos ‹_›]
            obtain ⟨means, role⟩ := means_of_readDeclaration h
            exact ⟨means, role.symm⟩
          · rw [if_neg ‹_›]
            obtain ⟨named, command, yields⟩ := exists_yields_of_ofWords h
            exact ⟨.command yields, (role_of_yields yields).symm⟩

theorem isWordless_eq_false {c : Char} (plain : Text.isBlank c = false) (ne : c ≠ '#')
    (cs : List Char) : isWordless (c :: cs) = false := by
  have word := Word.ofLine_ne_nil plain ne cs
  unfold isWordless
  split
  · exact absurd ‹_› word
  · exact Bool.and_false _

end Line

/-! ## The lines of a script that count -/

namespace Script

def isRemark (cs : List Char) : Bool :=
  match Text.trim cs with
  | [] | '#' :: _ => true
  | _ => false

theorem trim_of_isRemark {cs : List Char} (h : isRemark cs) :
    Text.trim cs = [] ∨ ∃ text, Text.trim cs = '#' :: text := by
  unfold isRemark at h
  split at h
  · exact .inl ‹_›
  · exact .inr ⟨_, ‹_›⟩
  · cases h

theorem exists_trim_eq_cons {cs : List Char} (h : ¬ isRemark cs) :
    ∃ c rest, Text.trim cs = c :: rest ∧ c ≠ '#' := by
  unfold isRemark at h
  cases trimmed : Text.trim cs with
  | nil =>
      rw [trimmed] at h
      exact absurd rfl h
  | cons c rest =>
      refine ⟨c, rest, rfl, ?_⟩
      rintro rfl
      rw [trimmed] at h
      exact h rfl

theorem not_isRemark_of_trim {cs rest : List Char} {c : Char} (h : Text.trim cs = c :: rest)
    (ne : c ≠ '#') : ¬ isRemark cs := by
  intro remark
  rcases trim_of_isRemark remark with none | ⟨text, comment⟩
  · rw [none] at h
    cases h
  · rw [comment] at h
    cases h
    exact ne rfl

theorem not_isRemark_of_ofLine {cs : List Char} {word : Word} {words : List Word}
    (trimmed : Text.trim cs = cs) (h : Word.ofLine cs = .ok (word :: words)) : ¬ isRemark cs := by
  intro remark
  rcases trimmed ▸ trim_of_isRemark remark with none | ⟨text, comment⟩
  · rw [none, Word.ofLine] at h
    cases h
  · rw [comment, Word.ofLine, dif_neg (by decide), if_pos rfl] at h
    cases h

/-- The lines that are neither blank nor comments, with their numbers. -/
def remaining (line : Nat) : List (List Char) → List (Nat × List Char)
  | [] => []
  | cs :: rest =>
    if isRemark cs then remaining (line + 1) rest
    else (line, Text.trim cs) :: remaining (line + 1) rest

/-- The meanings of some lines, if each of them has one by itself. -/
def meanings? (base : Policy) : List (Nat × List Char) → Option (List (Nat × Line))
  | [] => some []
  | (line, cs) :: rest => do
    let l ← (Line.read base cs).content.toOption
    return (line, l) :: (← meanings? base rest)

section

variable {base : Policy} {line : Nat} {cs : List Char} {rest : List (Nat × List Char)}

theorem meanings?_of_error {fault : Line.Fault} (h : (Line.read base cs).content = .error fault) :
    meanings? base ((line, cs) :: rest) = none := by
  rw [meanings?, h]
  rfl

theorem meanings?_of_ok {l : Line} (h : (Line.read base cs).content = .ok l) :
    meanings? base ((line, cs) :: rest) = (meanings? base rest).map ((line, l) :: ·) := by
  rw [meanings?, h]
  cases meanings? base rest with
  | none => rfl
  | some ls => rfl

end

end Script

namespace Block

namespace State

def take (s : State) (line : Nat) (l : Line) : Except Block.Fault State := do
  s.admits l.role
  s.apply line l

def takeReading (s : State) (line : Nat) (reading : Line.Reading) : Except Block.Fault State :=
  match s.admits reading.role, reading.content with
  | .error fault, _ => .error fault
  | .ok _, .error fault => .error (.line fault)
  | .ok _, .ok l => s.apply line l

def takeAll (s : State) : List (Nat × Line) → Except Block.Fault State
  | [] => .ok s
  | (line, l) :: rest => do (← s.take line l).takeAll rest

def untitled (s : State) : State :=
  { s with title := none, description := none }

theorem untitled_comment (s : State) (cs : List Char) : (s.comment cs).untitled = s.untitled := by
  unfold comment
  split
  · rfl
  dsimp only
  split
  · rfl
  split
  · rfl
  · rfl

theorem untitled_settle (s : State) : s.untitled.settle = s.settle.untitled := by
  unfold settle
  cases h : s.waiting with
  | none => simp only [untitled, h]
  | some w => simp only [untitled, h]

theorem untitled_closes (s : State) : s.untitled.closes = s.closes.map untitled := by
  obtain ⟨current, levels, waiting, nextIndex, defaults, title, description⟩ := s
  match levels with
  | [] => rfl
  | ⟨place, .loop count, before⟩ :: rest => rfl
  | ⟨place, .guard, before⟩ :: rest => rfl
  | ⟨place, .found target, before⟩ :: rest => rfl
  | ⟨place, .missed target body, before⟩ :: rest => rfl

theorem untitled_closesElse (s : State) : s.untitled.closesElse = s.closesElse.map untitled := by
  obtain ⟨current, levels, waiting, nextIndex, defaults, title, description⟩ := s
  match levels with
  | [] => rfl
  | ⟨place, .loop count, before⟩ :: rest => rfl
  | ⟨place, .guard, before⟩ :: rest => rfl
  | ⟨place, .found target, before⟩ :: rest => rfl
  | ⟨place, .missed target body, before⟩ :: rest => rfl

theorem untitled_opensElse (s : State) : s.untitled.opensElse = s.opensElse.map untitled := by
  obtain ⟨current, levels, waiting, nextIndex, defaults, title, description⟩ := s
  cases waiting with
  | none => rfl
  | some w => rfl

theorem untitled_apply (s : State) (line : Nat) (l : Line) :
    s.untitled.apply line l = (s.apply line l).map untitled := by
  cases l with
  | act action =>
      simp only [apply, untitled_settle]
      rfl
  | declare name value =>
      simp only [apply, untitled_settle]
      rfl
  | opens opening =>
      simp only [apply, untitled_settle]
      rfl
  | closes => rw [apply, untitled_settle, untitled_closes, apply]
  | closesElse => rw [apply, untitled_settle, untitled_closesElse, apply]
  | opensElse => rw [apply, untitled_opensElse, apply]

theorem untitled_take (s : State) (line : Nat) (l : Line) :
    s.untitled.take line l = (s.take line l).map untitled := by
  have admitted : s.untitled.admits l.role = s.admits l.role := rfl
  rw [take, take, admitted, untitled_apply]
  cases s.admits l.role with
  | error fault => rfl
  | ok _ => rfl

theorem step_of_remark (base : Policy) (s : State) (line : Nat) {cs : List Char}
    (h : Script.isRemark cs) : ∃ s', s.step base line cs = .ok s' ∧ s'.untitled = s.untitled := by
  rcases Script.trim_of_isRemark h with blank | ⟨text, comment⟩
  · rw [step, blank]
    exact ⟨s, rfl, rfl⟩
  · rw [step, comment]
    exact ⟨_, rfl, untitled_comment s _⟩

theorem step_of_counts {base : Policy} (s : State) (line : Nat) {cs : List Char}
    (counts : ¬ Script.isRemark cs) :
    s.step base line cs = s.takeReading line (Line.read base (Text.trim cs)) := by
  obtain ⟨c, rest, trimmed, plain⟩ := Script.exists_trim_eq_cons counts
  have filled := Line.isWordless_eq_false (Text.not_isBlank_of_trim_eq_cons trimmed) plain rest
  simp only [step, trimmed, List.cons.injEq, plain, false_and, imp_self, implies_true]
  rw [filled]
  rfl

theorem step_eq_take {base : Policy} (s : State) (line : Nat) {cs : List Char} {l : Line}
    (counts : ¬ Script.isRemark cs) (h : (Line.read base (Text.trim cs)).content = .ok l) :
    s.step base line cs = s.take line l := by
  rw [step_of_counts s line counts, takeReading, (Line.means_of_read h).2, h, take]
  cases s.admits l.role with
  | error fault => rfl
  | ok _ => rfl

theorem exists_step_eq_error {base : Policy} (s : State) (line : Nat) {cs : List Char}
    {fault : Line.Fault} (counts : ¬ Script.isRemark cs)
    (h : (Line.read base (Text.trim cs)).content = .error fault) :
    ∃ fault', s.step base line cs = .error fault' := by
  rw [step_of_counts s line counts, takeReading, h]
  cases s.admits (Line.read base (Text.trim cs)).role with
  | error fault => exact ⟨_, rfl⟩
  | ok _ => exact ⟨_, rfl⟩

theorem admits_ne_line (s : State) (role : Line.Role) (fault : Line.Fault) :
    s.admits role ≠ .error (.line fault) := by
  cases role with
  | ordinary => exact nofun
  | declaration | closing | otherwise =>
      rw [admits]
      split
      · exact nofun
      · exact nofun

theorem apply_ne_line (s : State) (line : Nat) (l : Line) (fault : Line.Fault) :
    s.apply line l ≠ .error (.line fault) := by
  cases l with
  | act | declare | opens => exact nofun
  | closes =>
      rw [apply, closes]
      split
      · exact nofun
      · dsimp only
        split <;> exact nofun
  | closesElse =>
      rw [apply, closesElse]
      split
      · exact nofun
      · split <;> exact nofun
  | opensElse =>
      rw [apply, opensElse]
      split <;> exact nofun

theorem content_of_step_eq_error {base : Policy} {s : State} {line : Nat} {cs : List Char}
    {fault : Line.Fault} (h : s.step base line cs = .error (.line fault)) :
    (Line.read base (Text.trim cs)).content = .error fault := by
  by_cases remark : Script.isRemark cs
  · obtain ⟨s', accepted, -⟩ := step_of_remark base s line remark
    cases accepted.symm.trans h
  · rw [step_of_counts s line remark, takeReading] at h
    split at h
    · rename_i fault' _ refused
      cases h
      exact absurd refused (s.admits_ne_line _ fault)
    · cases h
      assumption
    · exact absurd h (s.apply_ne_line line _ fault)

theorem step_eq_ok_iff {base : Policy} {s s' : State} {line : Nat} {cs : List Char}
    (counts : ¬ Script.isRemark cs) :
    s.step base line cs = .ok s' ↔
      ∃ l, (Line.read base (Text.trim cs)).content = .ok l ∧ s.take line l = .ok s' := by
  constructor
  · intro stepped
    cases read : (Line.read base (Text.trim cs)).content with
    | error fault =>
        obtain ⟨fault', failed⟩ := exists_step_eq_error s line counts read
        rw [failed] at stepped
        cases stepped
    | ok l => exact ⟨l, rfl, (step_eq_take s line counts read).symm.trans stepped⟩
  · rintro ⟨l, read, taken⟩
    rw [step_eq_take s line counts read, taken]

theorem steps_iff_takeAll {base : Policy} (s t : State) (line : Nat) (lines : List (List Char)) :
    (∃ s', s.steps base line lines = .ok s' ∧ s'.untitled = t) ↔
      ∃ ls, Script.meanings? base (Script.remaining line lines) = some ls ∧
        s.untitled.takeAll ls = .ok t := by
  induction lines generalizing s line with
  | nil =>
      constructor
      · rintro ⟨s', ⟨⟩, rfl⟩
        exact ⟨[], rfl, rfl⟩
      · rintro ⟨ls, ⟨⟩, h⟩
        cases h
        exact ⟨s, rfl, rfl⟩
  | cons cs rest ih =>
      by_cases remark : Script.isRemark cs
      · obtain ⟨after, stepped, untitled_eq⟩ := step_of_remark base s line remark
        simp only [steps, stepped, Script.remaining, if_pos remark]
        rw [ih after (line + 1), untitled_eq]
      · simp only [Script.remaining, if_neg remark]
        cases read : (Line.read base (Text.trim cs)).content with
        | error fault =>
            obtain ⟨fault', stepped⟩ := exists_step_eq_error s line remark read
            simp only [steps, stepped, Script.meanings?_of_error read]
            constructor
            · rintro ⟨s', ⟨⟩, -⟩
            · rintro ⟨ls, ⟨⟩, -⟩
        | ok l =>
            have taken := untitled_take s line l
            simp only [steps, step_eq_take s line remark read, Script.meanings?_of_ok read,
              Option.map_eq_some_iff]
            cases next : s.take line l with
            | error fault =>
                rw [next] at taken
                constructor
                · rintro ⟨s', ⟨⟩, -⟩
                · rintro ⟨ls, ⟨ls', -, rfl⟩, h⟩
                  rw [takeAll, taken] at h
                  cases h
            | ok after =>
                rw [next] at taken
                have whole (ls : List (Nat × Line)) :
                    s.untitled.takeAll ((line, l) :: ls) = after.untitled.takeAll ls := by
                  rw [takeAll, taken]
                  rfl
                refine (ih after (line + 1)).trans ⟨?_, ?_⟩
                · rintro ⟨ls, meant, h⟩
                  exact ⟨_, ⟨ls, meant, rfl⟩, (whole ls).trans h⟩
                · rintro ⟨ls, ⟨ls', meant, rfl⟩, h⟩
                  exact ⟨ls', meant, (whole ls').symm.trans h⟩

end State

end Block

end ScreenScript
