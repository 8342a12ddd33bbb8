import ScreenScript.Proofs.Script.Placement

namespace ScreenScript

variable {base : Policy} {timeout : Nat} {cs : List Char}

theorem Policy.adjust_timeout (base : Policy) (h : 2 ≤ timeout) :
    ∃ policy, base.adjust (some timeout) none = .ok policy ∧ policy.timeout = timeout ∧
      policy.interval = min base.interval (timeout / 2) := by
  have pos : 0 < min base.interval (timeout / 2) := Nat.lt_min.2 ⟨base.interval_pos, by omega⟩
  have shorter : min base.interval (timeout / 2) < timeout := by
    have := Nat.min_le_right base.interval (timeout / 2)
    omega
  refine ⟨⟨timeout, min base.interval (timeout / 2), pos, shorter⟩, ?_, rfl, rfl⟩
  rw [adjust, make, dif_neg (by omega), dif_pos shorter]

namespace Line

/-- Whether a line looks for a target and gives a timeout, in nanoseconds, but no interval. -/
def GivesTimeout (cs : List Char) (timeout : Nat) : Prop :=
  ∃ command ∈ [Command.click, .hover, .branch], ∃ words raw,
    Word.ofLine cs = .ok (.bare command.word :: words) ∧
      (words.filterMap Arguments.named?).lookup "timeout" = some raw ∧
      (words.filterMap Arguments.named?).lookup "interval" = none ∧
      Duration.parse raw = .ok timeout

theorem exists_outcome_of_givesTimeout (base : Policy) (gives : GivesTimeout cs timeout)
    (h : 2 ≤ timeout) :
    ∃ command ∈ [Command.click, .hover, .branch], ∃ named,
      Outcome base named command (read base cs).content ∧
      ∃ policy : Policy, policy.timeout = timeout ∧
        policy.interval = min base.interval (timeout / 2) ∧
        ∀ result, base.Adjusts named result → result = .ok policy := by
  obtain ⟨command, member, words, raw, line, timed, untimed, parsed⟩ := gives
  have named : (Arguments.ofWords command.word command.takesText words).named =
      words.filterMap Arguments.named? := by
    simp only [List.mem_cons, List.not_mem_nil, or_false] at member
    rcases member with rfl | rfl | rfl <;> rfl
  have outcome := outcome_ofWords base command.ofWord?_word words
  rw [named, ← content_of_command line] at outcome
  obtain ⟨policy, adjusted, same, same'⟩ := base.adjust_timeout h
  refine ⟨command, member, _, outcome, policy, same, same', ?_⟩
  rintro result ⟨time?, interval?, given, given', rfl⟩
  rw [timed, Option.mapM_some, parsed] at given
  rw [untimed] at given'
  cases given
  cases given'
  exact adjusted

theorem ne_policy_of_givesTimeout (gives : GivesTimeout cs timeout) (h : 2 ≤ timeout)
    (fault : Policy.Fault) : (read base cs).content ≠ .error (.arguments (.policy fault)) := by
  intro refused
  obtain ⟨command, -, named, outcome, policy, -, -, only⟩ := exists_outcome_of_givesTimeout base gives h
  cases only _ (outcome.policy refused)

def target? : Line → Option Target
  | .act (.click target _) | .act (.hover target _) | .opens (.branch target) => some target
  | _ => none

theorem target?_meaning (i : Instruction) : i.meaning.target? = i.target? := by
  cases i with
  | act place action => cases action <;> rfl
  | loop | branch | guard => rfl

theorem exists_target_of_yields {named : List (String × String)} {command : Command} {l : Line}
    (h : command.Yields base named l) (member : command ∈ [Command.click, .hover, .branch]) :
    Script.isStart l ∧ ∃ t, l.target? = some t ∧ base.Adjusts named (.ok t.policy) := by
  cases h with
  | click _ _ adjusts | hover _ _ adjusts | branch _ adjusts => exact ⟨rfl, _, rfl, adjusts⟩
  | clickAt | scroll | scrollBy | wait | type | press | log | launch | abort => simp at member
  | loop | guard => simp at member

theorem exists_target_of_givesTimeout {l : Line} (gives : GivesTimeout cs timeout) (h : 2 ≤ timeout)
    (means : (read base cs).content = .ok l) :
    Script.isStart l ∧ ∃ t, l.target? = some t ∧ t.policy.timeout = timeout ∧
      t.policy.interval = min base.interval (timeout / 2) := by
  obtain ⟨command, member, named, outcome, policy, same, same', only⟩ :=
    exists_outcome_of_givesTimeout base gives h
  obtain ⟨start, t, found, adjusts⟩ := exists_target_of_yields (outcome.yields means) member
  cases Except.ok.inj (only _ adjusts)
  exact ⟨start, t, found, same, same'⟩

theorem not_isRemark_of_givesTimeout (gives : GivesTimeout (Text.trim cs) timeout) :
    ¬ Script.isRemark cs := by
  intro remark
  obtain ⟨command, -, words, raw, line, -⟩ := gives
  rcases Script.trim_of_isRemark remark with none | ⟨text, comment⟩
  · rw [none, Word.ofLine] at line
    cases line
  · rw [comment, Word.ofLine, dif_neg (by decide), if_pos rfl] at line
    cases line

end Line

namespace Program

variable {source : String} {before after : List (List Char)}

theorem ne_policy_of_givesTimeout (lines : Text.lines source.toList = before ++ cs :: after)
    (gives : Line.GivesTimeout (Text.trim cs) timeout) (h : 2 ≤ timeout) (fault : Policy.Fault) :
    ofLines base (Text.lines source.toList) ≠
      .error (before.length + 1, .line (.arguments (.policy fault))) := by
  intro refused
  have number : before.length + 1 = 1 + before.length := Nat.add_comm _ _
  cases taken : ({} : Block.State).steps base 1 (Text.lines source.toList) with
  | error found =>
      rw [ofLines, taken] at refused
      cases refused
      rw [lines, number] at taken
      obtain ⟨s, wrong⟩ := Block.State.exists_step_of_steps_error taken
      exact Line.ne_policy_of_givesTimeout gives h fault (Block.State.content_of_step_eq_error wrong)
  | ok s =>
      have unfinished : s.finish = .error (before.length + 1, .line (.arguments (.policy fault))) := by
        rwa [ofLines, taken] at refused
      rw [Block.State.finish] at unfinished
      split at unfinished
      · obtain ⟨-, other⟩ := Prod.mk.inj (Except.error.inj unfinished)
        cases other
      · cases unfinished

theorem exists_target_of_givesTimeout (lines : Text.lines source.toList = before ++ cs :: after)
    (gives : Line.GivesTimeout (Text.trim cs) timeout) (h : 2 ≤ timeout) {p : Program}
    (parsed : parse source base = .ok p) :
    ∃ depth i t, (depth, i) ∈ p.walk ∧ i.line = before.length + 1 ∧ i.target? = some t ∧
      t.policy.timeout = timeout ∧ t.policy.interval = min base.interval (timeout / 2) := by
  obtain ⟨l, means, starts⟩ :=
    Script.exists_place_of_parse lines (Line.not_isRemark_of_givesTimeout gives) parsed
  obtain ⟨start, t, found, times⟩ := Line.exists_target_of_givesTimeout gives h means
  obtain ⟨around, i, member, same⟩ := starts start
  obtain ⟨line, rfl⟩ := Prod.mk.inj same
  exact ⟨around.length, i, t, mem_walk_of_mem_places member, line,
    (Line.target?_meaning i).symm.trans found, times⟩

end Program

end ScreenScript
