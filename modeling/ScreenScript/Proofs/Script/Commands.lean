import Mathlib.Data.List.Basic
import Mathlib.Data.List.Induction
import ScreenScript.Proofs.Script.Taking
import ScreenScript.Script.Line

namespace ScreenScript

inductive Command.Yields (base : Policy) (named : List (String × String)) : Command → Line → Prop where
  | click {t : Target} (bestEffort : Bool) (read : t.template.IsRead)
    (adjusts : base.Adjusts named (.ok t.policy)) :
    Yields base named .click (.act (.click t bestEffort))
  | hover {t : Target} (bestEffort : Bool) (read : t.template.IsRead)
    (adjusts : base.Adjusts named (.ok t.policy)) :
    Yields base named .hover (.act (.hover t bestEffort))
  | clickAt {x y : Expr} (readX : x.IsRead) (readY : y.IsRead) :
    Yields base named .clickAt (.act (.clickAt x y))
  | scroll (direction : Direction) :
    Yields base named .scroll (.act (.scroll direction Line.standardScroll))
  | scrollBy (direction : Direction) {amount : Expr} (read : amount.IsRead) :
    Yields base named .scroll (.act (.scroll direction amount))
  | wait {raw : String} {nanoseconds : Nat} (parsed : Duration.parse raw = .ok nanoseconds) :
    Yields base named .wait (.act (.wait nanoseconds))
  | type {p : Phrase} (read : p.IsRead) : Yields base named .type (.act (.type p))
  | press {p : Phrase} (read : p.IsRead) : Yields base named .press (.act (.press p))
  | log {p : Phrase} (read : p.IsRead) : Yields base named .log (.act (.log p))
  | launch {p : Phrase} (read : p.IsRead) : Yields base named .launch (.act (.launch p))
  | abort {reason : Option Phrase} (read : ∀ p ∈ reason, p.IsRead) :
    Yields base named .abort (.act (.abort reason))
  | loop {count : Expr} (read : count.IsRead) : Yields base named .loop (.opens (.loop count))
  | branch {t : Target} (read : t.template.IsRead) (adjusts : base.Adjusts named (.ok t.policy)) :
    Yields base named .branch (.opens (.branch t))
  | guard : Yields base named .guard (.opens .guard)

theorem Command.takesText_of_mem {command : Command} (h : command ∈ [Command.click, .hover, .branch]) :
    command.takesText = false := by
  simp only [List.mem_cons, List.not_mem_nil, or_false] at h
  rcases h with rfl | rfl | rfl <;> rfl

namespace Line

open Arguments (Meets meets_pure meets_word meets_phrase meets_joined meets_joined? meets_expr meets_expr?
  meets_read meets_target meets_flag meets_finish)

variable {base : Policy} {named : List (String × String)} {command : Command}

structure Outcome (base : Policy) (named : List (String × String)) (command : Command)
    (result : Except Line.Fault Line) : Prop where
  yields {l : Line} : result = .ok l → command.Yields base named l
  policy {fault : Policy.Fault} :
    result = .error (.arguments (.policy fault)) → base.Adjusts named (.error fault)

section Ends

variable {I : Arguments → Prop} {F : Policy.Fault → Prop}

theorem meets_line {l : Line} (h : command.Yields base named l) :
    Meets I (return .ok l) (fun result _ => Outcome base named command result) F :=
  meets_pure fun _ _ => { yields := fun same => Except.ok.inj same ▸ h, policy := nofun }

theorem outcome_error {fault : Line.Fault} (h : ∀ fault', fault ≠ .arguments (.policy fault')) :
    Outcome base named command (.error fault) where
  yields := nofun
  policy same := absurd (Except.error.inj same) (h _)

end Ends

theorem meets_ofCommand (base : Policy) (named : List (String × String)) (command : Command) :
    Meets (·.named = named) (ofCommand base command) (fun result _ => Outcome base named command result)
      (fun fault => base.Adjusts named (.error fault)) := by
  cases command with
  | click =>
      refine (meets_phrase _).bind fun p => .of_and fun read => ?_
      refine (meets_target base named p).bind fun t => .of_and ?_
      rintro ⟨rfl, adjusts⟩
      exact (meets_flag (by decide)).bind fun b => meets_line (.click b read adjusts)
  | hover =>
      refine (meets_phrase _).bind fun p => .of_and fun read => ?_
      refine (meets_target base named p).bind fun t => .of_and ?_
      rintro ⟨rfl, adjusts⟩
      exact (meets_flag (by decide)).bind fun b => meets_line (.hover b read adjusts)
  | clickAt =>
      refine (meets_expr _).bind fun x => .of_and fun readX => ?_
      refine (meets_expr _).bind fun y => .of_and fun readY => ?_
      exact meets_line (.clickAt readX readY)
  | scroll =>
      refine (meets_word _).bind fun word => ?_
      cases Direction.parse? word with
      | none => exact meets_pure fun _ _ => outcome_error nofun
      | some direction =>
          refine meets_expr?.bind fun amount => .of_and fun read => meets_line ?_
          cases amount with
          | none => exact .scroll direction
          | some amount => exact .scrollBy direction (read amount rfl)
  | wait =>
      refine (meets_word _).bind fun word => (meets_read nofun).bind fun n => .of_and fun parsed => ?_
      exact meets_line (.wait parsed)
  | type =>
      refine (meets_phrase _).bind fun p => .of_and fun read => ?_
      exact meets_line (.type read)
  | press =>
      refine (meets_phrase _).bind fun p => .of_and fun read => ?_
      exact meets_line (.press read)
  | log =>
      refine (meets_joined _).bind fun p => .of_and fun read => ?_
      exact meets_line (.log read)
  | launch =>
      refine (meets_joined _).bind fun p => .of_and fun read => ?_
      exact meets_line (.launch read)
  | abort =>
      refine meets_joined?.bind fun p => .of_and fun read => ?_
      exact meets_line (.abort read)
  | loop =>
      refine (meets_expr _).bind fun count => .of_and fun read => ?_
      exact meets_line (.loop read)
  | guard => exact meets_line .guard
  | branch =>
      refine (meets_word _).bind fun word => ?_
      by_cases h : word ≠ "found"
      · rw [if_pos h]
        exact meets_pure fun _ _ => outcome_error nofun
      · rw [if_neg h]
        refine (meets_phrase _).bind fun p => .of_and fun read => ?_
        refine (meets_target base named p).bind fun t => .of_and ?_
        rintro ⟨rfl, adjusts⟩
        exact meets_line (.branch read adjusts)

theorem takeAll_eq (taking : Arguments.Taking (Except Line.Fault Line)) (args : Arguments) :
    takeAll taking args = match taking.run args with
      | .error fault => .error (.arguments fault)
      | .ok (.error fault, _) => .error fault
      | .ok (.ok l, rest) => match Arguments.finish.run rest with
        | .error fault => .error (.arguments fault)
        | .ok _ => .ok l := by
  unfold takeAll
  cases taking.run args with
  | error fault => rfl
  | ok taken =>
      obtain ⟨result, rest⟩ := taken
      cases result with
      | error fault => rfl
      | ok l =>
          have last (finished : Except Arguments.Fault (Unit × Arguments)) :
              (do let _ ← orFault .arguments finished; return l) = match finished with
                | .error fault => .error (.arguments fault)
                | .ok _ => .ok l := by
            cases finished with
            | error fault => rfl
            | ok done => rfl
          exact last _

theorem outcome_takeAll {taking : Arguments.Taking (Except Line.Fault Line)} {args : Arguments}
    (h : Meets (·.named = named) taking (fun result _ => Outcome base named command result)
      fun fault => base.Adjusts named (.error fault))
    (same : args.named = named) : Outcome base named command (takeAll taking args) := by
  rw [takeAll_eq]
  split
  · rename_i fault ran
    refine ⟨nofun, fun refused => h.fault same ?_⟩
    rw [ran, Line.Fault.arguments.inj (Except.error.inj refused)]
  · rename_i fault rest ran
    exact h.value same ran
  · rename_i l rest ran
    split
    · rename_i fault finished
      refine ⟨nofun, fun refused => ?_⟩
      rw [Line.Fault.arguments.inj (Except.error.inj refused)] at finished
      have met : Meets (fun _ => True) Arguments.finish _ fun fault => base.Adjusts named (.error fault) :=
        meets_finish
      exact met.fault trivial finished
    · exact h.value same ran

theorem splitOpening_append {before : List Word} (h : .opening ∉ before) (after : List Word) :
    splitOpening (before ++ after) = (before ++ (splitOpening after).1, (splitOpening after).2) := by
  cases after using List.reverseRecOn with
  | nil =>
      rw [List.append_nil, splitOpening]
      split
      · rename_i opening
        exact absurd (List.mem_of_getLast? opening) h
      · exact Prod.ext (List.append_nil _).symm rfl
  | append_singleton rest last =>
      simp only [splitOpening, ← List.append_assoc, List.getLast?_concat, List.dropLast_concat]
      cases last <;> simp

theorem splitOpening_of_notMem {words : List Word} (h : .opening ∉ words) :
    splitOpening words = (words, false) := by
  have whole := splitOpening_append h []
  rw [List.append_nil] at whole
  rw [whole]
  exact Prod.ext (List.append_nil _) rfl

theorem splitOpening_subset (words : List Word) : (splitOpening words).1 ⊆ words := by
  unfold splitOpening
  split
  · exact List.dropLast_subset words
  · exact List.Subset.refl words

theorem ofWords_splitOpening (first : String) (keepsNames : Bool) (words : List Word) :
    Arguments.ofWords first keepsNames (splitOpening words).1 =
      Arguments.ofWords first keepsNames words := by
  unfold splitOpening
  split
  · rename_i opening
    have whole : words.dropLast ++ [.opening] = words := List.dropLast_append_getLast? _ opening
    conv => rhs; rw [← whole]
    cases keepsNames <;> simp [Arguments.ofWords, Arguments.named?, Arguments.positional?]
  · rfl

theorem outcome_ofWords (base : Policy) {first : String} (known : Command.ofWord? first = some command)
    (rest : List Word) :
    Outcome base (Arguments.ofWords first command.takesText rest).named command
      (ofWords base first rest) := by
  unfold ofWords
  rw [known]
  dsimp only
  split
  · exact outcome_error nofun
  split
  · exact outcome_error nofun
  split
  · exact outcome_error nofun
  · rw [← ofWords_splitOpening]
    exact outcome_takeAll (meets_ofCommand base _ command) rfl

theorem exists_yields_of_ofWords {first : String} {rest : List Word} {l : Line}
    (h : ofWords base first rest = .ok l) : ∃ named command, Command.Yields base named command l := by
  cases known : Command.ofWord? first with
  | some command => exact ⟨_, command, (outcome_ofWords base known rest).yields h⟩
  | none =>
      -- Without a command there is no line, whichever fault is found first.
      unfold ofWords at h
      rw [known] at h
      dsimp only at h
      split at h
      · cases h
      split at h
      · cases h
      split at h
      · cases h
      · cases h

end Line

end ScreenScript
