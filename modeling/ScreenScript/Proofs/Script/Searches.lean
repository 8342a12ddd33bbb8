import ScreenScript.Proofs.Script.QuotedText
import ScreenScript.Proofs.Script.Timeouts

namespace ScreenScript

variable {timeout : Nat}

namespace Arguments

variable {named after : List (String × String)} {key : String}

theorem removeNamed?_append (value : String) (h : named.lookup key = none) :
    removeNamed? key (named ++ (key, value) :: after) = some (value, named ++ after) := by
  induction named with
  | nil => rw [List.nil_append, removeNamed?, if_pos rfl, List.nil_append]
  | cons first rest ih =>
      obtain ⟨name, text⟩ := first
      rw [NameMap.lookup_cons_eq] at h
      split at h
      · cases h
      · rename_i ne
        rw [List.cons_append, removeNamed?, if_neg (Ne.symm ne), ih h, Option.map_some]
        rfl

theorem removeNamed?_of_lookup (h : named.lookup key = none) : removeNamed? key named = none := by
  cases removed : removeNamed? key named with
  | none => rfl
  | some found =>
      obtain ⟨value, rest⟩ := found
      cases h.symm.trans (lookup_of_removeNamed? removed).1

theorem run_duration_of_lookup (command : String) (positional : List Argument)
    (h : named.lookup key = none) :
    (duration key).run ⟨command, positional, named⟩ = .ok (none, ⟨command, positional, named⟩) := by
  have taken : (takeNamed key).run ⟨command, positional, named⟩ =
      .ok (none, ⟨command, positional, named⟩) := by
    rw [StateT.run, takeNamed, removeNamed?_of_lookup h]
  rw [duration, run_bind_of_eq_ok taken]
  rfl

theorem run_duration_append (command : String) (positional : List Argument) {raw : String}
    (h : named.lookup key = none) (parsed : Duration.parse raw = .ok timeout) :
    (duration key).run ⟨command, positional, named ++ (key, raw) :: after⟩ =
      .ok (some timeout, ⟨command, positional, named ++ after⟩) := by
  have taken : (takeNamed key).run ⟨command, positional, named ++ (key, raw) :: after⟩ =
      .ok (some raw, ⟨command, positional, named ++ after⟩) := by
    rw [StateT.run, takeNamed, removeNamed?_append raw h]
  rw [duration, run_bind_of_eq_ok taken]
  dsimp only
  rw [parsed]
  rfl

def Gives (base : Policy) (named : List (String × String)) (policy : Policy)
    (rest : List (String × String)) : Prop :=
  ∀ template command positional, (target base template).run ⟨command, positional, named⟩ =
    .ok (⟨template, policy⟩, ⟨command, positional, rest⟩)

variable {base policy : Policy}

theorem gives_of_lookup (untimed : ∀ key ∈ ["timeout", "interval"], named.lookup key = none) :
    Gives base named base named := by
  intro template command positional
  rw [target, run_bind_of_eq_ok (run_duration_of_lookup command positional (untimed "timeout" (by decide))),
    run_bind_of_eq_ok (run_duration_of_lookup command positional (untimed "interval" (by decide)))]
  rfl

theorem gives_append {raw : String}
    (untimed : ∀ key ∈ ["timeout", "interval"], (named ++ after).lookup key = none)
    (parsed : Duration.parse raw = .ok timeout) (adjusted : base.adjust (some timeout) none = .ok policy) :
    Gives base (named ++ ("timeout", raw) :: after) policy (named ++ after) := by
  intro template command positional
  have before : named.lookup "timeout" = none := by
    have none := untimed "timeout" (by decide)
    rw [List.lookup_append, Option.or_eq_none_iff] at none
    exact none.1
  rw [target, run_bind_of_eq_ok (run_duration_append command positional before parsed),
    run_bind_of_eq_ok (run_duration_of_lookup command positional (untimed "interval" (by decide))),
    adjusted]
  rfl

end Arguments

namespace Line

def withPolicy (policy : Policy) : Line → Line
  | .act (.click target bestEffort) => .act (.click { target with policy } bestEffort)
  | .act (.hover target bestEffort) => .act (.hover { target with policy } bestEffort)
  | .opens (.branch target) => .opens (.branch { target with policy })
  | l => l

theorem takeAll_map {taking : Arguments.Taking (Except Line.Fault Line)} {args args' : Arguments}
    {f : Line → Line} (h : taking.run args' = (taking.run args).map (Prod.map (Except.map f) id)) :
    takeAll taking args' = (takeAll taking args).map f := by
  rw [takeAll_eq, takeAll_eq, h]
  cases taking.run args with
  | error fault => rfl
  | ok taken =>
      obtain ⟨result, rest⟩ := taken
      cases result with
      | error fault => rfl
      | ok l =>
          dsimp only [Except.map, Prod.map, id]
          cases Arguments.finish.run rest with
          | error fault => rfl
          | ok done => rfl

section Timed

variable {base policy : Policy} {named timed rest : List (String × String)}

theorem run_search_map {search : Target → Arguments.Taking (Except Line.Fault Line)}
    (same : ∀ template args, (search ⟨template, policy⟩).run args =
      ((search ⟨template, base⟩).run args).map (Prod.map (Except.map (withPolicy policy)) id))
    (plain : Arguments.Gives base named base rest) (gives : Arguments.Gives base timed policy rest)
    (what command : String) (positional : List Argument) :
    (Arguments.phrase what >>= fun template => Arguments.target base template >>= search).run
        ⟨command, positional, timed⟩ =
      ((Arguments.phrase what >>= fun template => Arguments.target base template >>= search).run
        ⟨command, positional, named⟩).map (Prod.map (Except.map (withPolicy policy)) id) := by
  cases positional with
  | nil => rfl
  | cons first later =>
      rw [StateT.run_bind, StateT.run_bind, run_phrase, run_phrase]
      cases Phrase.parse first.text with
      | error fault => rfl
      | ok template =>
          change (Arguments.target base template >>= search).run _ =
            ((Arguments.target base template >>= search).run _).map _
          rw [Arguments.run_bind_of_eq_ok (gives template command later),
            Arguments.run_bind_of_eq_ok (plain template command later)]
          exact same template _

theorem run_flag_map (key : String) {line line' : Bool → Line}
    (same : ∀ b, line' b = withPolicy policy (line b)) (args : Arguments) :
    (do return .ok (line' (← Arguments.flag key)) : Arguments.Taking (Except Line.Fault Line)).run args =
      ((do return .ok (line (← Arguments.flag key)) : Arguments.Taking (Except Line.Fault Line)).run
        args).map (Prod.map (Except.map (withPolicy policy)) id) := by
  rw [StateT.run_bind, StateT.run_bind]
  cases (Arguments.flag key).run args with
  | error fault => rfl
  | ok taken =>
      change Except.ok (Except.ok (line' taken.1), taken.2) = Except.ok (Except.ok _, taken.2)
      rw [same]

theorem takeAll_branch {text : String} (other : text ≠ "found") (word : String)
    (positional : List Argument) (named : List (String × String)) :
    takeAll (ofCommand base .branch) ⟨word, ⟨text, false⟩ :: positional, named⟩ =
      .error (.foundExpected text) := by
  have taken : (Arguments.word "'found'").run ⟨word, ⟨text, false⟩ :: positional, named⟩ =
      .ok (text, ⟨word, positional, named⟩) := rfl
  rw [takeAll_eq, ofCommand, Arguments.run_bind_of_eq_ok taken, if_pos other]
  rfl

theorem takeAll_ofCommand_map {command : Command} (member : command ∈ [Command.click, .hover, .branch])
    (plain : Arguments.Gives base named base rest) (gives : Arguments.Gives base timed policy rest)
    (word : String) (positional : List Argument) :
    takeAll (ofCommand base command) ⟨word, positional, timed⟩ =
      (takeAll (ofCommand base command) ⟨word, positional, named⟩).map (withPolicy policy) := by
  simp only [List.mem_cons, List.not_mem_nil, or_false] at member
  rcases member with rfl | rfl | rfl
  · refine takeAll_map (run_search_map (fun template => ?_) plain gives _ word positional)
    exact run_flag_map "best_effort" fun _ => rfl
  · refine takeAll_map (run_search_map (fun template => ?_) plain gives _ word positional)
    exact run_flag_map "best_effort" fun _ => rfl
  · cases positional with
    | nil => rfl
    | cons first later =>
      obtain ⟨text, quoted⟩ := first
      cases quoted with
      | true => rfl
      | false =>
          by_cases found : text = "found"
          · subst found
            exact takeAll_map (run_search_map (fun _ _ => rfl) plain gives _ word later)
          · rw [takeAll_branch found, takeAll_branch found]
            rfl

end Timed

theorem lookup_of_notMem {words : List Word} {key : String} (h : ∀ value, .named key value ∉ words) :
    (words.filterMap Arguments.named?).lookup key = none := by
  rw [List.lookup_eq_none_iff]
  rintro ⟨name, value⟩ member
  obtain ⟨word, inside, found⟩ := List.mem_filterMap.1 member
  cases word with
  | named other text =>
      cases found
      exact bne_iff_ne.2 fun same => h value (same ▸ inside)
  | bare | quoted | opening | closing => cases found

theorem ofWords_append {base policy : Policy} {command : Command} {raw : String}
    (member : command ∈ [Command.click, .hover, .branch]) {before after : List Word}
    (closed : .opening ∉ before)
    (untimed : ∀ key ∈ ["timeout", "interval"], ∀ value, .named key value ∉ before ++ after)
    (parsed : Duration.parse raw = .ok timeout) (adjusted : base.adjust (some timeout) none = .ok policy) :
    ofWords base command.word (before ++ .named "timeout" raw :: after) =
      (ofWords base command.word (before ++ after)).map (withPolicy policy) := by
  have timed : splitOpening (before ++ .named "timeout" raw :: after) =
      (before ++ .named "timeout" raw :: (splitOpening after).1, (splitOpening after).2) := by
    have closed' : .opening ∉ before ++ [.named "timeout" raw] := by simp [closed]
    simpa using splitOpening_append closed' after
  have inside : before ++ (splitOpening after).1 ⊆ before ++ after :=
    List.append_subset.2 ⟨List.subset_append_left _ _,
      List.Subset.trans (splitOpening_subset after) (List.subset_append_right _ _)⟩
  unfold ofWords
  rw [command.ofWord?_word, timed, splitOpening_append closed]
  generalize (splitOpening after).1 = body at inside
  simp only [List.any_append, List.any_cons, reduceCtorEq, decide_false, Bool.false_or]
  split
  · rfl
  split
  · rfl
  split
  · rfl
  have untimed' (key : String) (taken : key ∈ ["timeout", "interval"]) :
      (before.filterMap Arguments.named? ++ body.filterMap Arguments.named?).lookup key = none := by
    rw [← List.filterMap_append]
    exact lookup_of_notMem fun value member => untimed key taken value (inside member)
  have plain := Command.takesText_of_mem member
  have search := takeAll_ofCommand_map member (Arguments.gives_of_lookup untimed')
    (Arguments.gives_append untimed' parsed adjusted) command.word
    ((before ++ body).filterMap (Arguments.positional? false))
  simpa [Arguments.ofWords, plain, Arguments.positional?, Arguments.named?] using search

/-- Whether two lines look for the same, and the second one only adds a timeout, in nanoseconds. -/
def AddsTimeout (plain timed : List Char) (timeout : Nat) : Prop :=
  ∃ command ∈ [Command.click, .hover, .branch], ∃ before after raw,
    Word.ofLine plain = .ok (.bare command.word :: (before ++ after)) ∧
      Word.ofLine timed = .ok (.bare command.word :: (before ++ .named "timeout" raw :: after)) ∧
      .opening ∉ before ∧
      (∀ key ∈ ["timeout", "interval"], ∀ value, .named key value ∉ before ++ after) ∧
      Duration.parse raw = .ok timeout

theorem content_of_addsTimeout (base : Policy) {plain timed : List Char}
    (adds : AddsTimeout plain timed timeout) (h : 2 ≤ timeout) :
    ∃ policy : Policy, policy.timeout = timeout ∧ policy.interval = min base.interval (timeout / 2) ∧
      (read base timed).content = (read base plain).content.map (withPolicy policy) := by
  obtain ⟨command, member, before, after, raw, line, line', closed, untimed, parsed⟩ := adds
  obtain ⟨policy, adjusted, same, same'⟩ := base.adjust_timeout h
  refine ⟨policy, same, same', ?_⟩
  rw [content_of_command line, content_of_command line']
  exact ofWords_append member closed untimed parsed adjusted

end Line

end ScreenScript
