import ScreenScript.Proofs.Script.Leftovers
import ScreenScript.Proofs.Script.Placement
import ScreenScript.Proofs.Script.Spelling

/-!
# The order of arguments

Arguments that are taken by their names do not see the order of the named ones, if no name is given twice
(`Arguments.Respects`). So the words of a line that looks for a target can be arranged in any way in which
its positional arguments keep their order (`Line.ofWords_rearranged`), and a script is the same program with
each of these lines (`Script.exchangeable_of_read`).
-/

namespace ScreenScript

namespace Arguments

structure Similar (args args' : Arguments) : Prop where
  command : args'.command = args.command
  positional : args'.positional = args.positional
  named : args'.named.Perm args.named
  once : args.keys.Nodup

section Rules

variable {α β : Type}

inductive Agree : Except Arguments.Fault (α × Arguments) → Except Arguments.Fault (α × Arguments) → Prop where
  | value (x : α) {rest rest' : Arguments} (similar : Similar rest rest') :
    Agree (.ok (x, rest)) (.ok (x, rest'))
  | fault (fault : Arguments.Fault) : Agree (.error fault) (.error fault)

structure Respects (taking : Taking α) : Prop where
  agree {args args' : Arguments} : Similar args args' → Agree (taking.run args) (taking.run args')

variable {taking : Taking α} {f : α → Taking β}

theorem respects_pure (x : α) : Respects (pure x) where
  agree similar := .value x similar

theorem respects_throw (fault : Arguments.Fault) : Respects (throw fault : Taking α) where
  agree _ := .fault fault

theorem respects_throw_command (fault : String → Arguments.Fault) :
    Respects (do throw (fault (← get).command) : Taking α) where
  agree {args args'} similar := by
    have ran (args : Arguments) : (do throw (fault (← get).command) : Taking α).run args =
        .error (fault args.command) := rfl
    rw [ran, ran, similar.command]
    exact .fault _

theorem Respects.bind (first : Respects taking) (next : ∀ x, Respects (f x)) :
    Respects (taking >>= f) where
  agree {args args'} similar := by
    rw [StateT.run_bind, StateT.run_bind]
    have taken := first.agree similar
    generalize taking.run args = result, taking.run args' = result' at taken
    cases taken with
    | value x similar => exact (next x).agree similar
    | fault fault => exact .fault fault

theorem respects_orFault {ε : Type} (wrap : ε → Arguments.Fault) (e : Except ε α) :
    Respects (orFault wrap e) := by
  cases e with
  | ok x => exact respects_pure x
  | error fault => exact respects_throw _

theorem Respects.map (h : Respects taking) (g : α → β) : Respects (g <$> taking) := by
  rw [map_eq_pure_bind]
  exact h.bind fun x => respects_pure (g x)

end Rules

/-! ## Takers -/

theorem respects_next? : Respects next? where
  agree {args args'} similar := by
    obtain ⟨command, positional, named⟩ := args
    obtain ⟨command', positional', named'⟩ := args'
    obtain rfl : positional' = positional := similar.positional
    cases positional' with
    | nil => exact .value none similar
    | cons first rest => exact .value (some first) ⟨similar.command, rfl, similar.named, similar.once⟩

variable (what key : String)

theorem respects_next : Respects (next what) :=
  respects_next?.bind fun
    | some argument => respects_pure argument
    | none => respects_throw_command (.missing · what)

theorem respects_word : Respects (word what) :=
  (respects_next what).bind fun
    | ⟨text, false⟩ => respects_pure text
    | ⟨_, true⟩ => respects_throw_command (.quoted · what)

theorem respects_phrase : Respects (phrase what) :=
  (respects_next what).bind fun argument => respects_orFault .phrase (Phrase.parse argument.text)

theorem mem_of_removeNamed? {key value : String} {named rest : List (String × String)}
    (h : removeNamed? key named = some (value, rest)) : (key, value) ∈ named :=
  (perm_of_removeNamed? h).1.mem_iff.2 List.mem_cons_self

theorem respects_takeNamed : Respects (takeNamed key) where
  agree {args args'} similar := by
    obtain ⟨command, positional, named, once⟩ := similar
    have keys : (args'.named.map Prod.fst).Perm (args.named.map Prod.fst) := named.map Prod.fst
    simp only [StateT.run, takeNamed]
    cases removed : removeNamed? key args.named with
    | none =>
        cases removed' : removeNamed? key args'.named with
        | none => exact .value none ⟨command, positional, named, once⟩
        | some found =>
            have member := List.mem_map_of_mem (f := Prod.fst) (mem_of_removeNamed? removed')
            exact absurd (keys.mem_iff.1 member) (notMem_of_removeNamed? removed)
    | some found =>
        obtain ⟨value, rest⟩ := found
        have member := mem_of_removeNamed? removed
        cases removed' : removeNamed? key args'.named with
        | none =>
            exact absurd (keys.mem_iff.2 (List.mem_map_of_mem (f := Prod.fst) member))
              (notMem_of_removeNamed? removed')
        | some found' =>
            obtain ⟨value', rest'⟩ := found'
            -- A name has one value.
            have same := List.inj_on_of_nodup_map once member
              (named.mem_iff.1 (mem_of_removeNamed? removed')) rfl
            obtain rfl : value = value' := (Prod.mk.inj same).2
            have perm : ((key, value) :: rest').Perm ((key, value) :: rest) :=
              (perm_of_removeNamed? removed').1.symm.trans (named.trans (perm_of_removeNamed? removed).1)
            have left : (rest.map Prod.fst).Nodup := by
              rw [(perm_of_removeNamed? removed).2]
              exact once.erase key
            exact .value (some value) ⟨command, positional, perm.cons_inv, left⟩

theorem respects_duration : Respects (duration key) :=
  (respects_takeNamed key).bind fun
    | none => respects_pure none
    | some raw => (respects_orFault .duration (Duration.parse raw)).map some

theorem respects_flag : Respects (flag key) := by
  refine (respects_takeNamed key).bind fun raw? => ?_
  cases raw? with
  | none => exact respects_pure false
  | some raw =>
      dsimp only
      cases boolean? raw with
      | some b => exact respects_pure b
      | none => exact respects_throw _

theorem respects_target (base : Policy) (template : Phrase) : Respects (target base template) :=
  (respects_duration "timeout").bind fun timeout => (respects_duration "interval").bind fun interval =>
    (respects_orFault .policy (base.adjust timeout interval)).bind fun _ => respects_pure _

end Arguments

/--
Whether the words after a command are the same in another order, in which the positional arguments keep
theirs and a brace stays at the end.
-/
structure Word.Rearranged (words words' : List Word) : Prop where
  perm : words'.Perm words
  positional :
    words'.filterMap (Arguments.positional? false) = words.filterMap (Arguments.positional? false)
  brace : .opening ∈ words → words'.getLast? = some .opening

namespace Line

open Arguments (Respects Similar respects_pure respects_word respects_phrase respects_target respects_flag)

variable {base : Policy} {command : Command} {words words' : List Word} {l : Line}

theorem respects_ofCommand (base : Policy) (member : command ∈ [Command.click, .hover, .branch]) :
    Respects (ofCommand base command) := by
  simp only [List.mem_cons, List.not_mem_nil, or_false] at member
  rcases member with rfl | rfl | rfl
  · exact (respects_phrase _).bind fun p => (respects_target base p).bind fun t =>
      (respects_flag "best_effort").bind fun b => respects_pure _
  · exact (respects_phrase _).bind fun p => (respects_target base p).bind fun t =>
      (respects_flag "best_effort").bind fun b => respects_pure _
  · refine (respects_word _).bind fun word => ?_
    split
    · exact respects_pure _
    · exact (respects_phrase _).bind fun p => (respects_target base p).bind fun t => respects_pure _

theorem takeAll_similar {taking : Arguments.Taking (Except Line.Fault Line)} {args args' : Arguments}
    (respects : Respects taking) (similar : Similar args args') (h : takeAll taking args = .ok l) :
    takeAll taking args' = .ok l := by
  obtain ⟨rest, ran, named, positional⟩ := takeAll_eq_ok_iff.1 h
  have taken := respects.agree similar
  rw [ran] at taken
  generalize ran' : taking.run args' = result' at taken
  cases taken with
  | @value _ _ rest' left =>
      refine takeAll_eq_ok_iff.2 ⟨rest', ran', ?_, left.positional.trans positional⟩
      exact List.perm_nil.1 (named ▸ left.named)

theorem splitOpening_of_getLast? (h : words.getLast? = some .opening) :
    words.dropLast ++ [.opening] = words ∧ splitOpening words = (words.dropLast, true) :=
  ⟨List.dropLast_append_getLast? _ h, by rw [splitOpening, h]⟩

theorem splitOpening_of_getLast?_ne (h : words.getLast? ≠ some .opening) :
    splitOpening words = (words, false) := by
  unfold splitOpening
  split
  · rename_i opening
    exact absurd opening h
  · rfl

theorem splitOpening_rearranged (rearranged : Word.Rearranged words words')
    (unbraced : ∀ w ∈ (splitOpening words).1, w ≠ .opening ∧ w ≠ .closing) :
    (splitOpening words').2 = (splitOpening words).2 ∧
      ∀ w ∈ (splitOpening words').1, w ≠ .opening ∧ w ≠ .closing := by
  by_cases opening : words.getLast? = some .opening
  · obtain ⟨whole, cut⟩ := splitOpening_of_getLast? opening
    obtain ⟨whole', cut'⟩ := splitOpening_of_getLast? (rearranged.brace (List.mem_of_getLast? opening))
    have perm := rearranged.perm
    -- The brace at the end is there in both orders, so what stands before it is the same.
    rw [← whole, ← whole', List.perm_append_right_iff] at perm
    rw [cut, cut']
    rw [cut] at unbraced
    exact ⟨rfl, fun w member => unbraced w (perm.mem_iff.1 member)⟩
  · have cut := splitOpening_of_getLast?_ne opening
    rw [cut] at unbraced
    have unbraced' : ∀ w ∈ words', w ≠ .opening ∧ w ≠ .closing :=
      fun w member => unbraced w (rearranged.perm.mem_iff.1 member)
    have cut' : splitOpening words' = (words', false) :=
      splitOpening_of_notMem fun member => (unbraced' _ member).1 rfl
    rw [cut, cut']
    exact ⟨rfl, unbraced'⟩

theorem ofWords_rearranged (member : command ∈ [Command.click, .hover, .branch])
    (rearranged : Word.Rearranged words words') (h : ofWords base command.word words = .ok l) :
    ofWords base command.word words' = .ok l := by
  have plain := Command.takesText_of_mem member
  have fits := fits_of_ofWords plain h
  obtain ⟨opened, unbraced, taken⟩ := ofWords_eq_ok_iff.1 h
  obtain ⟨opened', unbraced'⟩ := splitOpening_rearranged rearranged unbraced
  refine ofWords_eq_ok_iff.2 ⟨opened'.trans opened, unbraced', ?_⟩
  rw [plain] at taken ⊢
  have similar : Similar (Arguments.ofWords command.word false words)
      (Arguments.ofWords command.word false words') :=
    ⟨rfl, rearranged.positional, rearranged.perm.filterMap _, fits.once⟩
  exact takeAll_similar (respects_ofCommand base member) similar taken

end Line

namespace Script

variable {base : Policy} {command : Command} {words words' : List Word} {l : Line}
  {before after : List (List Char)} {cs cs' line line' : List Char} {source source' : String}

/-- Whether each script is the same program, or refused for the same reason, with either of two lines. -/
def Exchangeable (base : Policy) (line line' : List Char) : Prop :=
  ∀ (source source' : String) (before after : List (List Char)) (cs cs' : List Char),
    Text.lines source.toList = before ++ cs :: after →
      Text.lines source'.toList = before ++ cs' :: after → Text.trim cs = line → Text.trim cs' = line' →
        Program.parse source' base = Program.parse source base

theorem exchangeable_of_read (trimmed : Text.trim line = line) (counts : ¬ isRemark line)
    (trimmed' : Text.trim line' = line') (counts' : ¬ isRemark line')
    (same : Line.read base line' = Line.read base line) : Exchangeable base line line' := by
  intro source source' before after cs cs' lines lines' here here'
  have stepped (s : Block.State) (n : Nat) : s.step base n cs' = s.step base n cs := by
    rw [Block.State.step_of_counts s n (not_isRemark_of_trim_eq trimmed counts here),
      Block.State.step_of_counts s n (not_isRemark_of_trim_eq trimmed' counts' here'), here, here', same]
  have steps : ({} : Block.State).steps base 1 (before ++ cs' :: after) =
      ({} : Block.State).steps base 1 (before ++ cs :: after) := by
    simp only [Block.State.steps_append, Block.State.steps, stepped]
  rw [Program.parse, Program.parse, Program.ofLines, Program.ofLines, lines, lines', steps]

/-- Whether a line, without blanks around it, has a command and some words after it. -/
structure Consists (line : List Char) (command : Command) (words : List Word) : Prop where
  trimmed : Text.trim line = line
  words : Word.ofLine line = .ok (.bare command.word :: words)

theorem Consists.counts (h : Consists line command words) : ¬ isRemark line :=
  not_isRemark_of_ofLine h.trimmed h.words

theorem Consists.exists_line (h : Consists line command words) (known : words' ⊆ words) :
    ∃ line', Consists line' command words' ∧ ('\n' ∉ line → '\n' ∉ line') := by
  have spelled : ∀ word ∈ words', ∃ text, text <:+: line ∧ Word.Spells text word :=
    fun word member => Word.exists_spells_of_ofLine h.words (List.mem_cons_of_mem _ (known member))
  obtain ⟨pieces, gaps, spells, chars⟩ := Word.exists_pieces spelled
  refine ⟨command.word.toList ++ Word.spaced pieces,
    ⟨Word.trim_command command spells, Word.ofLine_command command gaps spells⟩, ?_⟩
  intro plain feed
  rcases List.mem_append.1 feed with inside | inside
  · exact absurd (command.forall_word _ inside) (by decide)
  · rcases chars _ inside with blank | inside
    · exact absurd blank (by decide)
    · exact plain inside

/--
Named arguments commute, and all arguments are used. A line that looks for a target can have its words in
any order that keeps its positional arguments in theirs: it is read as the same, and no script changes with
it. A line of a command that does not take free text is in no script if it repeats a named argument, has one
that the command does not know, or has more positional ones than this takes, in whichever order.
-/
theorem arguments_commute (base : Policy) :
    (∀ command ∈ [Command.click, .hover, .branch], ∀ line words l, Consists line command words →
      (Line.read base line).content = .ok l → ∀ words', Word.Rearranged words words' →
        (∃ line', Consists line' command words' ∧ ('\n' ∉ line → '\n' ∉ line')) ∧
          ∀ line', Consists line' command words' →
            (Line.read base line').content = .ok l ∧ Exchangeable base line line') ∧
      ∀ command, command.takesText = false → ∀ words,
        (¬ (Word.keys words).Nodup ∨ (∃ key ∈ Word.keys words, key ∉ command.names) ∨
          command.places < (words.filterMap (Arguments.positional? false)).length) →
        ∀ words', words'.Perm words → ∀ line, Consists line command words' →
          (∃ fault, (Line.read base line).content = .error fault) ∧ Refused base line := by
  constructor
  · intro command member line words l consists read words' rearranged
    refine ⟨consists.exists_line rearranged.perm.subset, fun line' consists' => ?_⟩
    rw [Line.content_of_command consists.words] at read
    have read' := Line.ofWords_rearranged member rearranged read
    refine ⟨(Line.content_of_command consists'.words).trans read', ?_⟩
    refine exchangeable_of_read consists.trimmed consists.counts consists'.trimmed consists'.counts ?_
    rw [Line.read_of_command consists.words, Line.read_of_command consists'.words, read, read']
  · intro command plain words misused words' perm line consists
    cases read : (Line.read base line).content with
    | error fault => exact ⟨⟨fault, rfl⟩, refused_of_read consists.trimmed consists.counts read⟩
    | ok l =>
        rw [Line.content_of_command consists.words] at read
        have fits := (Line.fits_of_ofWords plain read).of_perm perm
        rcases misused with again | ⟨key, member, unknown⟩ | surplus
        · exact absurd fits.once again
        · exact absurd (fits.known key member) unknown
        · exact absurd fits.places (Nat.not_le_of_gt surplus)

theorem arguments_commute_times :
    let line := "if found \"ok\" timeout=5s interval=1s \x7b".toList
    let words := [.bare "found", .quoted "ok", .named "timeout" "5s", .named "interval" "1s", .opening]
    let line' := "if interval=1s found timeout=5s \"ok\" \x7b".toList
    let words' := [.named "interval" "1s", .bare "found", .named "timeout" "5s", .quoted "ok", .opening]
    let twice := "click timeout=5s ok timeout=5s".toList
    Consists line .branch words ∧ (Line.read .standard line).content.toOption.isSome ∧
      Word.Rearranged words words' ∧ Consists line' .branch words' ∧ Exchangeable .standard line line' ∧
      Consists twice .click [.named "timeout" "5s", .bare "ok", .named "timeout" "5s"] ∧
      Refused .standard twice := by
  intro line words line' words' twice
  have consists : Consists line .branch words :=
    ⟨by decide, Except.toOption_eq_some_iff.1 (by decide +kernel)⟩
  have consists' : Consists line' .branch words' :=
    ⟨by decide, Except.toOption_eq_some_iff.1 (by decide +kernel)⟩
  have consists'' : Consists twice .click [.named "timeout" "5s", .bare "ok", .named "timeout" "5s"] :=
    ⟨by decide, Except.toOption_eq_some_iff.1 (by decide +kernel)⟩
  have rearranged : Word.Rearranged words words' := ⟨by decide, by decide, by decide⟩
  have read : (Line.read .standard line).content.toOption.isSome := by decide +kernel
  obtain ⟨l, found⟩ := Option.isSome_iff_exists.1 read
  obtain ⟨commute, used⟩ := arguments_commute .standard
  obtain ⟨-, same⟩ := commute .branch (by decide) line words l consists
    (Except.toOption_eq_some_iff.1 found) words' rearranged
  obtain ⟨-, refused⟩ := used .click rfl _ (.inl (by decide)) _ (.refl _) twice consists''
  exact ⟨consists, read, rearranged, consists', (same line' consists').2, consists'', refused⟩

end Script

end ScreenScript
