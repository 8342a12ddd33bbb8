import Mathlib.Data.List.Chain
import ScreenScript.Proofs.Expr.Grammar
import ScreenScript.Proofs.Script.Durations
import ScreenScript.Proofs.Script.Placeholders
import ScreenScript.Proofs.Script.Searches

namespace ScreenScript

/-! ## Texts -/

namespace Phrase

/-- Whether a piece could have been cut out of a text. -/
def Segment.WellFormed : Segment → Prop
  | literal text => text ≠ "" ∧ ¬ ['$', '\x7b'] <:+: text.toList
  | reference name => isName name

/-- Whether a phrase is in the pieces that a text is cut into, with no two literals in a row. -/
structure WellFormed (p : Phrase) : Prop where
  pieces : ∀ segment ∈ p.segments, segment.WellFormed
  alternate : p.segments.IsChain fun first second => first.text? = none ∨ second.text? = none

variable {raw : String} {run cs : List Char} {segments : List Segment}

theorem wellFormed_literalSegment (plain : ¬ ['$', '\x7b'] <:+: cs) : WellFormed ⟨literalSegment cs⟩ := by
  unfold literalSegment
  split
  · exact ⟨nofun, .nil⟩
  · rename_i some
    refine ⟨fun segment member => ?_, .singleton _⟩
    cases List.mem_singleton.1 member
    exact ⟨by simpa using some, by simpa using plain⟩

theorem wellFormed_append_reference {name : String} (plain : ¬ ['$', '\x7b'] <:+: cs)
    (named : isName name) (rest : WellFormed ⟨segments⟩) :
    WellFormed ⟨literalSegment cs ++ .reference name :: segments⟩ := by
  obtain ⟨pieces, alternate⟩ := wellFormed_literalSegment plain
  constructor
  · rintro segment member
    rcases List.mem_append.1 member with before | here
    · exact pieces segment before
    rcases List.mem_cons.1 here with rfl | later
    · exact named
    · exact rest.pieces segment later
  · refine List.isChain_append.2 ⟨alternate, List.isChain_cons.2 ⟨fun _ _ => .inl rfl, rest.alternate⟩, ?_⟩
    rintro segment - _ ⟨⟩
    exact .inr rfl

theorem eq_of_open_suffix {c d : Char} (h : ['$', '\x7b'] <:+ cs ++ [c, d]) : c = '$' ∧ d = '\x7b' := by
  have reversed := List.reverse_prefix.2 h
  simp only [List.reverse_append, List.reverse_cons, List.reverse_nil, List.nil_append, List.cons_append,
    List.cons_prefix_cons, List.nil_prefix, and_true] at reversed
  exact ⟨reversed.2.symm, reversed.1.symm⟩

theorem wellFormed_of_readSegments (plain : ¬ ['$', '\x7b'] <:+: run.reverse ++ cs.take 1)
    (h : readSegments raw run cs = .ok segments) : WellFormed ⟨segments⟩ := by
  fun_induction readSegments raw run cs generalizing segments with
  | case1 run =>
      cases h
      exact wellFormed_literalSegment (by simpa using plain)
  | case2 => cases h
  | case3 run cs content rest found name isName =>
      rename_i ih
      obtain ⟨later, read, h⟩ := Except.bind_eq_ok_iff.1 h
      cases h
      have before : ¬ ['$', '\x7b'] <:+: run.reverse := fun inside =>
        plain (inside.trans (List.prefix_append _ _).isInfix)
      refine wellFormed_append_reference before isName (ih (fun inside => ?_) read)
      simpa using inside.length_le
  | case4 => cases h
  | case5 run c cs closed ih =>
      refine ih (fun inside => ?_) h
      cases cs with
      | nil => exact plain (by simpa using inside)
      | cons d cs =>
          have whole : (c :: run).reverse ++ (d :: cs).take 1 = run.reverse ++ [c] ++ [d] := by simp
          rw [whole, List.infix_concat_iff] at inside
          rcases inside with last | before
          · rw [List.append_assoc] at last
            obtain ⟨rfl, rfl⟩ := eq_of_open_suffix last
            exact closed cs rfl rfl
          · exact plain before

theorem wellFormed_of_parse {p : Phrase} (h : parse raw = .ok p) : p.WellFormed := by
  obtain ⟨segments, read, h⟩ := Except.bind_eq_ok_iff.1 h
  cases h
  refine wellFormed_of_readSegments (fun inside => ?_) read
  have short := inside.length_le
  rw [List.reverse_nil, List.nil_append, List.length_take] at short
  exact absurd (short.trans (Nat.min_le_left _ _)) (by decide)

theorem IsRead.wellFormed {p : Phrase} : p.IsRead → p.WellFormed :=
  fun ⟨_, read⟩ => wellFormed_of_parse read

end Phrase

namespace Expr

def phrases : Expr → List Phrase
  | number _ | reference _ => []
  | phrase p => [p]
  | negate operand => operand.phrases
  | binary _ left right => left.phrases ++ right.phrases

variable {e : Expr}

theorem Derives.isRead {level : Level} {ts : List Token} (h : Derives level ts e) :
    ∀ p ∈ e.phrases, p.IsRead := by
  induction h with
  | number | reference => exact nofun
  | phrase parsed =>
      intro p member
      cases List.mem_singleton.1 member
      exact ⟨_, parsed⟩
  | bracket _ ih | atom _ ih | negate _ ih | signed _ ih | product _ ih => exact ih
  | tight _ _ _ before last | loose _ _ _ before last =>
      exact fun p member => (List.mem_append.1 member).elim (before p) (last p)

theorem isRead_of_parse {source : List Char} (h : parse source = .ok e) : ∀ p ∈ e.phrases, p.IsRead := by
  obtain ⟨ts, -, read⟩ := Except.bind_eq_ok_iff.1 h
  exact (ofTokens_eq_ok_iff.1 read).isRead

theorem IsRead.isRead (h : e.IsRead) : ∀ p ∈ e.phrases, p.IsRead := by
  rcases h with ⟨source, parsed⟩ | ⟨p, read, rfl⟩
  · exact isRead_of_parse parsed
  · intro q member
    cases List.mem_singleton.1 member
    exact read

end Expr

/-! ## Instructions -/

def Action.phrases : Action → List Phrase
  | click t _ | hover t _ => [t.template]
  | clickAt x y => x.phrases ++ y.phrases
  | scroll _ amount => amount.phrases
  | wait _ => []
  | type p | press p | log p | launch p => [p]
  | assign _ value => value.phrases
  | abort reason => reason.toList

namespace Instruction

def phrases : Instruction → List Phrase
  | act _ action => action.phrases
  | loop _ count _ => count.phrases
  | branch _ target _ _ => [target.template]
  | guard .. => []

/-- What a run relies on in an instruction. -/
structure WellFormed (i : Instruction) : Prop where
  policy (t : Target) : i.target? = some t → 0 < t.policy.interval ∧ t.policy.interval < t.policy.timeout
  /-- A wait is at most 10^9 seconds. -/
  wait (place : Place) (nanoseconds : Nat) :
    i = .act place (.wait nanoseconds) → nanoseconds ≤ 10 ^ 9 * 10 ^ 9
  assigned (place : Place) (name : String) (value : Expr) :
    i = .act place (.assign name value) → isName name ∧ Command.isReserved name = false
  texts : ∀ p ∈ i.phrases, p.WellFormed

end Instruction

namespace Line

variable {base : Policy} {i : Instruction}

theorem Means.isRead_of_mem_act {action : Action} (h : Means base (.act action)) :
    ∀ p ∈ action.phrases, p.IsRead := by
  cases h with
  | assign _ _ parsed => exact Expr.isRead_of_parse parsed
  | command yields =>
      cases yields with
      | click _ read | hover _ read | type read | press read | log read | launch read =>
          exact fun p member => List.mem_singleton.1 member ▸ read
      | clickAt readX readY =>
          exact fun p member => (List.mem_append.1 member).elim (readX.isRead p) (readY.isRead p)
      | scroll | wait => exact nofun
      | scrollBy _ read => exact read.isRead
      | abort read => exact fun p member => read p (Option.mem_toList.1 member)

theorem Means.isRead_of_mem (h : Means base i.meaning) : ∀ p ∈ i.phrases, p.IsRead := by
  cases i with
  | act place action => exact h.isRead_of_mem_act
  | loop place count body =>
      cases h with
      | command yields =>
          cases yields with
          | loop read => exact read.isRead
  | branch place target found missed =>
      cases h with
      | command yields =>
          cases yields with
          | branch read => exact fun p member => List.mem_singleton.1 member ▸ read
  | guard => exact nofun

theorem Means.wait_le {n : Nat} (h : Means base (.act (.wait n))) : n ≤ 10 ^ 9 * 10 ^ 9 := by
  cases h with
  | command yields =>
      cases yields with
      | wait parsed => exact Duration.parse_le parsed

theorem Means.wellFormed (h : Means base i.meaning) : i.WellFormed where
  policy t _ := ⟨t.policy.interval_pos, t.policy.interval_lt_timeout⟩
  wait place n same := by
    subst same
    exact h.wait_le
  assigned place name value same := by
    subst same
    cases h with
    | assign named free => exact ⟨named, free⟩
    | command yields => cases yields
  texts p member := (h.isRead_of_mem p member).wellFormed

end Line

/-! ## Programs -/

theorem Script.mem_of_get?_declared {defaults : NameMap Value} {items : List Item} {name : String}
    {value : Value} (h : (declared defaults items).get? name = some value) :
    defaults.get? name = some value ∨ ∃ line, .declare line name value ∈ items := by
  induction items generalizing defaults with
  | nil => exact .inl h
  | cons item rest ih =>
      cases item with
      | statement t => exact (ih h).imp_right fun ⟨line, later⟩ => ⟨line, List.mem_cons_of_mem _ later⟩
      | declare line other value' =>
          rcases ih h with found | ⟨line', later⟩
          · rw [NameMap.get?_insert] at found
            split at found
            · rename_i same
              cases found
              exact .inr ⟨line, same ▸ List.mem_cons_self⟩
            · exact .inl found
          · exact .inr ⟨line', List.mem_cons_of_mem _ later⟩

namespace Program

variable {source : String} {base : Policy} {p : Program}

/-- What a run relies on in a program. -/
structure WellFormed (p : Program) : Prop where
  instructions (depth : Nat) (i : Instruction) : (depth, i) ∈ p.walk → i.WellFormed
  declared (name : String) (value : Value) :
    p.defaults.get? name = some value → isName name ∧ Command.isReserved name = false

theorem wellFormed_of_parse (h : parse source base = .ok p) : p.WellFormed where
  instructions depth i member := by
    obtain ⟨ls, meant, same⟩ := starts_of_parse h
    obtain ⟨around, place⟩ := exists_mem_places_of_mem_walk member
    have start : i.start ∈ Script.starts ls := same ▸ List.mem_map_of_mem place
    obtain ⟨cs, -, read⟩ :=
      Script.read_of_mem_meanings? meant ((Script.starts_sublist ls).mem start)
    exact (Line.means_of_read read).1.wellFormed
  declared name value found := by
    obtain ⟨items, writes, -, defaults, -⟩ := exists_writes_of_parse h
    rw [defaults] at found
    obtain ⟨line, member⟩ := (Script.mem_of_get?_declared found).resolve_left nofun
    have inside : (line, .declare name value) ∈ Script.itemLines items :=
      List.mem_flatMap.2 ⟨_, member, List.mem_singleton_self _⟩
    obtain ⟨cs, -, read⟩ := Script.read_of_mem_meanings? writes inside
    cases (Line.means_of_read read).1 with
    | declare named free => exact ⟨named, free⟩
    | command yields => cases yields

/--
A program that was read is well formed. If a line only gives a timeout of two nanoseconds or more, then the
script is not refused for the policy in this line, and the program has an instruction with this timeout and
the interval of `base`, or half the timeout if that is shorter. Nothing else in a line depends on it: the
line is read, or refused, like the one without the timeout.
-/
theorem wellFormed_and_timed (source : String) (base : Policy) :
    (∀ p, parse source base = .ok p → p.WellFormed) ∧
      (∀ before cs after timeout, Text.lines source.toList = before ++ cs :: after →
        Line.GivesTimeout (Text.trim cs) timeout → 2 ≤ timeout →
          (∀ fault, ofLines base (Text.lines source.toList) ≠
            .error (before.length + 1, .line (.arguments (.policy fault)))) ∧
          ∀ p, parse source base = .ok p →
            ∃ depth i t, (depth, i) ∈ p.walk ∧ i.line = before.length + 1 ∧ i.target? = some t ∧
              t.policy.timeout = timeout ∧ t.policy.interval = min base.interval (timeout / 2)) ∧
      ∀ plain timed timeout, Line.AddsTimeout plain timed timeout → 2 ≤ timeout →
        ∃ policy : Policy, policy.timeout = timeout ∧
          policy.interval = min base.interval (timeout / 2) ∧
          (Line.read base timed).content =
            (Line.read base plain).content.map (Line.withPolicy policy) := by
  refine ⟨fun p => wellFormed_of_parse, fun before cs after timeout lines gives long => ⟨?_, ?_⟩, ?_⟩
  · exact ne_policy_of_givesTimeout lines gives long
  · exact fun p => exists_target_of_givesTimeout lines gives long
  · exact fun plain timed timeout adds long => Line.content_of_addsTimeout base adds long

theorem wellFormed_and_timed_nested :
    let plain := "if found \"$\x7bname\x7d\" \x7b".toList
    let line := "  if found \"$\x7bname\x7d\" timeout=100ms \x7b"
    let source := "repeat 2 \x7b\n" ++ line ++ "\n    wait 2s\n  \x7d\n\x7d\nvar name = \"ok\""
    2 ≤ 100000000 ∧ Line.GivesTimeout (Text.trim line.toList) 100000000 ∧
      Line.AddsTimeout plain (Text.trim line.toList) 100000000 ∧
      Text.lines source.toList =
        ["repeat 2 \x7b".toList] ++ line.toList ::
          ["    wait 2s".toList, "  \x7d".toList, "\x7d".toList, "var name = \"ok\"".toList] ∧
      (∃ p, parse source = .ok p ∧ p.WellFormed ∧
        ∃ depth i t, (depth, i) ∈ p.walk ∧ i.line = 2 ∧ i.target? = some t ∧
          t.policy.timeout = 100000000 ∧ t.policy.interval = 50000000) ∧
      ∃ l policy, (Line.read Policy.standard plain).content = .ok l ∧
        policy.timeout = 100000000 ∧ policy.interval = 50000000 ∧
        (Line.read Policy.standard (Text.trim line.toList)).content = .ok (l.withPolicy policy) := by
  intro plain line source
  have words : Word.ofLine (Text.trim line.toList) =
      .ok [.bare "if", .bare "found", .quoted "$\x7bname\x7d", .named "timeout" "100ms", .opening] :=
    Except.toOption_eq_some_iff.1 (by decide +kernel)
  have words' : Word.ofLine plain =
      .ok [.bare "if", .bare "found", .quoted "$\x7bname\x7d", .opening] :=
    Except.toOption_eq_some_iff.1 (by decide +kernel)
  have time : Duration.parse "100ms" = .ok 100000000 := Except.toOption_eq_some_iff.1 (by decide +kernel)
  have gives : Line.GivesTimeout (Text.trim line.toList) 100000000 :=
    ⟨.branch, by decide, _, "100ms", words, by decide, by decide, time⟩
  have adds : Line.AddsTimeout plain (Text.trim line.toList) 100000000 :=
    ⟨.branch, by decide, [.bare "found", .quoted "$\x7bname\x7d"], [.opening], "100ms", words', words,
      by decide, by simp, time⟩
  have lines : Text.lines source.toList = ["repeat 2 \x7b".toList] ++ line.toList ::
      ["    wait 2s".toList, "  \x7d".toList, "\x7d".toList, "var name = \"ok\"".toList] := by
    decide +kernel
  have read : (parse source).toOption.isSome := by decide +kernel
  obtain ⟨p, read⟩ := Option.isSome_iff_exists.1 read
  have parsed : parse source = .ok p := Except.toOption_eq_some_iff.1 read
  have accepted : (Line.read Policy.standard plain).content.toOption.isSome := by decide +kernel
  obtain ⟨l, accepted⟩ := Option.isSome_iff_exists.1 accepted
  have untimed : (Line.read Policy.standard plain).content = .ok l :=
    Except.toOption_eq_some_iff.1 accepted
  obtain ⟨wellFormed, timed, same⟩ := wellFormed_and_timed source Policy.standard
  obtain ⟨-, target⟩ := timed _ _ _ _ lines gives (by decide)
  obtain ⟨policy, long, short, content⟩ := same _ _ _ adds (by decide)
  rw [untimed] at content
  exact ⟨by decide, gives, adds, lines, ⟨p, parsed, wellFormed p parsed, target p parsed⟩,
    l, policy, untimed, long, short, content⟩

end Program

end ScreenScript
