import ScreenScript.Proofs.Attempt
import ScreenScript.Proofs.Script.Phrase
import ScreenScript.Proofs.Script.Placeholders
import ScreenScript.Variables

/-!
# Filling in placeholders

A text is a phrase if each `${` in it starts a placeholder (`Phrase.Proper`). Such a phrase is written and
rendered as the text with the contents of its placeholders replaced (`Phrase.fill`), from left to right
and each once (`Phrase.parse_exact`).
-/

namespace ScreenScript

namespace Text

theorem splitFirst_sep {isSep : Char → Bool} {before : List Char} {sep : Char}
    (plain : ∀ c ∈ before, isSep c = false) (h : isSep sep) (after : List Char) :
    splitFirst isSep (before ++ sep :: after) = some (before, after) := by
  rw [splitFirst_append plain, splitFirst, if_pos h, Option.map_some]
  simp only [List.append_nil]

theorem filter_trimStart (cs : List Char) :
    (trimStart cs).filter (!isBlank ·) = cs.filter (!isBlank ·) := by
  induction cs with
  | nil => rfl
  | cons c cs ih =>
      cases h : isBlank c with
      | false => rw [trimStart_of_not_isBlank h]
      | true => rw [trimStart_of_isBlank h, ih, List.filter_cons_of_neg (by simp [h])]

theorem filter_trim (cs : List Char) :
    (trim cs).filter (!isBlank ·) = cs.filter (!isBlank ·) := by
  have last : (trimEnd (trimStart cs)).filter (!isBlank ·) = (trimStart cs).filter (!isBlank ·) := by
    have reversed := filter_trimStart (trimStart cs).reverse
    rw [List.filter_reverse] at reversed
    rw [trimEnd, List.filter_reverse, ← trimStart, reversed, List.reverse_reverse]
  rw [trim, last, filter_trimStart]

end Text

namespace Phrase

variable {raw : String} {run cs content rest : List Char} {segments : List Segment}

/-! ## Texts with placeholders -/

def hole (content : List Char) : List Char :=
  '$' :: '\x7b' :: content ++ ['\x7d']

/--
Whether characters other than braces follow each `${`, up to a `}`, and what is between them is a name
when it is trimmed.
-/
def Proper (cs : List Char) : Prop :=
  ∀ before after, cs = before ++ '$' :: '\x7b' :: after →
    ∃ content rest, after = content ++ '\x7d' :: rest ∧
      (∀ c ∈ content, c ≠ '\x7b' ∧ c ≠ '\x7d') ∧ isNameChars (Text.trim content)

theorem isBrace_eq_false_iff {c : Char} : isBrace c = false ↔ c ≠ '\x7b' ∧ c ≠ '\x7d' := by
  simp [isBrace]

theorem placeholder?_eq_some_iff :
    placeholder? cs = some (content, rest) ↔
      cs = content ++ '\x7d' :: rest ∧ ∀ c ∈ content, c ≠ '\x7b' ∧ c ≠ '\x7d' := by
  constructor
  · intro found
    refine ⟨(append_of_placeholder? found).symm, fun c member => isBrace_eq_false_iff.1 ?_⟩
    unfold placeholder? at found
    split at found
    · cases found
      simpa using List.mem_takeWhile_imp member
    · cases found
  · rintro ⟨rfl, plain⟩
    have inside (c : Char) (member : c ∈ content) : (!isBrace c) = true := by
      rw [isBrace_eq_false_iff.2 (plain c member)]
      rfl
    unfold placeholder?
    rw [List.dropWhile_append_of_pos inside, List.takeWhile_append_of_pos inside]
    simp [isBrace]

theorem proper_nil : Proper [] :=
  fun before _ h => by cases before <;> cases h

theorem proper_cons {c : Char} (plain : ∀ rest, c :: cs ≠ '$' :: '\x7b' :: rest) :
    Proper (c :: cs) ↔ Proper cs := by
  constructor
  · rintro proper before after rfl
    exact proper (c :: before) after rfl
  · intro proper before after whole
    cases before with
    | nil => exact absurd whole (plain after)
    | cons d before =>
        cases whole
        exact proper before after rfl

theorem proper_brace : Proper ('\x7b' :: cs) ↔ Proper cs :=
  proper_cons fun _ whole => absurd (List.cons.inj whole).1 (by decide)

theorem proper_append_cons (plain : ∀ c ∈ content, c ≠ '\x7b' ∧ c ≠ '\x7d') :
    Proper (content ++ '\x7d' :: rest) ↔ Proper rest := by
  induction content with
  | nil => exact proper_cons nofun
  | cons c content ih =>
      obtain ⟨-, later⟩ := List.forall_mem_cons.1 plain
      refine (proper_cons fun after whole => ?_).trans (ih later)
      obtain ⟨-, next⟩ := List.cons.inj whole
      cases content with
      | nil => cases next
      | cons d content => exact (later d List.mem_cons_self).1 (List.cons.inj next).1

theorem proper_open :
    Proper ('$' :: '\x7b' :: cs) ↔
      ∃ content rest, placeholder? cs = some (content, rest) ∧ isNameChars (Text.trim content) ∧
        Proper rest := by
  constructor
  · intro proper
    obtain ⟨content, rest, rfl, plain, named⟩ := proper [] cs rfl
    refine ⟨content, rest, placeholder?_eq_some_iff.2 ⟨rfl, plain⟩, named, ?_⟩
    rw [← proper_append_cons plain, ← proper_brace]
    exact fun before after whole => proper ('$' :: before) after (congrArg ('$' :: ·) whole)
  · rintro ⟨content, rest, found, named, proper⟩ before after whole
    obtain ⟨rfl, plain⟩ := placeholder?_eq_some_iff.1 found
    cases before with
    | nil =>
        cases whole
        exact ⟨content, rest, rfl, plain, named⟩
    | cons c before =>
        obtain ⟨-, later⟩ := List.cons.inj whole
        exact proper_brace.2 ((proper_append_cons plain).2 proper) before after later

theorem exists_readSegments_iff :
    (∃ segments, readSegments raw run cs = .ok segments) ↔ Proper cs := by
  fun_induction readSegments raw run cs with
  | case1 => exact ⟨fun _ => proper_nil, fun _ => ⟨_, rfl⟩⟩
  | case2 run cs none =>
      refine ⟨fun read => ?_, fun proper => ?_⟩
      · obtain ⟨segments, h⟩ := read
        cases h
      obtain ⟨content, rest, found, -⟩ := proper_open.1 proper
      rw [none] at found
      cases found
  | case3 run cs content rest found name isName ih =>
      have named : isNameChars (Text.trim content) := by simpa [ScreenScript.isName, name] using isName
      constructor
      · rintro ⟨segments, h⟩
        obtain ⟨later, read, -⟩ := Except.bind_eq_ok_iff.1 h
        exact proper_open.2 ⟨content, rest, found, named, ih.1 ⟨later, read⟩⟩
      · intro proper
        obtain ⟨content', rest', found', -, after⟩ := proper_open.1 proper
        rw [found] at found'
        cases found'
        obtain ⟨later, read⟩ := ih.2 after
        exact ⟨_, by rw [read]; rfl⟩
  | case4 run cs content rest found name notName =>
      refine ⟨fun read => ?_, fun proper => ?_⟩
      · obtain ⟨segments, h⟩ := read
        cases h
      obtain ⟨content', rest', found', named, -⟩ := proper_open.1 proper
      rw [found] at found'
      cases found'
      exact absurd (by simpa [isName, name] using named) notName
  | case5 run c cs plain ih =>
      rw [ih, proper_cons]
      rintro rest ⟨rfl, rfl⟩
      exact plain rest rfl rfl

/-! ## Replacing placeholders -/

section Fill

variable {m : Type → Type} [Monad m]

/-- The text with each `${...}`, up to the next `}`, replaced by what `f` makes of its content. -/
def fill (f : List Char → m (List Char)) : List Char → m (List Char)
  | [] => pure []
  | '$' :: '\x7b' :: cs =>
    match _h : Text.splitFirst (· = '\x7d') cs with
    | some (content, rest) => do return (← f content) ++ (← fill f rest)
    | none => pure ('$' :: '\x7b' :: cs)
  | c :: cs => do return c :: (← fill f cs)
  termination_by cs => cs.length
  decreasing_by
    · obtain ⟨sep, -, rfl, -⟩ := Text.append_of_splitFirst _h
      simp only [List.length_cons, List.length_append]
      omega
    · simp

theorem fill_cons {f : List Char → m (List Char)} {c : Char}
    (plain : ∀ rest, c :: cs ≠ '$' :: '\x7b' :: rest) :
    fill f (c :: cs) = do return c :: (← fill f cs) := by
  rw [fill]
  intro rest dollar
  rintro rfl
  exact plain rest (by rw [dollar])

theorem fill_hole {f : List Char → m (List Char)} (plain : '\x7d' ∉ content) :
    fill f ('$' :: '\x7b' :: (content ++ '\x7d' :: rest)) =
      do return (← f content) ++ (← fill f rest) := by
  have cut : Text.splitFirst (· = '\x7d') (content ++ '\x7d' :: rest) = some (content, rest) := by
    refine Text.splitFirst_sep (fun c member => ?_) (by decide) rest
    simpa using ne_of_mem_of_not_mem member plain
  rw [fill]
  split
  · rename_i found
    rw [cut] at found
    cases found
    rfl
  · rename_i none
    rw [cut] at none
    cases none

variable [LawfulMonad m] {lookup : String → m String} {f : List Char → m (List Char)}

theorem render_reference (name : String) (segments : List Segment) :
    render lookup ⟨.reference name :: segments⟩ =
      do return (← lookup name) ++ (← render lookup ⟨segments⟩) := by
  simp [render, List.mapM_cons, String.join_cons]

theorem render_literal (text : String) (segments : List Segment) :
    render lookup ⟨.literal text :: segments⟩ = (text ++ ·) <$> render lookup ⟨segments⟩ := by
  simp [render, List.mapM_cons, String.join_cons]

theorem render_literalSegment_append (cs : List Char) (segments : List Segment) :
    render lookup ⟨literalSegment cs ++ segments⟩ =
      (String.ofList cs ++ ·) <$> render lookup ⟨segments⟩ := by
  unfold literalSegment
  split
  · rename_i empty
    simp [List.isEmpty_iff.1 empty]
  · exact render_literal _ segments

/--
A phrase is rendered as the text with its placeholders replaced, if `f` replaces contents by the texts that
`lookup` gives for the names in them.
-/
theorem toList_render
    (same : ∀ content, isNameChars (Text.trim content) →
      f content = String.toList <$> lookup (String.ofList (Text.trim content)))
    (h : readSegments raw run cs = .ok segments) :
    String.toList <$> render lookup ⟨segments⟩ = (run.reverse ++ ·) <$> fill f cs := by
  fun_induction readSegments raw run cs generalizing segments with
  | case1 run =>
      cases h
      have whole : render lookup ⟨literalSegment run.reverse ++ []⟩ = _ :=
        render_literalSegment_append run.reverse []
      rw [List.append_nil] at whole
      rw [whole, fill]
      simp [render]
  | case2 => cases h
  | case3 run cs content rest found name isName =>
      rename_i ih
      obtain ⟨later, read, h⟩ := Except.bind_eq_ok_iff.1 h
      cases h
      have named : isNameChars (Text.trim content) := by simpa [ScreenScript.isName, name] using isName
      obtain ⟨rfl, plain⟩ := placeholder?_eq_some_iff.1 found
      have next : fill f rest = String.toList <$> render lookup ⟨later⟩ := by
        simpa using (ih read).symm
      rw [render_literalSegment_append, render_reference, fill_hole fun member => (plain _ member).2 rfl,
        same content named, next]
      simp [name]
  | case4 => cases h
  | case5 run c cs plain ih =>
      rw [ih h, fill_cons]
      · simp
      · rintro rest ⟨rfl, rfl⟩
        exact plain rest rfl rfl

theorem toList_render_of_parse {p : Phrase}
    (same : ∀ content, isNameChars (Text.trim content) →
      f content = String.toList <$> lookup (String.ofList (Text.trim content)))
    (h : parse raw = .ok p) : String.toList <$> p.render lookup = fill f raw.toList := by
  obtain ⟨segments, read, h⟩ := Except.bind_eq_ok_iff.1 h
  cases h
  rw [toList_render same read]
  exact id_map _

end Fill

theorem filter_name {name : List Char} (h : isNameChars name) :
    name.filter (!Text.isBlank ·) = name := by
  refine List.filter_eq_self.2 fun c member => ?_
  rw [not_isBlank_of_isNameChar (isNameChar_of_mem h member)]
  rfl

theorem filter_content (h : isNameChars (Text.trim content)) :
    content.filter (!Text.isBlank ·) = Text.trim content := by
  rw [← Text.filter_trim, filter_name h]

theorem toList_written_reference (name : String) :
    (Segment.written (.reference name)).toList = hole name.toList := by
  simp [hole, Segment.written]

theorem written_eq_render (p : Phrase) :
    p.written = p.render (m := Id) fun name => pure (Segment.written (.reference name)) := by
  obtain ⟨segments⟩ := p
  induction segments with
  | nil => rfl
  | cons segment rest ih =>
      have whole : written ⟨segment :: rest⟩ = segment.written ++ written ⟨rest⟩ := by
        simp [written, String.join_cons]
      rw [whole, ih]
      cases segment with
      | literal text =>
          rw [render_literal]
          rfl
      | reference name =>
          rw [render_reference]
          rfl

theorem toList_written_of_parse {p : Phrase} (h : parse raw = .ok p) :
    p.written.toList =
      fill (m := Id) (fun content => hole (content.filter (!Text.isBlank ·))) raw.toList := by
  rw [written_eq_render]
  refine toList_render_of_parse (m := Id) (fun content named => ?_) h
  rw [filter_content named, map_pure, toList_written_reference, String.toList_ofList]
  rfl

section Failures

variable {σ : Type} {f : List Char → Attempt σ (List Char)} {s t : σ} {failure : Failure}

theorem exists_hole_of_fill (h : (fill f cs).on s = (.error failure, t)) :
    ∃ before content after, cs = before ++ hole content ++ after ∧
      ∃ text u, (fill f before).on s = (.ok text, u) ∧ (f content).on u = (.error failure, t) := by
  fun_induction fill f cs generalizing s with
  | case1 => cases h
  | case2 cs content rest found ih =>
      obtain ⟨sep, closing, rfl, plain⟩ := Text.append_of_splitFirst found
      obtain rfl : sep = '\x7d' := by simpa using closing
      have inside : '\x7d' ∉ content := fun member => by simpa using plain _ member
      obtain ⟨_, ⟨⟩, failed⟩ | ⟨first, u, made, h⟩ := Attempt.cases_of_on_bind h
      · exact ⟨[], content, rest, by simp [hole], [], s, by rw [fill]; rfl, failed⟩
      obtain ⟨_, ⟨⟩, failed⟩ | ⟨second, u', -, h⟩ := Attempt.cases_of_on_bind h
      · obtain ⟨before, content', after, rfl, text, u', filled, failed⟩ := ih failed
        refine ⟨hole content ++ before, content', after, by simp [hole], first ++ text, u', ?_, failed⟩
        have whole : hole content ++ before = '$' :: '\x7b' :: (content ++ '\x7d' :: before) := by
          simp [hole]
        rw [whole, fill_hole inside]
        exact Attempt.on_bind_eq_ok.2 ⟨first, u, made,
          Attempt.on_bind_eq_ok.2 ⟨text, u', filled, rfl⟩⟩
      · cases h
  | case3 cs none => cases h
  | case4 c cs plain ih =>
      obtain ⟨_, ⟨⟩, failed⟩ | ⟨second, u', -, h⟩ := Attempt.cases_of_on_bind h
      · obtain ⟨before, content, after, rfl, text, u, filled, failed⟩ := ih failed
        refine ⟨c :: before, content, after, rfl, c :: text, u, ?_, failed⟩
        rw [fill_cons]
        · exact Attempt.on_bind_eq_ok.2 ⟨text, u, filled, rfl⟩
        · rintro rest ⟨rfl, rfl⟩
          exact plain _ rfl rfl
      · cases h

end Failures

/-- The text for the name in a placeholder: its value as it is displayed. -/
def display {σ : Type} (lookup : String → Attempt σ Value) (name : String) : Attempt σ String := do
  return (← lookup name).display

def shown {σ : Type} (lookup : String → Attempt σ Value) (content : List Char) :
    Attempt σ (List Char) :=
  String.toList <$> display lookup (String.ofList (Text.trim content))

theorem on_lookup_of_shown {σ : Type} {lookup : String → Attempt σ Value} {s t : σ}
    {failure : Failure} (h : (shown lookup content).on s = (.error failure, t)) :
    (lookup (String.ofList (Text.trim content))).on s = (.error failure, t) := by
  rw [shown, Attempt.on_map] at h
  rcases shows : (display lookup (String.ofList (Text.trim content))).on s with ⟨result, u⟩
  rw [shows] at h
  cases result with
  | ok text => cases h
  | error other =>
      cases h
      obtain ⟨_, ⟨⟩, failed⟩ | ⟨value, u, -, h⟩ := Attempt.cases_of_on_bind shows
      · exact failed
      · cases h

/--
A text is a phrase if and only if all that starts as a placeholder is one. The phrase is written as the
text without the blanks in its placeholders and read again from that. It is rendered as the text with the
values in place of the placeholders, or fails as the first lookup that fails.
-/
theorem parse_exact (raw : String) :
    ((∃ p, parse raw = .ok p) ↔ Proper raw.toList) ∧
      ∀ p, parse raw = .ok p →
        p.written.toList =
            fill (m := Id) (fun content => hole (content.filter (!Text.isBlank ·))) raw.toList ∧
          parse p.written = .ok p ∧
          ∀ (σ : Type) (lookup : String → Attempt σ Value),
            String.toList <$> p.render (display lookup) = fill (shown lookup) raw.toList ∧
              ∀ s failure t, (p.render (display lookup)).on s = (.error failure, t) →
                ∃ before content after, raw.toList = before ++ hole content ++ after ∧
                  ∃ text u, (fill (shown lookup) before).on s = (.ok text, u) ∧
                    (lookup (String.ofList (Text.trim content))).on u = (.error failure, t) := by
  constructor
  · have reads : (∃ segments, readSegments raw [] raw.toList = .ok segments) ↔ Proper raw.toList :=
      exists_readSegments_iff
    rw [← reads]
    constructor
    · rintro ⟨p, h⟩
      obtain ⟨segments, read, -⟩ := Except.bind_eq_ok_iff.1 h
      exact ⟨segments, read⟩
    · rintro ⟨segments, read⟩
      exact ⟨⟨segments⟩, by rw [parse, read]; rfl⟩
  · intro p h
    refine ⟨toList_written_of_parse h, parse_written h, fun σ lookup => ?_⟩
    have whole : String.toList <$> p.render (display lookup) = fill (shown lookup) raw.toList :=
      toList_render_of_parse (fun _ _ => rfl) h
    refine ⟨whole, fun s failure t failed => ?_⟩
    have filled : (fill (shown lookup) raw.toList).on s = (.error failure, t) := by
      rw [← whole, Attempt.on_map, failed]
      rfl
    obtain ⟨before, content, after, same, text, u, made, missing⟩ := exists_hole_of_fill filled
    exact ⟨before, content, after, same, text, u, made, on_lookup_of_shown missing⟩

theorem parse_exact_braces :
    let raw := "$$\x7b a \x7d\x7b$\x7bb\x7d"
    let p : Phrase := ⟨[.literal "$", .reference "a", .literal "\x7b", .reference "b"]⟩
    let bindings := ({} : Variables).preset "a" (.text "$\x7bb\x7d")
    let lookup : String → Attempt Unit Value := bindings.get none
    parse raw = .ok p ∧ Proper raw.toList ∧ p.written = "$$\x7ba\x7d\x7b$\x7bb\x7d" ∧
      parse p.written = .ok p ∧
      (p.render (display lookup)).on () = (.error (.undefinedVariable "b"), ()) ∧
      ∃ before content after, raw.toList = before ++ hole content ++ after ∧
        ∃ text u, (fill (shown lookup) before).on () = (.ok text, u) ∧
          (lookup (String.ofList (Text.trim content))).on u = (.error (.undefinedVariable "b"), ()) := by
  intro raw p bindings lookup
  have read : parse raw = .ok p := Except.toOption_eq_some_iff.1 (by decide +kernel)
  have failed : (p.render (display lookup)).on () = (.error (.undefinedVariable "b"), ()) := rfl
  obtain ⟨proper, whole⟩ := parse_exact raw
  obtain ⟨written, again, renders⟩ := whole p read
  exact ⟨read, proper.1 ⟨p, read⟩, by decide, again, failed, (renders Unit lookup).2 () _ _ failed⟩

end Phrase

end ScreenScript
