import ScreenScript.Json.Printer
import ScreenScript.Json.Token
import ScreenScript.Proofs.Number.Digits

namespace ScreenScript.Json

def Delimited (rest : List Char) : Prop :=
  ∀ c, rest.head? = some c → c.isAlphanum = false ∧ c ≠ '.'

theorem delimited_nil : Delimited [] := by
  intro c h
  cases h

theorem delimited_cons {c : Char} (plain : c.isAlphanum = false) (point : c ≠ '.')
    (rest : List Char) : Delimited (c :: rest) := by
  intro other h
  obtain rfl := Option.some.inj h
  exact ⟨plain, point⟩

structure NumberText where
  whole : List Char
  places : Option (List Char)
  exponent : Option (Bool × List Char)

namespace NumberText

def Digits (ds : List Char) : Prop :=
  ds ≠ [] ∧ ∀ c ∈ ds, c.isDigit

def placesText : Option (List Char) → List Char
  | none => []
  | some ds => '.' :: ds

def exponentText : Option (Bool × List Char) → List Char
  | none => []
  | some (down, ds) => 'e' :: (if down then '-' else '+') :: ds

def write (t : NumberText) : List Char :=
  t.whole ++ (placesText t.places ++ exponentText t.exponent)

structure Valid (t : NumberText) : Prop where
  whole : Digits t.whole
  places : ∀ ds, t.places = some ds → Digits ds
  exponent : ∀ down ds, t.exponent = some (down, ds) → Digits ds
  leading : t.whole.head? = some '0' → t.whole.length = 1

theorem stopsAt_digit {rest : List Char} (h : Delimited rest) : Text.StopsAt Char.isDigit rest := by
  intro c first
  have plain := (h c first).1
  simp only [Char.isAlphanum, Bool.or_eq_false_iff] at plain
  exact plain.2

theorem digits?_append {ds rest : List Char} (digits : Digits ds)
    (stop : Text.StopsAt Char.isDigit rest) : digits? (ds ++ rest) = some (ds, rest) := by
  have found : ds.isEmpty = false := List.isEmpty_eq_false_iff.2 digits.1
  simp only [digits?, Text.takeWhile_append digits.2 stop, Text.dropWhile_append digits.2 stop,
    found, Bool.false_eq_true, if_false]

theorem exponent?_append {e : Option (Bool × List Char)}
    (digits : ∀ down ds, e = some (down, ds) → Digits ds) {rest : List Char}
    (after : Delimited rest) : exponent? (exponentText e ++ rest) = some (e, rest) := by
  cases e with
  | none =>
      cases rest with
      | nil => rfl
      | cons c rest =>
          have plain := (after c rfl).1
          have mark : ¬ (c = 'e' ∨ c = 'E') := by
            rintro (rfl | rfl) <;> cases plain
          simp only [exponentText, List.nil_append, exponent?, if_neg mark]
  | some written =>
      obtain ⟨down, ds⟩ := written
      have read := digits?_append (digits down ds rfl) (stopsAt_digit after)
      cases down <;>
        simp only [exponentText, List.cons_append, exponent?, true_or, if_true, if_false, sign,
          Bool.false_eq_true, read, Option.map_some]

theorem head?_exponentText_append (e : Option (Bool × List Char)) {rest : List Char}
    (after : Delimited rest) {c : Char} (h : (exponentText e ++ rest).head? = some c) :
    c.isDigit = false ∧ c ≠ '.' := by
  cases e with
  | none => exact ⟨stopsAt_digit after c h, (after c h).2⟩
  | some written =>
      obtain rfl := Option.some.inj h
      exact ⟨rfl, by decide⟩

theorem places?_append {places : Option (List Char)} (digits : ∀ ds, places = some ds → Digits ds)
    {rest : List Char} (after : ∀ c, rest.head? = some c → c.isDigit = false ∧ c ≠ '.') :
    places? (placesText places ++ rest) = some (places, rest) := by
  cases places with
  | none =>
      simp only [placesText, List.nil_append]
      unfold places?
      split
      · exact absurd rfl (after '.' rfl).2
      · rfl
  | some ds =>
      have read := digits?_append (digits ds rfl) (fun c h => (after c h).1)
      simp only [placesText, List.cons_append, places?, read, Option.map_some]

theorem readMagnitude?_write {t : NumberText} (valid : t.Valid) (negative : Bool)
    {rest : List Char} (after : Delimited rest) :
    readMagnitude? negative (t.write ++ rest)
      = some (ofParts negative t.whole t.places t.exponent, rest) := by
  have afterPlaces : ∀ c, (exponentText t.exponent ++ rest).head? = some c →
      c.isDigit = false ∧ c ≠ '.' := fun c h => head?_exponentText_append t.exponent after h
  have afterWhole : Text.StopsAt Char.isDigit
      (placesText t.places ++ (exponentText t.exponent ++ rest)) := by
    cases t.places with
    | none => exact fun c h => (afterPlaces c h).1
    | some ds => exact Text.stopsAt_cons rfl _
  have shortEnough : ¬ (t.whole.head? = some '0' ∧ 1 < t.whole.length) := by
    rintro ⟨zero, long⟩
    exact Nat.ne_of_gt long (valid.leading zero)
  rw [write, List.append_assoc, List.append_assoc, readMagnitude?,
    digits?_append valid.whole afterWhole]
  simp only [Option.bind_eq_bind, Option.bind_some, if_neg shortEnough,
    places?_append valid.places afterPlaces, exponent?_append valid.exponent after, pure]

theorem exists_write_eq_cons {t : NumberText} (valid : t.Valid) :
    ∃ c cs, t.write = c :: cs ∧ c.isDigit := by
  obtain ⟨c, cs, eq⟩ := List.exists_cons_of_ne_nil valid.whole.1
  refine ⟨c, cs ++ (placesText t.places ++ exponentText t.exponent), ?_,
    valid.whole.2 c (eq ▸ List.mem_cons_self)⟩
  rw [write, eq, List.cons_append]

def value (negative : Bool) (t : NumberText) : Json :=
  ofParts negative t.whole t.places t.exponent

theorem readNumber?_write (negative : Bool) {t : NumberText} (valid : t.Valid) {rest : List Char}
    (after : Delimited rest) :
    readNumber? (Number.sign negative ++ t.write ++ rest) = some (t.value negative, rest) := by
  have read := readMagnitude?_write valid negative after
  cases negative with
  | true => exact read
  | false =>
      obtain ⟨c, cs, eq, digit⟩ := exists_write_eq_cons valid
      have plain : c ≠ '-' := by
        rintro rfl
        cases digit
      simp only [Number.sign, Bool.false_eq_true, if_false, List.nil_append]
      rw [eq, List.cons_append] at read ⊢
      rw [readNumber?, read]
      · rfl
      · intro cs minus
        exact plain (List.cons.inj minus).1

theorem mark?_digit {c : Char} (h : c.isDigit) :
    mark? c = none ∧ c ≠ '"' ∧ c.isLower = false ∧ isSpace c = false := by
  refine Number.forall_isDigit (P := fun c => mark? c = none ∧ c ≠ '"' ∧ c.isLower = false ∧
    isSpace c = false) (fun k small => ?_) h
  have table : ∀ k < 10, (mark? (Char.ofNat (48 + k))).isNone ∧ Char.ofNat (48 + k) ≠ '"' ∧
      (Char.ofNat (48 + k)).isLower = false ∧ isSpace (Char.ofNat (48 + k)) = false := by decide
  obtain ⟨mark, others⟩ := table k small
  exact ⟨Option.isNone_iff_eq_none.1 mark, others⟩

theorem readToken?_write (negative : Bool) {t : NumberText} (valid : t.Valid) :
    ∃ c cs, Number.sign negative ++ t.write = c :: cs ∧ isSpace c = false ∧
      ∀ rest, Delimited rest → readToken? c (cs ++ rest) = some (.atom (t.value negative), rest) := by
  have read {rest : List Char} (after : Delimited rest) := readNumber?_write negative valid after
  cases negative with
  | true =>
      refine ⟨'-', t.write, rfl, rfl, ?_⟩
      intro rest after
      have number : readToken? '-' (t.write ++ rest) =
          (readNumber? ('-' :: (t.write ++ rest))).map fun found => (.atom found.1, found.2) := rfl
      have found : readNumber? ('-' :: (t.write ++ rest)) = some (t.value true, rest) := read after
      rw [number, found]
      rfl
  | false =>
      obtain ⟨c, cs, eq, digit⟩ := exists_write_eq_cons valid
      obtain ⟨mark, quote, lower, space⟩ := mark?_digit digit
      refine ⟨c, cs, eq, space, ?_⟩
      intro rest after
      have number := read after
      simp only [Number.sign, Bool.false_eq_true, if_false, List.nil_append] at number
      rw [eq, List.cons_append] at number
      simp only [readToken?, mark, if_neg quote, lower, Bool.false_eq_true, if_false, number,
        Option.map_some]

theorem digits_digits (n : Nat) : Digits (Number.digits n) :=
  ⟨Number.digits_ne_nil n, fun _ h => Number.isDigit_of_mem_digits h⟩

theorem digits_zero : Digits ['0'] :=
  ⟨List.cons_ne_nil _ _, List.all_eq_true.1 rfl⟩

theorem digits_append_zeros {ds : List Char} (digits : Digits ds) (k : Nat) :
    Digits (ds ++ List.replicate k '0') := by
  refine ⟨List.append_ne_nil_of_left_ne_nil digits.1 _, ?_⟩
  intro c h
  rcases List.mem_append.1 h with h | h
  · exact digits.2 c h
  · obtain rfl := List.eq_of_mem_replicate h
    rfl

theorem digits_zeros_append {ds : List Char} (digits : Digits ds) (k : Nat) :
    Digits (List.replicate k '0' ++ ds) := by
  refine ⟨List.append_ne_nil_of_right_ne_nil _ digits.1, ?_⟩
  intro c h
  rcases List.mem_append.1 h with h | h
  · obtain rfl := List.eq_of_mem_replicate h
    rfl
  · exact digits.2 c h

theorem valid_fixed {whole places : List Char} (wholeDigits : Digits whole)
    (placesDigits : Digits places) (leading : whole.head? = some '0' → whole.length = 1) :
    Valid ⟨whole, some places, none⟩ := by
  refine ⟨wholeDigits, ?_, ?_, leading⟩
  · rintro ds ⟨⟩
    exact placesDigits
  · rintro down ds ⟨⟩

theorem exists_write_whole {d : Decimal} (proper : 0 < d.digits ∨ d = ⟨0, 0⟩)
    (whole : 0 ≤ d.exponent) :
    ∃ t : NumberText, t.Valid ∧ t.write = Number.positional d ++ ['.', '0'] := by
  refine ⟨⟨Number.digits d.digits ++ List.replicate d.exponent.toNat '0', some ['0'], none⟩,
    valid_fixed (digits_append_zeros (digits_digits _) _) digits_zero ?_, ?_⟩
  · intro zero
    rcases proper with positive | rfl
    · obtain ⟨c, cs, eq, ne⟩ := Number.exists_digits_eq_cons positive
      rw [eq] at zero
      exact absurd (Option.some.inj zero) ne
    · rfl
  · simp only [write, placesText, exponentText, Number.positional, if_pos whole, List.append_nil]

theorem exists_write_places {d : Decimal} (positive : 0 < d.digits) (places : ¬ 0 ≤ d.exponent) :
    ∃ t : NumberText, t.Valid ∧ t.write = Number.positional d := by
  have digits := digits_digits d.digits
  simp only [Number.positional, if_neg places]
  obtain ⟨c, cs, eq, ne⟩ := Number.exists_digits_eq_cons positive
  rw [eq] at digits ⊢
  split
  · rename_i short
    obtain ⟨k, count⟩ : ∃ k, (c :: cs).length - (-d.exponent).toNat = k + 1 :=
      Nat.exists_eq_succ_of_ne_zero (by omega)
    have inside : k < cs.length := by
      rw [List.length_cons] at count
      omega
    rw [count, List.take_succ_cons, List.drop_succ_cons]
    refine ⟨⟨c :: cs.take k, some (cs.drop k), none⟩,
      valid_fixed ⟨List.cons_ne_nil _ _, ?_⟩ ⟨?_, ?_⟩ (fun zero => absurd (Option.some.inj zero) ne),
      ?_⟩
    · exact fun c h => digits.2 c (List.mem_of_mem_take (List.take_succ_cons ▸ h))
    · exact fun none => absurd (List.drop_eq_nil_iff.1 none) (Nat.not_le_of_lt inside)
    · exact fun c h => digits.2 c (List.mem_cons_of_mem _ (List.mem_of_mem_drop h))
    · simp only [write, placesText, exponentText, List.append_nil]
  · refine ⟨⟨['0'], some (List.replicate ((-d.exponent).toNat - (c :: cs).length) '0' ++ c :: cs),
      none⟩, valid_fixed digits_zero (digits_zeros_append digits _) (fun _ => rfl), ?_⟩
    simp only [write, placesText, exponentText, List.append_nil, List.cons_append, List.nil_append]

def mantissa : List Char → List Char
  | [] => []
  | [c] => [c]
  | c :: rest => c :: '.' :: rest

theorem exists_write_scaled (n : Nat) (down : Bool) (e : Nat) :
    ∃ t : NumberText, t.Valid ∧ t.write =
      mantissa (Number.digits n) ++ 'e' :: ((if down then ['-'] else ['+']) ++ Number.digits e) := by
  have digits := digits_digits n
  cases eq : Number.digits n with
  | nil => exact absurd eq digits.1
  | cons c rest =>
      rw [eq] at digits
      have first : Digits [c] := by
        refine ⟨List.cons_ne_nil _ _, ?_⟩
        rintro other h
        obtain rfl := List.mem_singleton.1 h
        exact digits.2 _ List.mem_cons_self
      cases rest with
      | nil =>
          refine ⟨⟨[c], none, some (down, Number.digits e)⟩, ⟨first, ?_, ?_, fun _ => rfl⟩, ?_⟩
          · rintro ds ⟨⟩
          · rintro _ ds ⟨⟩
            exact digits_digits e
          · cases down <;> rfl
      | cons next rest =>
          refine ⟨⟨[c], some (next :: rest), some (down, Number.digits e)⟩,
            ⟨first, ?_, ?_, fun _ => rfl⟩, ?_⟩
          · rintro ds ⟨⟩
            exact ⟨List.cons_ne_nil _ _, fun c h => digits.2 c (List.mem_cons_of_mem _ h)⟩
          · rintro _ ds ⟨⟩
            exact digits_digits e
          · cases down <;> simp [write, placesText, exponentText, mantissa]

theorem exists_write_decimal {d : Decimal} (proper : 0 < d.digits ∨ d = ⟨0, 0⟩) :
    ∃ t : NumberText, t.Valid ∧ t.write = Number.dataLayout.write d := by
  unfold Number.ScientificLayout.write
  dsimp only
  split
  · by_cases whole : 0 ≤ d.exponent
    · rw [if_pos whole]
      exact exists_write_whole proper whole
    · have positive : 0 < d.digits := by
        rcases proper with positive | rfl
        · exact positive
        · exact absurd (Int.le_refl 0) whole
      rw [if_neg whole, List.append_nil]
      exact exists_write_places positive whole
  · obtain ⟨t, valid, eq⟩ := exists_write_scaled d.digits
      (decide (d.exponent + (Number.digits d.digits).length - 1 < 0))
      (d.exponent + (Number.digits d.digits).length - 1).natAbs
    refine ⟨t, valid, ?_⟩
    rw [eq]
    simp only [decide_eq_true_eq, Number.dataLayout, if_true, List.append_assoc, List.cons_append]
    rfl

end NumberText

theorem exists_writeFloat {x : Float} (finite : Number.isFinite x) :
    ∃ negative, ∃ t : NumberText, t.Valid ∧
      (writeFloat x).toList = Number.sign negative ++ t.write := by
  unfold Number.isFinite at finite
  unfold writeFloat Number.scientific?
  split at finite
  · rename_i negative significand exponent eq
    rw [eq]
    cases significand with
    | zero =>
        refine ⟨negative, ⟨['0'], some ['0'], none⟩, NumberText.valid_fixed NumberText.digits_zero
          NumberText.digits_zero (fun _ => rfl), ?_⟩
        simp [NumberText.write, NumberText.placesText, NumberText.exponentText]
    | succ n =>
        obtain ⟨t, valid, eq⟩ := NumberText.exists_write_decimal
          (Decimal.shortest_digits_pos Number.dataLayout.tie (Nat.succ_pos n) exponent)
        refine ⟨negative, t, valid, ?_⟩
        simp only [Option.getD_some, String.toList_ofList, eq]
  · cases finite

theorem writeFloat_of_not_finite {x : Float} (h : Number.isFinite x = false) :
    writeFloat x = "null" := by
  unfold Number.isFinite at h
  unfold writeFloat Number.scientific?
  split at h
  · cases h
  · rename_i infinite
    split
    · rename_i eq
      exact absurd eq (infinite _ _ _)
    · rename_i eq
      exact absurd eq (infinite _ _ _)
    · rfl

theorem exists_writeInteger (n : Int) :
    ∃ negative, ∃ t : NumberText, t.Valid ∧
      (toString n).toList = Number.sign negative ++ t.write := by
  have valid (k : Nat) : NumberText.Valid ⟨Number.digits k, none, none⟩ := by
    refine ⟨NumberText.digits_digits k, ?_, ?_, ?_⟩
    · rintro ds ⟨⟩
    · rintro down ds ⟨⟩
    · intro zero
      rcases Nat.eq_zero_or_pos k with rfl | positive
      · rfl
      · obtain ⟨c, cs, eq, ne⟩ := Number.exists_digits_eq_cons positive
        rw [eq] at zero
        exact absurd (Option.some.inj zero) ne
  cases n with
  | ofNat k =>
      refine ⟨false, _, valid k, ?_⟩
      have text : toString (Int.ofNat k) = k.repr := rfl
      rw [text, Nat.toList_repr]
      simp [Number.sign, NumberText.write, NumberText.placesText, NumberText.exponentText,
        Number.digits]
  | negSucc k =>
      refine ⟨true, _, valid (k + 1), ?_⟩
      have text : toString (Int.negSucc k) = "-" ++ (k + 1).repr := rfl
      rw [text, String.toList_append, Nat.toList_repr]
      simp [Number.sign, NumberText.write, NumberText.placesText, NumberText.exponentText,
        Number.digits]

def numberOf (text : String) : Json :=
  ((readNumber? text.toList).map Prod.fst).getD .null

theorem numberOf_eq {text : String} {negative : Bool} {t : NumberText} (valid : t.Valid)
    (h : text.toList = Number.sign negative ++ t.write) : numberOf text = t.value negative := by
  have read := t.readNumber?_write negative valid delimited_nil
  rw [List.append_nil] at read
  rw [numberOf, h, read]
  rfl

def reread (x : Float) : Json :=
  numberOf (writeFloat x)

end ScreenScript.Json
