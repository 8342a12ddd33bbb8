import ScreenScript.Proofs.Number.Digits
import ScreenScript.Proofs.Time.Calendar
import ScreenScript.Time.Timestamp

namespace ScreenScript.Timestamp

/-- A moment of a day and a year that are there; only the last second of a minute can be longer. -/
structure Proper (t : Timestamp) : Prop where
  year : isYear (Date.ofDays t.day).year
  second : t.second < dayLength
  nanosecond : t.nanosecond < secondLength ∨
    t.second % 60 = 59 ∧ t.nanosecond < 2 * secondLength

/-! ## Numbers in a text -/

theorem toList_padded (width n : Nat) :
    (padded width n).toList =
      List.replicate (width - (Number.digits n).length) '0' ++ Number.digits n := by
  rw [padded, String.toList_ofList]
  rfl

theorem isDigit_of_mem_padded {width n : Nat} {c : Char} (h : c ∈ (padded width n).toList) :
    c.isDigit := by
  rw [toList_padded] at h
  rcases List.mem_append.1 h with h | h
  · obtain rfl := List.eq_of_mem_replicate h
    rfl
  · exact Number.isDigit_of_mem_digits h

theorem ofDigits_padded (width n : Nat) : Number.ofDigits 0 (padded width n).toList = n := by
  rw [toList_padded, Number.ofDigits_replicate_append, Number.ofDigits_digits]

theorem length_padded {width n : Nat} (positive : 0 < width) (small : n < 10 ^ width) :
    (padded width n).toList.length = width := by
  have short := (Nat.length_toDigits_le_iff (by decide) positive).2 small
  rw [toList_padded, List.length_append, List.length_replicate]
  exact Nat.sub_add_cancel short

theorem padded_ne_nil (width n : Nat) : (padded width n).toList ≠ [] := by
  rw [toList_padded]
  exact List.append_ne_nil_of_right_ne_nil _ (Number.digits_ne_nil n)

theorem isBlank_digit {c : Char} (h : c.isDigit) : Text.isBlank c = false :=
  Number.forall_isDigit (P := fun c => Text.isBlank c = false) (by decide) h

theorem trimStart_cons {c : Char} (h : Text.isBlank c = false) (cs : List Char) :
    Text.trimStart (c :: cs) = c :: cs := by
  rw [Text.trimStart, List.dropWhile_cons_of_neg (by simp [h])]

theorem trimStart_padded (width n : Nat) (rest : List Char) :
    Text.trimStart ((padded width n).toList ++ rest) = (padded width n).toList ++ rest := by
  obtain ⟨c, cs, eq⟩ := List.exists_cons_of_ne_nil (padded_ne_nil width n)
  have digit : c.isDigit := isDigit_of_mem_padded (eq ▸ List.mem_cons_self)
  rw [eq, List.cons_append, trimStart_cons (isBlank_digit digit)]

theorem digits?_padded {most width n : Nat} {rest : List Char}
    (fits : (padded width n).toList.length ≤ most)
    (stop : (padded width n).toList.length = most ∨ Text.StopsAt Char.isDigit rest) :
    digits? most ((padded width n).toList ++ rest) = some (n, rest) := by
  have digits : ∀ c ∈ (padded width n).toList, c.isDigit := fun _ => isDigit_of_mem_padded
  have taken : (((padded width n).toList ++ rest).take most).takeWhile Char.isDigit
      = (padded width n).toList := by
    rw [List.take_append, List.take_of_length_le fits]
    apply Text.takeWhile_append digits
    rcases stop with exact | stop
    · rw [exact, Nat.sub_self]
      rintro c ⟨⟩
    · intro c first
      rw [List.head?_take] at first
      split at first
      · cases first
      · exact stop c first
  have found : (padded width n).toList.isEmpty = false :=
    List.isEmpty_eq_false_iff.2 (padded_ne_nil width n)
  simp only [digits?, taken, found, Bool.false_eq_true, if_false, ofDigits_padded,
    List.drop_left]

theorem number?_padded {most width n : Nat} {rest : List Char}
    (fits : (padded width n).toList.length ≤ most)
    (stop : (padded width n).toList.length = most ∨ Text.StopsAt Char.isDigit rest) :
    number? most ((padded width n).toList ++ rest) = some (n, rest) := by
  rw [number?, trimStart_padded, digits?_padded fits stop]

theorem number?_pair {n : Nat} (small : n < 100) (rest : List Char) :
    number? 2 ((padded 2 n).toList ++ rest) = some (n, rest) := by
  have length : (padded 2 n).toList.length = 2 := length_padded (by decide) small
  exact number?_padded (Nat.le_of_eq length) (.inl length)

theorem mark?_cons {c : Char} (h : Text.isBlank c = false) (rest : List Char) :
    mark? c (c :: rest) = some rest := by
  simp only [mark?, trimStart_cons h, if_true]

theorem year?_yearText (year : Int) {rest : List Char} (stop : Text.StopsAt Char.isDigit rest) :
    year? ((yearText year).toList ++ rest) = some (year, rest) := by
  unfold yearText
  have read : digits? ((padded 4 year.natAbs).toList ++ rest).length
      ((padded 4 year.natAbs).toList ++ rest) = some (year.natAbs, rest) := by
    refine digits?_padded ?_ (.inr stop)
    rw [List.length_append]
    exact Nat.le_add_right _ _
  split
  · have text : ("-" ++ padded 4 year.natAbs).toList ++ rest =
        '-' :: ((padded 4 year.natAbs).toList ++ rest) := by simp
    have negative : -(year.natAbs : Int) = year := by omega
    rw [text, year?, trimStart_cons rfl]
    simp only [read, Option.map_some, negative]
  split
  · have text : ("+" ++ padded 4 year.natAbs).toList ++ rest =
        '+' :: ((padded 4 year.natAbs).toList ++ rest) := by simp
    have positive : (year.natAbs : Int) = year := by omega
    rw [text, year?, trimStart_cons rfl]
    simp only [read, Option.map_some, positive]
  · have length : (padded 4 year.natAbs).toList.length = 4 :=
      length_padded (by decide) (by omega)
    have positive : (year.natAbs : Int) = year := by omega
    have four : digits? 4 ((padded 4 year.natAbs).toList ++ rest) = some (year.natAbs, rest) :=
      digits?_padded (Nat.le_of_eq length) (.inl length)
    obtain ⟨c, cs, eq⟩ := List.exists_cons_of_ne_nil (padded_ne_nil 4 year.natAbs)
    have digit : c.isDigit := isDigit_of_mem_padded (eq ▸ List.mem_cons_self)
    rw [year?, trimStart_padded]
    rw [eq, List.cons_append] at four ⊢
    split
    · rename_i sign
      obtain ⟨rfl, -⟩ := List.cons.inj sign
      cases digit
    · rename_i sign
      obtain ⟨rfl, -⟩ := List.cons.inj sign
      cases digit
    · simp only [four, Option.map_some, positive]

/-! ## The parts of a timestamp -/

theorem date?_dateText {t : Timestamp} (year : isYear (Date.ofDays t.day).year) (rest : List Char) :
    date? (t.dateText.toList ++ rest) = some (Date.ofDays t.day, rest) := by
  have valid := Date.isValid_ofDays t.day
  unfold dateText
  generalize Date.ofDays t.day = d at year valid ⊢
  have month : d.month < 100 := by
    simp only [Date.isValid, Bool.and_eq_true, decide_eq_true_eq] at valid
    omega
  have day : d.day < 100 := by
    have long : Date.daysInMonth d.year d.month ≤ 31 := by
      unfold Date.daysInMonth
      split
      · split <;> decide
      · split <;> decide
    simp only [Date.isValid, Bool.and_eq_true, decide_eq_true_eq] at valid
    omega
  have text : (yearText d.year ++ "-" ++ padded 2 d.month ++ "-" ++ padded 2 d.day).toList ++ rest =
      (yearText d.year).toList ++ '-' :: ((padded 2 d.month).toList ++
        '-' :: ((padded 2 d.day).toList ++ rest)) := by simp
  rw [text, date?, year?_yearText d.year (Text.stopsAt_cons rfl _)]
  simp only [Option.bind_eq_bind, Option.bind_some, mark?_cons (c := '-') rfl,
    number?_pair month, number?_pair day, year, valid, Bool.and_self, if_true]

theorem fraction?_padded {n places : Nat} (positive : 0 < places) (few : places ≤ 9)
    (small : n < 10 ^ places) {rest : List Char} (stop : Text.StopsAt Char.isDigit rest) :
    fraction? (("." ++ padded places n).toList ++ rest) = some (n * 10 ^ (9 - places), rest) := by
  have length : (padded places n).toList.length = places := length_padded positive small
  have digits : ∀ c ∈ (padded places n).toList, c.isDigit := fun _ => isDigit_of_mem_padded
  have read : digits? 9 ((padded places n).toList ++ rest) = some (n, rest) :=
    digits?_padded (by omega) (.inr stop)
  have text : ("." ++ padded places n).toList ++ rest =
      '.' :: ((padded places n).toList ++ rest) := by simp
  rw [text, fraction?, read, Text.takeWhile_append digits stop, length, Nat.min_eq_right few]
  simp only [Option.bind_eq_bind, Option.bind_some, Text.dropWhile_eq_self stop]
  rfl

theorem fraction?_fractionText (t : Timestamp) {rest : List Char}
    (stop : Text.StopsAt Char.isDigit rest) (point : rest.head? ≠ some '.') :
    fraction? (t.fractionText.toList ++ rest) = some (t.nanosecond % secondLength, rest) := by
  have range : t.nanosecond % secondLength < 1000000000 := Nat.mod_lt _ (by decide)
  unfold fractionText
  generalize t.nanosecond % secondLength = n at range ⊢
  dsimp only
  split
  · rename_i zero
    rw [zero]
    simp only [String.toList_empty, List.nil_append]
    unfold fraction?
    split
    · exact absurd rfl point
    · rfl
  split
  · have value : n / 1000000 * 10 ^ (9 - 3) = n := by omega
    rw [fraction?_padded (by decide) (by decide) (by omega) stop, value]
  split
  · have value : n / 1000 * 10 ^ (9 - 6) = n := by omega
    rw [fraction?_padded (by decide) (by decide) (by omega) stop, value]
  · have value : n * 10 ^ (9 - 9) = n := by omega
    rw [fraction?_padded (by decide) (by decide) (by omega) stop, value]

theorem time?_timeText {t : Timestamp} (proper : t.Proper) {rest : List Char}
    (stop : Text.StopsAt Char.isDigit rest) (point : rest.head? ≠ some '.') :
    time? (t.timeText.toList ++ (t.fractionText.toList ++ rest)) =
      some (t.second, t.nanosecond, rest) := by
  have second := proper.second
  have nanosecond := proper.nanosecond
  have fraction := fraction?_fractionText t stop point
  unfold dayLength at second
  unfold secondLength at nanosecond fraction
  have text : t.timeText.toList ++ (t.fractionText.toList ++ rest) =
      (padded 2 (t.second / 3600)).toList ++ ':' :: ((padded 2 (t.second / 60 % 60)).toList ++
        ':' :: ((padded 2 (t.second % 60 + t.nanosecond / 1000000000)).toList ++
          (t.fractionText.toList ++ rest))) := by simp [timeText, secondLength]
  have inside : ¬ (23 < t.second / 3600 ∨ 59 < t.second / 60 % 60 ∨
      60 < t.second % 60 + t.nanosecond / 1000000000) := by omega
  rw [text, time?, number?_pair (by omega)]
  simp only [Option.bind_eq_bind, Option.bind_some, mark?_cons (c := ':') rfl]
  rw [number?_pair (by omega)]
  simp only [Option.bind_some, mark?_cons (c := ':') rfl]
  rw [number?_pair (by omega)]
  simp only [Option.bind_some, fraction, if_neg inside, secondLength, pure, Option.some.injEq,
    Prod.mk.injEq, and_true]
  constructor
  · omega
  · split <;> omega

theorem zone?_utc : zone? ['Z'] = some (0, []) := by
  simp [zone?]

theorem read?_write {t : Timestamp} (proper : t.Proper) : read? (t.write "Z") = some t := by
  have year := proper.year
  have second := proper.second
  have text : (t.write "Z").toList = t.dateText.toList ++
      'T' :: (t.timeText.toList ++ (t.fractionText.toList ++ ['Z'])) := by simp [write]
  have stop : Text.StopsAt Char.isDigit ['Z'] := Text.stopsAt_cons rfl []
  have moment :
      ofSeconds ((Date.ofDays t.day).toDays * dayLength + t.second - 0) t.nanosecond = t := by
    obtain ⟨day, second', nanosecond⟩ := t
    dsimp only at second
    unfold dayLength at second
    simp only [Date.toDays_ofDays, ofSeconds, dayLength, Timestamp.mk.injEq, and_true]
    omega
  have ending : Text.trimStart [] = [] := rfl
  rw [read?, text, date?_dateText year]
  simp only [Option.bind_eq_bind, Option.bind_some,
    time?_timeText proper stop (by decide), trimStart_cons (c := 'Z') rfl, zone?_utc, ending,
    List.isEmpty_nil, Bool.not_true, Bool.false_eq_true, if_false, moment, year, if_true]

/-! ## What is read is proper -/

theorem digits?_lt {most n : Nat} {cs rest : List Char} (h : digits? most cs = some (n, rest)) :
    n < 10 ^ min most (cs.takeWhile Char.isDigit).length := by
  simp only [digits?] at h
  split at h
  · cases h
  · obtain ⟨rfl, -⟩ := Prod.mk.inj (Option.some.inj h)
    have digits : ∀ c ∈ (cs.take most).takeWhile Char.isDigit, c.isDigit :=
      List.all_eq_true.1 List.all_takeWhile
    have below := Number.ofDigits_lt digits 0
    rw [← List.take_takeWhile, List.length_take, Nat.zero_add, Nat.one_mul] at below
    rwa [← List.take_takeWhile]

theorem fraction?_lt {cs rest : List Char} {n : Nat} (h : fraction? cs = some (n, rest)) :
    n < secondLength := by
  unfold fraction? at h
  split at h
  · rename_i inner
    obtain ⟨⟨k, after⟩, found, h⟩ := Option.bind_eq_some_iff.1 h
    obtain ⟨rfl, -⟩ := Prod.mk.inj (Option.some.inj h)
    have below := digits?_lt found
    have few : min 9 (inner.takeWhile Char.isDigit).length ≤ 9 := Nat.min_le_left _ _
    generalize min 9 (inner.takeWhile Char.isDigit).length = places at below few ⊢
    calc k * 10 ^ (9 - places)
      _ < 10 ^ places * 10 ^ (9 - places) :=
        Nat.mul_lt_mul_of_pos_right below (Nat.pow_pos (by decide))
      _ = 10 ^ 9 := by rw [← Nat.pow_add, Nat.add_sub_cancel' few]
  · obtain ⟨rfl, -⟩ := Prod.mk.inj (Option.some.inj h)
    decide

theorem time?_proper {cs rest : List Char} {second nanosecond : Nat}
    (h : time? cs = some (second, nanosecond, rest)) :
    nanosecond < secondLength ∨ second % 60 = 59 ∧ nanosecond < 2 * secondLength := by
  simp only [time?, Option.bind_eq_bind, Option.bind_eq_some_iff] at h
  obtain ⟨⟨hour, cs₁⟩, -, cs₂, -, ⟨minute, cs₃⟩, -, cs₄, -, ⟨last, cs₅⟩, -, ⟨fraction, cs₆⟩, found,
    h⟩ := h
  have small := fraction?_lt found
  dsimp only at h
  split at h
  · cases h
  · rename_i inside
    simp only [pure, Option.some.injEq, Prod.mk.injEq] at h
    obtain ⟨rfl, rfl, -⟩ := h
    by_cases leap : last = 60
    · right
      rw [if_pos leap, leap]
      omega
    · left
      rw [if_neg leap]
      exact small

theorem offset?_whole {cs rest : List Char} {ahead : Int} (h : offset? cs = some (ahead, rest)) :
    ahead % 60 = 0 := by
  unfold offset? at h
  split at h
  case h_4 => cases h
  all_goals
    simp only [Option.bind_eq_bind, Option.bind_some, Option.bind_eq_some_iff] at h
    obtain ⟨⟨hours, cs₂⟩, -, ⟨minutes, cs₃⟩, -, h⟩ := h
    dsimp only at h
    split at h
    · cases h
    · simp only [pure, Option.some.injEq, Prod.mk.injEq] at h
      obtain ⟨rfl, -⟩ := h
      split <;> omega

theorem zone?_whole {cs rest : List Char} {ahead : Int} (h : zone? cs = some (ahead, rest)) :
    ahead % 60 = 0 := by
  unfold zone? at h
  split at h
  · cases h
  split at h
  · obtain ⟨rfl, -⟩ := Prod.mk.inj (Option.some.inj h)
    rfl
  split at h
  · obtain ⟨rfl, -⟩ := Prod.mk.inj (Option.some.inj h)
    rfl
  · exact offset?_whole h

theorem proper_ofSeconds {day ahead : Int} {second nanosecond : Nat} (minutes : ahead % 60 = 0)
    (bound : nanosecond < secondLength ∨ second % 60 = 59 ∧ nanosecond < 2 * secondLength)
    (year : isYear (Date.ofDays
      (ofSeconds (day * dayLength + second - ahead) nanosecond).day).year) :
    (ofSeconds (day * dayLength + second - ahead) nanosecond).Proper := by
  refine ⟨year, ?_, ?_⟩
  · simp only [ofSeconds, dayLength]
    omega
  · simp only [ofSeconds, dayLength]
    rcases bound with within | ⟨last, long⟩
    · exact .inl within
    · refine .inr ⟨?_, long⟩
      omega

theorem proper_of_read? {s : String} {t : Timestamp} (h : read? s = some t) : t.Proper := by
  obtain ⟨⟨d, cs₁⟩, -, h⟩ := Option.bind_eq_some_iff.1 h
  dsimp only at h
  split at h
  case h_4 => cases h
  all_goals
    simp only [Option.bind_eq_bind, Option.bind_some, Option.bind_eq_some_iff] at h
    obtain ⟨⟨second, nanosecond, cs₃⟩, time, ⟨ahead, cs₄⟩, zone, h⟩ := h
    dsimp only at h
    split at h
    · cases h
    split at h
    · rename_i year
      obtain rfl := Option.some.inj h
      exact proper_ofSeconds (zone?_whole zone) (time?_proper time) year
    · cases h

end ScreenScript.Timestamp
