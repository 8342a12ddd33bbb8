import ScreenScript.Time.Calendar

namespace ScreenScript

namespace Date


structure CycleDay where
  century : Nat
  group : Nat
  year : Nat
  day : Nat

namespace CycleDay

def count (p : CycleDay) : Nat :=
  36524 * p.century + 1461 * p.group + 365 * p.year + p.day

def years (p : CycleDay) : Nat :=
  100 * p.century + 4 * p.group + p.year

structure Valid (p : CycleDay) : Prop where
  century : p.century ≤ 3
  group : p.group ≤ 24
  year : p.year ≤ 3
  day : p.day ≤ 365
  leap : p.day = 365 → p.year = 3 ∧ (p.group = 24 → p.century = 3)

theorem exists_century {n : Nat} (h : n < 146097) :
    ∃ c r, c ≤ 3 ∧ r ≤ 36524 ∧ n = 36524 * c + r ∧ (r = 36524 → c = 3) := by
  by_cases final : n = 146096
  · exact ⟨3, 36524, by omega, by omega, by omega, by omega⟩
  · exact ⟨n / 36524, n % 36524, by omega, by omega, by omega, by omega⟩

theorem exists_year {s : Nat} (h : s < 1461) :
    ∃ k d, k ≤ 3 ∧ d ≤ 365 ∧ s = 365 * k + d ∧ (d = 365 → k = 3) := by
  by_cases final : s = 1460
  · exact ⟨3, 365, by omega, by omega, by omega, by omega⟩
  · exact ⟨s / 365, s % 365, by omega, by omega, by omega, by omega⟩

theorem exists_count_eq {n : Nat} (h : n < 146097) : ∃ p : CycleDay, p.Valid ∧ p.count = n := by
  obtain ⟨c, r, century, inCentury, eq, lastCentury⟩ := exists_century h
  obtain ⟨k, d, year, day, eq', lastYear⟩ := exists_year (Nat.mod_lt r (y := 1461) (by decide))
  have group := Nat.div_add_mod r 1461
  refine ⟨⟨c, r / 1461, k, d⟩, ⟨century, ?_, year, day, fun full => ⟨lastYear full, ?_⟩⟩, ?_⟩
  · dsimp only
    omega
  · have last := lastYear full
    intro lastGroup
    dsimp only at full lastGroup
    apply lastCentury
    omega
  · dsimp only [count]
    omega

theorem yearOf_count {p : CycleDay} (valid : p.Valid) :
    (p.count - p.count / 1460 + p.count / 36524 - p.count / 146096) / 365 = p.years := by
  obtain ⟨c, g, k, d⟩ := p
  obtain ⟨century, group, year, day, leap⟩ := valid
  dsimp only at century group year day leap
  dsimp only [years]
  generalize hn : count ⟨c, g, k, d⟩ = n
  dsimp only [count] at hn
  have inCentury : n = 36524 * c + (1461 * g + 365 * k + d) := by omega
  have long : 1461 * g + 365 * k + d ≤ 36524 := by omega
  have centuries : n / 36524 - n / 146096 = c := by
    by_cases final : 1461 * g + 365 * k + d = 36524
    · have last : c = 3 := by omega
      omega
    · have whole : n / 36524 = c := by omega
      have few : n / 146096 = 0 := by omega
      omega
  have quotient : n / 1460 = 25 * c + g + (24 * c + g + 365 * k + d) / 1460 := by
    have same : n = 1460 * (25 * c + g) + (24 * c + g + 365 * k + d) := by omega
    rw [same, Nat.mul_add_div (by decide)]
  have once : (24 * c + g + 365 * k + d) / 1460 ≤ 1 := by omega
  have late : (24 * c + g + 365 * k + d) / 1460 = 1 → 0 < d := by omega
  have early : (24 * c + g + 365 * k + d) / 1460 = 0 → d < 365 := by omega
  generalize (24 * c + g + 365 * k + d) / 1460 = q at quotient once late early
  have above : n / 146096 ≤ n / 36524 := Nat.div_le_div_left (by decide) (by decide)
  have within : n / 1460 ≤ n := Nat.div_le_self n 1460
  have rest : n - n / 1460 + n / 36524 - n / 146096 = 365 * (100 * c + 4 * g + k) + (d - q) := by
    omega
  have short : d - q < 365 := by omega
  rw [rest, Nat.mul_add_div (by decide), Nat.div_eq_of_lt short, Nat.add_zero]

theorem daysBeforeYear_years {p : CycleDay} (valid : p.Valid) :
    daysBeforeYear p.years + p.day = p.count := by
  obtain ⟨c, g, k, d⟩ := p
  obtain ⟨century, group, year, day, leap⟩ := valid
  dsimp only at century group year day leap
  dsimp only [daysBeforeYear, years, count]
  have fourths : (100 * c + 4 * g + k) / 4 = 25 * c + g := by omega
  have hundredths : (100 * c + 4 * g + k) / 100 = c := by omega
  omega

end CycleDay

theorem monthOf_day {d : Nat} (h : d ≤ 365) :
    (5 * d + 2) / 153 ≤ 11 ∧ daysBeforeMonth ((5 * d + 2) / 153) ≤ d ∧
      d < daysBeforeMonth ((5 * d + 2) / 153 + 1) := by
  have month : (5 * d + 2) / 153 ≤ 11 := by omega
  refine ⟨month, ?_, ?_⟩
  · unfold daysBeforeMonth
    omega
  · unfold daysBeforeMonth
    omega

theorem ofDays_eq {days : Int} {p : CycleDay} (valid : p.Valid)
    (h : p.count = ((days + epoch) % cycle).toNat) :
    ofDays days =
      { year := if (5 * p.day + 2) / 153 < 10 then (days + epoch) / cycle * 400 + p.years
          else (days + epoch) / cycle * 400 + p.years + 1
        month := if (5 * p.day + 2) / 153 < 10 then (5 * p.day + 2) / 153 + 3
          else (5 * p.day + 2) / 153 - 9
        day := p.day - daysBeforeMonth ((5 * p.day + 2) / 153) + 1 } := by
  have year := CycleDay.yearOf_count valid
  have before := CycleDay.daysBeforeYear_years valid
  have day : p.count - daysBeforeYear p.years = p.day := by omega
  unfold ofDays
  dsimp only
  rw [← h, year, day]
  have month := monthOf_day valid.day
  by_cases early : (5 * p.day + 2) / 153 < 10
  · simp only [if_pos early]
    rw [if_neg (by omega)]
  · simp only [if_neg early]
    rw [if_pos (by omega)]

theorem exists_cycleDay (days : Int) : ∃ p : CycleDay, p.Valid ∧
    p.count = ((days + epoch) % cycle).toNat ∧
    days + epoch = (days + epoch) / cycle * cycle + p.count := by
  have range := Int.emod_lt_of_pos (days + epoch) (b := cycle) (by decide)
  have nonneg := Int.emod_nonneg (days + epoch) (b := cycle) (by decide)
  have whole := Int.ediv_mul_add_emod (days + epoch) cycle
  have below : ((days + epoch) % cycle).toNat < 146097 := by
    unfold cycle at range nonneg ⊢
    omega
  obtain ⟨p, valid, count⟩ := CycleDay.exists_count_eq below
  refine ⟨p, valid, count, ?_⟩
  rw [count, Int.toNat_of_nonneg nonneg]
  exact whole.symm

theorem CycleDay.years_lt {p : CycleDay} (valid : p.Valid) : p.years < 400 := by
  have century := valid.century
  have group := valid.group
  have year := valid.year
  unfold CycleDay.years
  omega

theorem toDays_ofDays (days : Int) : (ofDays days).toDays = days := by
  obtain ⟨p, valid, count, eq⟩ := exists_cycleDay days
  rw [ofDays_eq valid count]
  have years := CycleDay.years_lt valid
  have before := CycleDay.daysBeforeYear_years valid
  obtain ⟨month, start, -⟩ := monthOf_day valid.day
  generalize (days + epoch) / cycle = era at eq ⊢
  have eraOf : (era * 400 + p.years) / 400 = era := by omega
  have yearOf : ((era * 400 + (p.years : Int)) % 400).toNat = p.years := by omega
  generalize (5 * p.day + 2) / 153 = m at month start ⊢
  by_cases early : m < 10
  · have index : (m + 3 + 9) % 12 = m := by omega
    simp only [toDays, if_pos early]
    rw [if_neg (by omega), eraOf, yearOf, index]
    omega
  · have index : (m - 9 + 9) % 12 = m := by omega
    have same : era * 400 + (p.years : Int) + 1 - 1 = era * 400 + p.years := by omega
    simp only [toDays, if_neg early]
    rw [if_pos (by omega), same, eraOf, yearOf, index]
    omega

theorem isLeapYear_of_day {p : CycleDay} (valid : p.Valid) (full : p.day = 365) (era : Int) :
    isLeapYear (era * 400 + p.years + 1) = true := by
  obtain ⟨year, century⟩ := valid.leap full
  have group := valid.group
  have most := valid.century
  simp only [isLeapYear, CycleDay.years, year, Bool.and_eq_true, Bool.or_eq_true,
    decide_eq_true_eq]
  omega

theorem daysBeforeMonth_succ_le {m : Nat} (year : Int) (early : m < 10) :
    daysBeforeMonth (m + 1) ≤ daysBeforeMonth m + daysInMonth year (m + 3) := by
  unfold daysBeforeMonth daysInMonth
  rw [if_neg (by omega)]
  split <;> omega

theorem isValid_ofDays (days : Int) : (ofDays days).isValid = true := by
  obtain ⟨p, valid, count, -⟩ := exists_cycleDay days
  rw [ofDays_eq valid count]
  generalize (days + epoch) / cycle = era
  obtain ⟨month, start, stop⟩ := monthOf_day valid.day
  have leap := fun full => isLeapYear_of_day valid full era
  have day := valid.day
  generalize (5 * p.day + 2) / 153 = m at month start stop ⊢
  simp only [isValid, Bool.and_eq_true, decide_eq_true_eq]
  by_cases early : m < 10
  · have length := daysBeforeMonth_succ_le (era * 400 + p.years) early
    simp only [if_pos early]
    omega
  · simp only [if_neg early]
    simp only [daysBeforeMonth] at start stop ⊢
    rcases (by omega : m = 10 ∨ m = 11) with rfl | rfl
    · have january (year : Int) : daysInMonth year (10 - 9) = 31 := rfl
      rw [january]
      omega
    · have february (year : Int) :
          daysInMonth year (11 - 9) = if isLeapYear year then 29 else 28 := rfl
      rw [february]
      by_cases full : p.day = 365
      · rw [if_pos (leap full)]
        omega
      · split <;> omega

end Date

end ScreenScript
