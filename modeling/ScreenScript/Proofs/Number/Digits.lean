import Mathlib
import ScreenScript.Number.Layout
import ScreenScript.Number.Reading

namespace ScreenScript

namespace Text

def StopsAt (p : Char → Bool) (rest : List Char) : Prop :=
  ∀ c, rest.head? = some c → p c = false

theorem stopsAt_cons {p : Char → Bool} {c : Char} (h : p c = false) (rest : List Char) :
    StopsAt p (c :: rest) := by
  intro other first
  obtain rfl := Option.some.inj first
  exact h

theorem takeWhile_eq_nil {p : Char → Bool} {rest : List Char} (stop : StopsAt p rest) :
    rest.takeWhile p = [] := by
  cases rest with
  | nil => rfl
  | cons c rest => rw [List.takeWhile_cons_of_neg (by simp [stop c rfl])]

theorem dropWhile_eq_self {p : Char → Bool} {rest : List Char} (stop : StopsAt p rest) :
    rest.dropWhile p = rest := by
  cases rest with
  | nil => rfl
  | cons c rest => rw [List.dropWhile_cons_of_neg (by simp [stop c rfl])]

theorem takeWhile_append {p : Char → Bool} {cs rest : List Char} (inside : ∀ c ∈ cs, p c)
    (stop : StopsAt p rest) : (cs ++ rest).takeWhile p = cs := by
  rw [List.takeWhile_append_of_pos inside, takeWhile_eq_nil stop, List.append_nil]

theorem dropWhile_append {p : Char → Bool} {cs rest : List Char} (inside : ∀ c ∈ cs, p c)
    (stop : StopsAt p rest) : (cs ++ rest).dropWhile p = rest := by
  rw [List.dropWhile_append_of_pos inside, dropWhile_eq_self stop]

theorem takeWhile_append_of_dropWhile {p : Char → Bool} {c : Char} {rest : List Char}
    (h : cs.dropWhile p = c :: rest) (more : List Char) :
    (cs ++ more).takeWhile p = cs.takeWhile p ∧ (cs ++ more).dropWhile p = c :: rest ++ more := by
  induction cs with
  | nil => cases h
  | cons d cs ih =>
      cases inside : p d with
      | true =>
          rw [List.dropWhile_cons_of_pos inside] at h
          obtain ⟨taken, dropped⟩ := ih h
          rw [List.cons_append, List.takeWhile_cons_of_pos inside, List.dropWhile_cons_of_pos inside,
            List.takeWhile_cons_of_pos inside, taken, dropped]
          exact ⟨rfl, rfl⟩
      | false =>
          have stop : ¬ p d = true := by simp [inside]
          rw [List.dropWhile_cons_of_neg stop] at h
          rw [← h, List.cons_append, List.takeWhile_cons_of_neg stop, List.takeWhile_cons_of_neg stop,
            List.dropWhile_cons_of_neg stop]
          exact ⟨rfl, rfl⟩

theorem takeWhile_append_of_stopsAt {p : Char → Bool} {more : List Char} (stop : StopsAt p more)
    (cs : List Char) :
    (cs ++ more).takeWhile p = cs.takeWhile p ∧ (cs ++ more).dropWhile p = cs.dropWhile p ++ more := by
  cases h : cs.dropWhile p with
  | nil =>
      have inside := List.dropWhile_eq_nil_iff.1 h
      rw [takeWhile_append inside stop, dropWhile_append inside stop]
      exact ⟨(List.takeWhile_eq_self_iff.2 inside).symm, rfl⟩
  | cons c rest => exact takeWhile_append_of_dropWhile h more

end Text

namespace Number

theorem forall_isDigit {P : Char → Prop} (h : ∀ k < 10, P (Char.ofNat (48 + k))) {c : Char}
    (digit : c.isDigit) : P c := by
  have range : 48 ≤ c.toNat ∧ c.toNat ≤ 57 := by
    simp only [Char.isDigit, Bool.and_eq_true, decide_eq_true_eq] at digit
    exact digit
  have found := h (c.toNat - 48) (by omega)
  have same : 48 + (c.toNat - 48) = c.toNat := by omega
  rwa [same, Char.ofNat_toNat] at found

theorem isDigit_of_mem_digits {n : Nat} {c : Char} (h : c ∈ digits n) : c.isDigit :=
  Nat.isDigit_of_mem_toDigits (by decide) (by decide) h

theorem digits_ne_nil (n : Nat) : digits n ≠ [] :=
  Nat.toDigits_ne_nil

theorem ofDigits_lt {ds : List Char} (digits : ∀ c ∈ ds, c.isDigit) (acc : Nat) :
    ofDigits acc ds < (acc + 1) * 10 ^ ds.length := by
  induction ds generalizing acc with
  | nil => simp [ofDigits]
  | cons c ds ih =>
      have digit : c.toNat - '0'.toNat < 10 :=
        forall_isDigit (P := fun c => c.toNat - '0'.toNat < 10) (by decide)
          (digits c List.mem_cons_self)
      have later := ih (fun c mem => digits c (List.mem_cons_of_mem _ mem))
        (10 * acc + (c.toNat - '0'.toNat))
      have bound : (10 * acc + (c.toNat - '0'.toNat) + 1) * 10 ^ ds.length ≤
          10 * (acc + 1) * 10 ^ ds.length := Nat.mul_le_mul_right _ (by omega)
      have power : (acc + 1) * 10 ^ (ds.length + 1) = 10 * (acc + 1) * 10 ^ ds.length := by
        rw [Nat.pow_succ, Nat.mul_comm (10 ^ ds.length) 10, ← Nat.mul_assoc,
          Nat.mul_comm (acc + 1) 10]
      rw [List.length_cons, power]
      exact Nat.lt_of_lt_of_le later bound

theorem ofDigits_digits (n : Nat) : ofDigits 0 (digits n) = n :=
  Nat.ofDigitChars_ten_toDigits

theorem ofDigits_replicate_append (k : Nat) (ds : List Char) :
    ofDigits 0 (List.replicate k '0' ++ ds) = ofDigits 0 ds := by
  induction k with
  | zero => rfl
  | succ k ih => exact ih

theorem exists_digits_eq_cons {n : Nat} (positive : 0 < n) :
    ∃ c cs, digits n = c :: cs ∧ c ≠ '0' := by
  induction n using Nat.strongRecOn with
  | ind n ih =>
      by_cases small : n < 10
      · have leading : ∀ k < 10, 0 < k → Nat.digitChar k ≠ '0' := by decide
        exact ⟨n.digitChar, [], Nat.toDigits_of_lt_base small, leading n small positive⟩
      · obtain ⟨c, cs, eq, ne⟩ := ih (n / 10) (by omega) (by omega)
        refine ⟨c, cs ++ [(n % 10).digitChar], ?_, ne⟩
        rw [digits, Nat.toDigits_of_base_le (by decide) (by omega)]
        rw [digits] at eq
        rw [eq, List.cons_append]

end Number

namespace Decimal

theorem Interval.pos_of_inside {i : Interval} {stretch unit k : Nat} (low : 0 < i.low)
    (stretched : 0 < stretch)
    (h : (if i.closed then i.low * stretch ≤ k * unit && k * unit ≤ i.high * stretch
      else i.low * stretch < k * unit && k * unit < i.high * stretch : Bool) = true) : 0 < k := by
  have positive := Nat.mul_pos low stretched
  rcases Nat.eq_zero_or_pos k with rfl | found
  · split at h
    all_goals
      simp only [Nat.zero_mul, Bool.and_eq_true, decide_eq_true_eq] at h
      omega
  · exact found

theorem Interval.onGrid_pos {i : Interval} {tie : Tie} {grid : Int} {k : Nat} (low : 0 < i.low)
    (h : i.onGrid tie grid = some k) : 0 < k := by
  have stretched : 0 < Nat.pow 10 (-grid).toNat := Nat.pow_pos (by decide)
  unfold Interval.onGrid at h
  dsimp only at h
  split at h
  · rename_i below _
    obtain rfl := Option.some.inj h
    split
    · exact pos_of_inside low stretched below
    · exact Nat.succ_pos _
  · rename_i below _
    obtain rfl := Option.some.inj h
    exact pos_of_inside low stretched below
  · obtain rfl := Option.some.inj h
    exact Nat.succ_pos _
  · cases h

theorem Interval.ofBinary_low_pos {significand : Nat} (positive : 0 < significand) (exponent : Int) :
    0 < (Interval.ofBinary significand exponent).low := by
  refine Nat.mul_pos ?_ (Nat.pow_pos (by decide))
  split <;> omega

theorem shortest_digits_pos (tie : Tie) {significand : Nat} (positive : 0 < significand)
    (exponent : Int) :
    0 < (shortest tie significand exponent).digits ∨ shortest tie significand exponent = ⟨0, 0⟩ := by
  unfold shortest
  dsimp only
  split
  · rename_i d found
    obtain ⟨k, -, written⟩ := List.exists_of_findSome?_eq_some found
    obtain ⟨digits, onGrid, rfl⟩ := Option.map_eq_some_iff.1 written
    have digitsPos := Interval.onGrid_pos (Interval.ofBinary_low_pos positive exponent) onGrid
    left
    split
    · rename_i even
      dsimp only at even ⊢
      omega
    · exact digitsPos
  · exact .inr rfl

end Decimal

end ScreenScript
