import ScreenScript.Proofs.Number.Doubles

namespace ScreenScript.Double

open Float.Model Float.Model.UnpackedFloat

def IsTop (x : Float) : Prop :=
  datum x = .infinity .positive

def Nonneg (x : Float) : Prop :=
  (∃ q, Is x .positive q) ∨ IsTop x

def AtLeast (x : Float) (k : ℤ) : Prop :=
  (∃ q, Is x .positive q ∧ 2 ^ k ≤ q) ∨ IsTop x

def IsNumber (x : Float) : Prop :=
  datum x ≠ .notANumber

variable {x y : Float} {s t : Sign} {f g : UnpackedFloat} {q r : ℚ} {n m : ℕ} {k j : ℤ}

theorem isTop_infinity : IsTop (double (.infinity .positive)) := by
  rw [IsTop, datum_double]
  exact unpack_infinity .positive

theorem is_zero (s : Sign) : Is (double (.zero s)) s 0 := by
  refine ⟨_, rfl, ?_, trivial, rfl, rfl⟩
  rw [datum_double]
  exact unpack_zero s

theorem Is.isNumber (h : Is x s q) : IsNumber x := by
  obtain ⟨f, -, same, -, hasSign, -⟩ := h
  rw [IsNumber, same]
  rintro rfl
  cases hasSign

theorem IsTop.isNumber (h : IsTop x) : IsNumber x := by
  rw [IsNumber, h]
  rintro ⟨⟩

theorem Sized.isNumber (h : Sized x n k) : IsNumber x := by
  obtain ⟨s, q, is, -⟩ := h
  exact is.isNumber

theorem Nonneg.isNumber (h : Nonneg x) : IsNumber x := by
  rcases h with ⟨q, is⟩ | top
  · exact is.isNumber
  · exact top.isNumber

theorem isNumber_of_rounded (h : Rounded s q f) : IsNumber (double f) := by
  rcases is_double_or h with is | overflow
  · exact is.isNumber
  · rw [IsNumber, overflow]
    rintro ⟨⟩

theorem nonneg_of_rounded (h : Rounded .positive q f) : Nonneg (double f) := by
  rcases is_double_or h with is | overflow
  · exact .inl ⟨_, is⟩
  · exact .inr overflow

theorem atLeast_of_rounded (h : Rounded .positive q f) (low : -1074 ≤ k) (bound : 2 ^ k ≤ q) :
    AtLeast (double f) k := by
  rcases is_double_or h with is | overflow
  · refine .inl ⟨_, is, ?_⟩
    have kept := h.ge (n := 1) (k := k) (by norm_num) low (by simpa using bound)
    simpa using kept
  · exact .inr overflow

theorem Is.atLeast (h : Is x .positive q) (bound : 2 ^ k ≤ q) : AtLeast x k :=
  .inl ⟨q, h, bound⟩

/-! ## Sums -/

theorem add_infinity (h : HasSign s f) :
    UnpackedFloat.add .binary64 f (.infinity t) = .infinity t ∧
      UnpackedFloat.add .binary64 (.infinity t) f = .infinity t := by
  cases f with
  | infinity | notANumber => cases h
  | zero | finite => exact ⟨rfl, rfl⟩

theorem Nonneg.add (hx : Nonneg x) (hy : Nonneg y) : Nonneg (x + y) := by
  rw [datum_add]
  rcases hx with ⟨q, f, -, fx, hf, sf, -⟩ | topX
  · rcases hy with ⟨r, g, -, gy, hg, sg, -⟩ | topY
    · obtain ⟨u, rounded, sign⟩ := rounded_add hf hg sf sg
      obtain rfl := sign rfl
      rw [fx, gy]
      exact nonneg_of_rounded rounded
    · rw [fx, topY, (add_infinity sf).1]
      exact .inr isTop_infinity
  · rcases hy with ⟨r, g, -, gy, hg, sg, -⟩ | topY
    · rw [topX, gy, (add_infinity sg).2]
      exact .inr isTop_infinity
    · rw [topX, topY]
      exact .inr isTop_infinity

/-! ## Products -/

theorem Sized.mul_self_nonneg (h : Sized x n k) : Nonneg (x * x) := by
  obtain ⟨s, q, ⟨f, -, fx, hf, sf, -⟩, -⟩ := h
  have rounded := rounded_mul hf hf sf sf
  have sign : s * s = .positive := by
    cases s with
    | negative | positive => rfl
  rw [sign] at rounded
  rw [datum_mul, fx]
  exact nonneg_of_rounded rounded

theorem Is.mul_nonneg (hx : Is x .positive q) (hy : Is y .positive r) : Nonneg (x * y) := by
  obtain ⟨f, -, fx, hf, sf, -⟩ := hx
  obtain ⟨g, -, gy, hg, sg, -⟩ := hy
  rw [datum_mul, fx, gy]
  exact nonneg_of_rounded (rounded_mul hf hg sf sg)

theorem mul_infinity (h : HasSign .positive f) (pos : 0 < magnitude f) :
    UnpackedFloat.mul .binary64 f (.infinity .positive) = .infinity .positive ∧
      UnpackedFloat.mul .binary64 (.infinity .positive) f = .infinity .positive := by
  cases f with
  | infinity | notANumber => cases h
  | zero => exact absurd pos (lt_irrefl _)
  | finite =>
      cases h
      exact ⟨rfl, rfl⟩

theorem AtLeast.mul (hx : AtLeast x k) (hy : AtLeast y j) (low : -1074 ≤ k + j) :
    AtLeast (x * y) (k + j) := by
  have powerX : (0 : ℚ) < 2 ^ k := by positivity
  have powerY : (0 : ℚ) < 2 ^ j := by positivity
  rw [datum_mul]
  rcases hx with ⟨q, ⟨f, -, fx, hf, sf, rfl⟩, boundX⟩ | topX
  · rcases hy with ⟨r, ⟨g, -, gy, hg, sg, rfl⟩, boundY⟩ | topY
    · rw [fx, gy]
      refine atLeast_of_rounded (rounded_mul hf hg sf sg) low ?_
      rw [zpow_add₀ (by norm_num)]
      exact mul_le_mul boundX boundY powerY.le (powerX.le.trans boundX)
    · rw [fx, topY, (mul_infinity sf (powerX.trans_le boundX)).1]
      exact .inr isTop_infinity
  · rcases hy with ⟨r, ⟨g, -, gy, hg, sg, rfl⟩, boundY⟩ | topY
    · rw [topX, gy, (mul_infinity sg (powerY.trans_le boundY)).2]
      exact .inr isTop_infinity
    · rw [topX, topY]
      exact .inr isTop_infinity

/-! ## Quotients -/

theorem div_infinity (h : HasSign s f) :
    UnpackedFloat.div .binary64 f (.infinity t) = .zero (s / t) := by
  cases f with
  | infinity | notANumber => cases h
  | zero | finite =>
      cases h
      rfl

theorem Sized.div (hx : Sized x n k) (hy : AtLeast y j) (small : n < 2 ^ 53) (low : -1074 ≤ k - j)
    (fits : k - j ≤ 971) : Sized (x / y) n (k - j) := by
  obtain ⟨s, q, ⟨f, -, fx, hf, sf, rfl⟩, boundX⟩ := hx
  rw [datum_div, fx]
  rcases hy with ⟨r, ⟨g, -, gy, hg, sg, rfl⟩, boundY⟩ | topY
  · have power : (0 : ℚ) < 2 ^ j := by positivity
    have positive := power.trans_le boundY
    have quotient : magnitude f / magnitude g ≤ n * 2 ^ (k - j) := by
      rw [zpow_sub₀ (by norm_num), ← mul_div_assoc]
      exact div_le_div₀ (by positivity) boundX power boundY
    rw [gy]
    exact sized_of_rounded (rounded_div sf sg positive.ne') small low fits quotient
  · rw [topY, div_infinity sf]
    exact (is_zero _).sized (by positivity)

theorem Is.atLeast_div (hx : Is x .positive q) (hy : Is y .positive r) (ne : r ≠ 0) (low : -1074 ≤ k)
    (bound : 2 ^ k ≤ q / r) : AtLeast (x / y) k := by
  obtain ⟨f, -, fx, hf, sf, rfl⟩ := hx
  obtain ⟨g, -, gy, hg, sg, rfl⟩ := hy
  rw [datum_div, fx, gy]
  exact atLeast_of_rounded (rounded_div sf sg ne) low bound

theorem Sized.div_isNumber (hx : Sized x n k) (hy : AtLeast y j) : IsNumber (x / y) := by
  obtain ⟨s, q, ⟨f, -, fx, hf, sf, rfl⟩, -⟩ := hx
  rw [datum_div, fx]
  rcases hy with ⟨r, ⟨g, -, gy, hg, sg, rfl⟩, boundY⟩ | topY
  · have power : (0 : ℚ) < 2 ^ j := by positivity
    rw [gy]
    exact isNumber_of_rounded (rounded_div sf sg (power.trans_le boundY).ne')
  · rw [topY, div_infinity sf]
    exact (is_zero _).isNumber

/-! ## Roots -/

theorem AtLeast.sqrt (h : AtLeast x k) : ∃ j, AtLeast x.sqrt j := by
  rw [datum_sqrt]
  rcases h with ⟨q, ⟨f, -, fx, hf, sf, rfl⟩, bound⟩ | top
  · have power : (0 : ℚ) < 2 ^ k := by positivity
    rw [fx]
    cases f with
    | infinity | notANumber => cases sf
    | zero => exact absurd bound power.not_ge
    | finite s m e pos =>
        cases sf
        obtain ⟨root, rounded, positive⟩ := rounded_sqrt hf
        generalize UnpackedFloat.sqrt .binary64 (.finite .positive m e pos) = f at rounded positive
        cases f with
        | infinity | notANumber | zero => exact absurd positive (lt_irrefl _)
        | finite s' m' e' pos' =>
            rcases is_double_or rounded with is | overflow
            · refine ⟨e', is.atLeast ?_⟩
              have cast : (1 : ℚ) ≤ m' := by exact_mod_cast pos'
              have power' : (0 : ℚ) < 2 ^ e' := by positivity
              exact le_mul_of_one_le_left power'.le cast
            · exact ⟨0, .inr overflow⟩
  · rw [top]
    exact ⟨0, .inr isTop_infinity⟩

/-! ## Comparisons -/

theorem Is.atLeast_of_not_lt (hx : Is x s q) (hy : AtLeast y k) (h : ¬ x < y) : AtLeast x k := by
  have power : (0 : ℚ) < 2 ^ k := by positivity
  rw [lt_iff] at h
  rcases hy with ⟨r, ⟨g, -, gy, hg, sg, rfl⟩, bound⟩ | topY
  · have positive := power.trans_le bound
    cases s with
    | positive =>
        refine hx.atLeast (bound.trans (not_lt.1 fun less => h ?_))
        obtain ⟨f, -, fx, hf, sf, rfl⟩ := hx
        rw [fx, gy]
        exact compare_eq_lt hf hg sf sg less
    | negative =>
        obtain ⟨f, -, fx, hf, sf, rfl⟩ := hx
        refine absurd ?_ h
        rw [fx, gy]
        cases g with
        | infinity | notANumber | zero => exact absurd positive (lt_irrefl _)
        | finite =>
            cases sg
            cases f with
            | infinity | notANumber => cases sf
            | zero => rfl
            | finite =>
                cases sf
                rfl
  · obtain ⟨f, -, fx, hf, sf, rfl⟩ := hx
    refine absurd ?_ h
    rw [fx, topY]
    cases f with
    | infinity | notANumber => cases sf
    | zero | finite => rfl

theorem Nonneg.atLeast_of_not_lt (hx : Nonneg x) (hy : AtLeast y k) (h : ¬ x < y) : AtLeast x k := by
  rcases hx with ⟨q, is⟩ | top
  · exact is.atLeast_of_not_lt hy h
  · exact .inr top

theorem Sized.atLeast_of_not_lt (hx : Sized x n k) (hy : AtLeast y j) (h : ¬ x < y) :
    AtLeast x j := by
  obtain ⟨s, q, is, -⟩ := hx
  exact is.atLeast_of_not_lt hy h

theorem IsNumber.lowest_lt (h : IsNumber x) (hy : Nonneg y) (notBelow : ¬ x < y) :
    -1.0 / 0.0 < x := by
  have bottom : datum (-1.0 / 0.0) = .infinity .negative := rfl
  rw [IsNumber] at h
  rw [lt_iff] at notBelow ⊢
  rw [bottom]
  generalize datum x = f at h notBelow ⊢
  cases f with
  | notANumber => exact absurd rfl h
  | zero | finite => rfl
  | infinity s =>
      cases s with
      | positive => rfl
      | negative =>
          refine absurd ?_ notBelow
          rcases hy with ⟨r, g, -, gy, -, sg, -⟩ | topY
          · rw [gy]
            cases g with
            | infinity | notANumber => cases sg
            | zero | finite => rfl
          · rw [topY]
            rfl

/-! ## Natural numbers -/

theorem sized_natural (n : UInt64) : Sized n.toFloat 1 64 := by
  have bound : (n.toNat : ℚ) ≤ (1 : ℕ) * 2 ^ (64 : ℤ) := by
    have less : n.toNat < 2 ^ 64 := n.toNat_lt
    have cast : (n.toNat : ℚ) < 2 ^ 64 := by exact_mod_cast less
    norm_num at cast ⊢
    exact cast.le
  exact sized_of_rounded (rounded_natural n) (by norm_num) (by norm_num) (by norm_num) bound

theorem nonneg_natural (n : UInt64) : Nonneg n.toFloat :=
  nonneg_of_rounded (rounded_natural n)

theorem atLeast_natural {n : UInt64} (pos : 0 < n.toNat) : AtLeast n.toFloat 0 := by
  refine atLeast_of_rounded (rounded_natural n) (by norm_num) ?_
  rw [zpow_zero]
  exact_mod_cast pos

theorem toNat_toUInt64 (small : n < 2 ^ 64) : n.toUInt64.toNat = n := by
  rw [Nat.toUInt64, UInt64.toNat_ofNat', Nat.mod_eq_of_lt small]

theorem is_one : Is 1.0 .positive 1 := by
  refine ⟨.finite .positive (2 ^ 52) (-52) (by norm_num), rfl, rfl, ?_, rfl, ?_⟩
  · exact ⟨by norm_num, by norm_num, .inl le_rfl⟩
  · norm_num [magnitude]

theorem ofNat_of_lt (small : n < 2 ^ 53) : Float.ofNat n = n.toUInt64.toFloat * 1.0 :=
  dif_pos ⟨small, by norm_num⟩

theorem ofNat_of_le (large : 2 ^ 53 ≤ n) : Float.ofNat n =
    double (roundWithAccuracy .binary64 .positive ((n <<< 53) * 1) (-53 + 0) .exact) := by
  have slow : ¬ (n < 2 ^ 53 ∧ 0 ≤ 22) := by omega
  have some : n ≠ 0 := by omega
  have unfolded : Float.ofNat n = double (UnpackedFloat.ofScientific .binary64 n 0) := dif_neg slow
  have above : ¬ (0 : ℤ) > 2 ^ Format.binary64.exponentBits := by norm_num
  have below : ¬ (0 : ℤ) < -(2 ^ Format.binary64.exponentBits + (n.log2 : ℤ)) := by
    norm_num
  rw [unfolded, UnpackedFloat.ofScientific, dif_neg some, if_neg above, if_neg below, if_pos le_rfl]
  rfl

theorem nonneg_ofNat (n : ℕ) : Nonneg (Float.ofNat n) := by
  rcases lt_or_ge n (2 ^ 53) with small | large
  · have same : n.toUInt64.toNat = n := toNat_toUInt64 (by omega)
    rw [ofNat_of_lt small]
    exact (is_natural (by omega)).mul_nonneg is_one
  · have some : 0 < n := by omega
    rw [ofNat_of_le large]
    refine nonneg_of_rounded (rounded_roundWithAccuracy .positive (approximates_exact _) ?_)
    rw [Nat.mul_one, log2_shiftLeft some]
    omega

end ScreenScript.Double
