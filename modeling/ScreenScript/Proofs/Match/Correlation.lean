import ScreenScript.Proofs.Match.SummedArea

/-!
# Scores are correlations

In exact arithmetic the sums that a window is scored by are those of the deviations of its pixels and of
the template's from their means, although only the template is centred. So a score is a correlation
(`Needle.Correlates`): it is at most one before it is limited, and a copy of the template scores one.
-/

namespace ScreenScript

open Finset (range)
open scoped BigOperators

noncomputable instance : Scalar ℝ where
  ofNat n := n
  sqrt := Real.sqrt
  decideLt _ _ := inferInstance

/-! ## Deviations from means -/

section Deviations

variable {ι : Type} (s : Finset ι) (f g : ι → ℚ)

def covariation : ℚ :=
  ∑ i ∈ s, (f i - 𝔼 j ∈ s, f j) * (g i - 𝔼 j ∈ s, g j)

theorem sum_sub_expect : ∑ i ∈ s, (f i - 𝔼 j ∈ s, f j) = 0 := by
  rw [Finset.sum_sub_distrib, Finset.sum_const, Finset.card_smul_expect, sub_self]

theorem sum_mul_sub_expect : ∑ i ∈ s, f i * (g i - 𝔼 j ∈ s, g j) = covariation s f g := by
  have centred : ∑ i ∈ s, (𝔼 j ∈ s, f j) * (g i - 𝔼 j ∈ s, g j) = 0 := by
    rw [← Finset.mul_sum, sum_sub_expect, mul_zero]
  simp only [covariation, sub_mul (f _)]
  rw [Finset.sum_sub_distrib, centred, sub_zero]

theorem sum_sq_sub : ∑ i ∈ s, f i ^ 2 - (∑ i ∈ s, f i) * (∑ i ∈ s, f i) / s.card =
    covariation s f f := by
  rw [← sum_mul_sub_expect]
  simp only [mul_sub, Finset.sum_sub_distrib, ← Finset.sum_mul, Finset.expect_eq_sum_div_card, sq,
    mul_div_assoc]

theorem covariation_self_nonneg : 0 ≤ covariation s f f :=
  Finset.sum_nonneg fun _ _ => mul_self_nonneg _

theorem covariation_sq_le : covariation s f g ^ 2 ≤ covariation s f f * covariation s g g := by
  simpa only [covariation, sq] using
    Finset.sum_mul_sq_le_sq_mul_sq s (fun i => f i - 𝔼 j ∈ s, f j) fun i => g i - 𝔼 j ∈ s, g j

variable {s f g} {f' g' : ι → ℚ}

theorem covariation_congr (left : ∀ i ∈ s, f i = f' i) (right : ∀ i ∈ s, g i = g' i) :
    covariation s f g = covariation s f' g' := by
  rw [covariation, Finset.expect_congr rfl left, Finset.expect_congr rfl right]
  exact Finset.sum_congr rfl fun i mem => by rw [left i mem, right i mem]

end Deviations

/-! ## Sums over pixels -/

section Sums

variable {M : Type} [AddCommMonoid M]

theorem sum_range_mul (width height : Nat) (f : Nat → M) :
    ∑ k ∈ range (width * height), f k =
      ∑ p ∈ range width ×ˢ range height, f (p.2 * width + p.1) := by
  rw [Finset.sum_product_right]
  induction height with
  | zero => simp
  | succ height ih =>
      rw [Nat.mul_succ, Finset.sum_range_add, ih, Finset.sum_range_succ]
      simp only [Nat.mul_comm width]

theorem foldl_add_eq_sum {β : Type} (xs : Array β) (g : β → M) (d : β) :
    xs.foldl (fun sum v => sum + g v) 0 = ∑ k ∈ range xs.size, g (xs.getD k d) := by
  have list (vs : List β) :
      vs.foldl (fun sum v => sum + g v) 0 = ∑ k ∈ range vs.length, g (vs.getD k d) := by
    induction vs using List.reverseRecOn with
    | nil => rfl
    | append_singleton vs v ih =>
        have earlier : ∀ k ∈ range vs.length, g ((vs ++ [v]).getD k d) = g (vs.getD k d) :=
          fun k mem => by rw [List.getD_append _ _ _ _ (Finset.mem_range.1 mem)]
        rw [List.foldl_append, List.length_append, List.length_singleton, Finset.sum_range_succ, ih,
          Finset.sum_congr rfl earlier, List.getD_append_right _ _ _ _ le_rfl, Nat.sub_self]
        rfl
  simpa [← Array.foldl_toList, Array.getD_eq_getD_getElem?, List.getD_eq_getElem?_getD] using
    list xs.toList

end Sums

/-! ## Windows -/

def Gray.cells (image : Gray) : Finset (Nat × Nat) :=
  range image.width ×ˢ range image.height

def Gray.brightness (image : Gray) (x y : Nat) (p : Nat × Nat) : ℚ :=
  (image.get (x + p.1) (y + p.2)).toNat

namespace Needle

theorem sumTo_eq_sum (n : Nat) (f : Nat → ℝ) : sumTo n f = ∑ i ∈ range n, f i := by
  induction n with
  | zero => exact Nat.cast_zero
  | succ n ih => rw [sumTo_succ, ih, Finset.sum_range_succ]

section Template

variable (t : Gray)

theorem card_cells : t.cells.card = t.width * t.height := by
  rw [Gray.cells, Finset.card_product, Finset.card_range, Finset.card_range]

theorem mean_ofImage :
    (ofImage t : Needle ℝ).mean = ((𝔼 p ∈ t.cells, t.brightness 0 0 p : ℚ) : ℝ) := by
  have total : t.pixels.foldl (fun sum p => sum + p.toNat) 0 =
      ∑ p ∈ t.cells, (t.get (0 + p.1) (0 + p.2)).toNat := by
    rw [foldl_add_eq_sum _ _ default, t.size_pixels, sum_range_mul]
    simp only [Nat.zero_add]
    rfl
  change ((t.pixels.foldl (fun sum p => sum + p.toNat) 0 : ℕ) : ℝ) /
    ((max t.pixels.size 1 : ℕ) : ℝ) = _
  rw [total, Finset.expect_eq_sum_div_card, t.size_pixels, ← card_cells]
  rcases t.cells.eq_empty_or_nonempty with none | some
  · simp [none]
  · rw [max_eq_left some.card_pos]
    push_cast
    rfl

theorem getD_centred {p : Nat × Nat} (mem : p ∈ t.cells) (d : ℝ) :
    (ofImage t : Needle ℝ).centred.getD (p.2 * t.width + p.1) d =
      ((t.brightness 0 0 p - 𝔼 q ∈ t.cells, t.brightness 0 0 q : ℚ) : ℝ) := by
  obtain ⟨column, row⟩ := Finset.mem_product.1 mem
  have inside : p.2 * t.width + p.1 < t.pixels.size := by
    rw [t.size_pixels]
    exact Raster.index_lt (Finset.mem_range.1 column) (Finset.mem_range.1 row)
  have pixel : t.pixels[p.2 * t.width + p.1] = t.get (0 + p.1) (0 + p.2) := by
    rw [Raster.get, Array.getD_eq_getD_getElem?, Nat.zero_add, Nat.zero_add,
      Array.getElem?_eq_getElem inside]
    rfl
  change (t.pixels.map fun p => ((p.toNat : ℕ) : ℝ) - (ofImage t : Needle ℝ).mean).getD _ d = _
  rw [Array.getD_eq_getD_getElem?, Array.getElem?_map, Array.getElem?_eq_getElem inside, pixel,
    mean_ofImage, Rat.cast_sub, Gray.brightness, Rat.cast_natCast]
  rfl

theorem energy_ofImage : (ofImage t : Needle ℝ).energy =
    (covariation t.cells (t.brightness 0 0) (t.brightness 0 0) : ℚ) := by
  have size : (ofImage t : Needle ℝ).centred.size = t.width * t.height :=
    Array.size_map.trans t.size_pixels
  change (ofImage t : Needle ℝ).centred.foldl (fun sum v => sum + v * v) ((0 : ℕ) : ℝ) = _
  rw [Nat.cast_zero, foldl_add_eq_sum _ _ 0, size, sum_range_mul, covariation, Rat.cast_sum]
  refine Finset.sum_congr rfl fun p mem => ?_
  rw [getD_centred t mem, Rat.cast_mul]

end Template

section Window

variable (t image : Gray) (x y : Nat)

theorem cross_ofImage : (ofImage t : Needle ℝ).cross image x y =
    (covariation t.cells (image.brightness x y) (t.brightness 0 0) : ℚ) := by
  have sums : (ofImage t : Needle ℝ).cross image x y = ∑ p ∈ t.cells,
      ((image.get (x + p.1) (y + p.2)).toNat : ℝ) *
        (ofImage t : Needle ℝ).centred.getD (p.2 * t.width + p.1) ((0 : ℕ) : ℝ) := by
    rw [Gray.cells, Finset.sum_product_right, cross, sumTo_eq_sum]
    exact Finset.sum_congr rfl fun j _ => sumTo_eq_sum _ _
  rw [sums, ← sum_mul_sub_expect, Rat.cast_sum]
  refine Finset.sum_congr rfl fun p mem => ?_
  have pixel : (image.brightness x y p : ℝ) = (image.get (x + p.1) (y + p.2)).toNat :=
    Rat.cast_natCast _
  rw [getD_centred t mem, Rat.cast_mul, pixel]

theorem windowSum_ofImage (f : Nat → Nat) : (ofImage t : Needle ℝ).windowSum image x y f =
    ∑ p ∈ t.cells, f (image.get (x + p.1) (y + p.2)).toNat := by
  rw [windowSum_eq, Gray.cells, Finset.sum_product_right]
  rfl

noncomputable def deviationsAt (n : Needle ℝ) (image : Gray) (x y : Nat) : ℝ :=
  n.windowSum image x y (fun v => v * v) -
    n.windowSum image x y id * n.windowSum image x y id / (n.width * n.height : ℕ)

noncomputable def varianceAt (n : Needle ℝ) (image : Gray) (x y : Nat) : ℝ :=
  n.variance (n.windowSum image x y id) (n.windowSum image x y fun v => v * v)

noncomputable def correlationAt (n : Needle ℝ) (image : Gray) (x y : Nat) : ℝ :=
  n.correlation image x y (n.windowSum image x y id) (n.windowSum image x y fun v => v * v)

theorem deviationsAt_ofImage : (ofImage t : Needle ℝ).deviationsAt image x y =
    (covariation t.cells (image.brightness x y) (image.brightness x y) : ℚ) := by
  change _ - _ / ((t.width * t.height : ℕ) : ℝ) = _
  rw [windowSum_ofImage, windowSum_ofImage, ← card_cells, ← sum_sq_sub]
  simp only [id, sq, Gray.brightness]
  push_cast
  rfl

theorem deviationsAt_nonneg : 0 ≤ (ofImage t : Needle ℝ).deviationsAt image x y := by
  rw [deviationsAt_ofImage]
  exact_mod_cast covariation_self_nonneg t.cells (image.brightness x y)

theorem varianceAt_eq : (ofImage t : Needle ℝ).varianceAt image x y =
    (ofImage t : Needle ℝ).deviationsAt image x y :=
  if_neg (not_lt.2 (Nat.cast_zero.trans_le (deviationsAt_nonneg t image x y)))

theorem cross_sq_le : (ofImage t : Needle ℝ).cross image x y ^ 2 ≤
    (ofImage t : Needle ℝ).varianceAt image x y * (ofImage t : Needle ℝ).energy := by
  rw [cross_ofImage, varianceAt_eq, deviationsAt_ofImage, energy_ofImage]
  exact_mod_cast covariation_sq_le t.cells (image.brightness x y) (t.brightness 0 0)

theorem distance_nonneg (a b : ℝ) : 0 ≤ Scalar.distance a b := by
  unfold Scalar.distance
  split
  · exact sub_nonneg.2 (le_of_lt ‹_›)
  · exact sub_nonneg.2 (not_lt.1 ‹_›)

theorem correlationAt_le_one : (ofImage t : Needle ℝ).correlationAt image x y ≤ 1 := by
  have zero : ((0 : ℕ) : ℝ) ≤ 1 := by simp
  have close (a b : ℝ) : ((1 : ℕ) : ℝ) - Scalar.distance a b / (255 : ℕ) ≤ 1 :=
    (sub_le_self _ (div_nonneg (distance_nonneg a b) (Nat.cast_nonneg _))).trans_eq Nat.cast_one
  unfold correlationAt correlation
  dsimp only
  split
  · split
    · exact close _ _
    · exact zero
  · split
    · exact zero
    · have least := (le_abs_self _).trans (Real.abs_le_sqrt (cross_sq_le t image x y))
      exact div_le_one_of_le₀ least (Real.sqrt_nonneg _)

theorem scoreAt_le_one : (ofImage t : Needle ℝ).scoreAt image x y ≤ 1 := by
  have limited (a : ℝ) : Scalar.clamp ((0 : ℕ) : ℝ) (1 : ℕ) a ≤ 1 := by
    unfold Scalar.clamp
    split
    · simp
    · split
      · exact Nat.cast_one.le
      · rw [← Nat.cast_one]
        exact not_lt.1 ‹_›
  exact limited _

variable {t image x y}

def IsCopy (t image : Gray) (x y : Nat) : Prop :=
  ∀ p ∈ t.cells, image.get (x + p.1) (y + p.2) = t.get p.1 p.2

instance : Decidable (IsCopy t image x y) :=
  inferInstanceAs (Decidable (∀ p ∈ t.cells, image.get (x + p.1) (y + p.2) = t.get p.1 p.2))

theorem IsCopy.brightness (copy : IsCopy t image x y) {p : Nat × Nat} (mem : p ∈ t.cells) :
    image.brightness x y p = t.brightness 0 0 p := by
  rw [Gray.brightness, Gray.brightness, copy p mem, Nat.zero_add, Nat.zero_add]

theorem correlationAt_of_uneven {n : Needle ℝ} (uneven : flatness ≤ n.energy)
    (varied : flatness * (n.width * n.height : ℕ) ≤ n.varianceAt image x y) :
    n.correlationAt image x y =
      n.cross image x y / Real.sqrt (n.varianceAt image x y * n.energy) := by
  unfold correlationAt correlation
  dsimp only
  rw [if_neg (not_lt.2 uneven)]
  exact if_neg (not_lt.2 varied)

theorem flatness_pos : (0 : ℝ) < flatness :=
  div_pos (Nat.cast_pos.2 one_pos) (Nat.cast_pos.2 (by norm_num))

theorem correlationAt_copy (copy : IsCopy t image x y)
    (uneven : flatness ≤ (ofImage t : Needle ℝ).energy)
    (varied : flatness * (t.width * t.height : ℕ) ≤ (ofImage t : Needle ℝ).varianceAt image x y) :
    (ofImage t : Needle ℝ).correlationAt image x y = 1 := by
  have pixels : ∀ p ∈ t.cells, image.brightness x y p = t.brightness 0 0 p :=
    fun _ => copy.brightness
  have cross : (ofImage t : Needle ℝ).cross image x y = (ofImage t : Needle ℝ).energy := by
    rw [cross_ofImage, energy_ofImage, covariation_congr pixels fun _ _ => rfl]
  have variance : (ofImage t : Needle ℝ).varianceAt image x y = (ofImage t : Needle ℝ).energy := by
    rw [varianceAt_eq, deviationsAt_ofImage, energy_ofImage, covariation_congr pixels pixels]
  have energy : 0 < (ofImage t : Needle ℝ).energy := flatness_pos.trans_le uneven
  rw [correlationAt_of_uneven uneven varied, cross, variance, Real.sqrt_mul_self energy.le,
    div_self energy.ne']

theorem scoreAt_of_correlationAt (one : (ofImage t : Needle ℝ).correlationAt image x y = 1) :
    (ofImage t : Needle ℝ).scoreAt image x y = 1 := by
  change Scalar.clamp ((0 : ℕ) : ℝ) (1 : ℕ) ((ofImage t : Needle ℝ).correlationAt image x y) = 1
  rw [one, Nat.cast_zero, Nat.cast_one, Scalar.clamp, if_neg (by simp), if_neg (lt_irrefl _)]

end Window

/-- What the score of the window at `(x, y)` is made of, in exact arithmetic. -/
structure Correlates (t image : Gray) (x y : Nat) : Prop where
  /-- Only the template is centred, but the deviations of both are multiplied. -/
  cross : (ofImage t : Needle ℝ).cross image x y =
    (covariation t.cells (image.brightness x y) (t.brightness 0 0) : ℚ)
  energy : (ofImage t : Needle ℝ).energy =
    (covariation t.cells (t.brightness 0 0) (t.brightness 0 0) : ℚ)
  deviations : (ofImage t : Needle ℝ).deviationsAt image x y =
    (covariation t.cells (image.brightness x y) (image.brightness x y) : ℚ)
  nonneg : 0 ≤ (ofImage t : Needle ℝ).deviationsAt image x y
  /-- The limit at zero leaves the deviations as they are. -/
  variance : (ofImage t : Needle ℝ).varianceAt image x y =
    (ofImage t : Needle ℝ).deviationsAt image x y
  cross_sq : (ofImage t : Needle ℝ).cross image x y ^ 2 ≤
    (ofImage t : Needle ℝ).varianceAt image x y * (ofImage t : Needle ℝ).energy
  atMost : (ofImage t : Needle ℝ).correlationAt image x y ≤ 1
  /-- A copy of a template that is not flat has the highest score of all windows. -/
  copy : IsCopy t image x y → flatness ≤ (ofImage t : Needle ℝ).energy →
    flatness * (t.width * t.height : ℕ) ≤ (ofImage t : Needle ℝ).varianceAt image x y →
    (ofImage t : Needle ℝ).correlationAt image x y = 1 ∧
      (ofImage t : Needle ℝ).scoreAt image x y = 1 ∧
      ∀ other x' y', (ofImage t : Needle ℝ).scoreAt other x' y' ≤
        (ofImage t : Needle ℝ).scoreAt image x y

/-- The score of a window is the correlation of its pixels with those of the template. -/
theorem score_correlates (t image : Gray) (x y : Nat) : Correlates t image x y where
  cross := cross_ofImage t image x y
  energy := energy_ofImage t
  deviations := deviationsAt_ofImage t image x y
  nonneg := deviationsAt_nonneg t image x y
  variance := varianceAt_eq t image x y
  cross_sq := cross_sq_le t image x y
  atMost := correlationAt_le_one t image x y
  copy copied uneven varied := by
    have one := correlationAt_copy copied uneven varied
    have score := scoreAt_of_correlationAt one
    exact ⟨one, score, fun other x' y' => (scoreAt_le_one t other x' y').trans_eq score.symm⟩

theorem score_correlates_edge :
    let t : Gray := .generate 2 1 fun x _ => if x = 0 then 0 else 2
    let image : Gray := .generate 3 1 fun x _ => if x = 1 then 0 else 2
    (ofImage t : Needle ℝ).scoreAt image 1 0 = 1 ∧
      (ofImage t : Needle ℝ).scoreAt image 0 0 ≤ (ofImage t : Needle ℝ).scoreAt image 1 0 := by
  intro t image
  have correlates := score_correlates t image 1 0
  have pixels : IsCopy t image 1 0 := by decide
  have energy : (ofImage t : Needle ℝ).energy = 2 := by
    have two : covariation t.cells (t.brightness 0 0) (t.brightness 0 0) = 2 := by decide +kernel
    rw [correlates.energy, two, Rat.cast_ofNat]
  have variance : (ofImage t : Needle ℝ).varianceAt image 1 0 = 2 := by
    have two : covariation t.cells (image.brightness 1 0) (image.brightness 1 0) = 2 := by
      decide +kernel
    rw [correlates.variance, correlates.deviations, two, Rat.cast_ofNat]
  have flat : (flatness : ℝ) = 1 / 1000000 := by
    change ((1 : ℕ) : ℝ) / (1000000 : ℕ) = _
    norm_num
  obtain ⟨-, one, best⟩ := correlates.copy pixels (by rw [energy, flat]; norm_num) (by
    change flatness * ((2 : ℕ) : ℝ) ≤ _
    rw [variance, flat]
    norm_num)
  exact ⟨one, best image 0 0⟩

end Needle

end ScreenScript
