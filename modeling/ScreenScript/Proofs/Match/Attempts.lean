import ScreenScript.Match.Find
import ScreenScript.Proofs.Match.BestWindow
import ScreenScript.Proofs.Number.Exact

/-!
# Attempts

A search tries a template at up to three sizes, on one pyramid that grows from one attempt to the next. Each
attempt comes out as if it were made alone (`MatchAttempt.make_eq`, `MatchAttempt.makeResized_congr`). Which
attempts there are is said without the pyramid (`Template.Tries`): the sides of a resized template are the
nearest numbers of pixels (`MatchAttempt.ResizesTo`), and it is left out where these do not fit.
-/

namespace ScreenScript

open Double (Is IsNumber)

/-! ## Pyramids that grow -/

theorem base_bestWindow (p : Pyramid) (t : Gray) : (bestWindow p t).2.base = p.base := by
  unfold bestWindow
  split
  · rfl
  · dsimp only
    split
    · exact p.base_upTo _
    · exact p.base_upTo _

theorem bestWindow_congr {p q : Pyramid} (base : p.base = q.base) (t : Gray) :
    (bestWindow p t).1 = (bestWindow q t).1 := by
  have grown (n : ℕ) : (p.upTo n).base = (q.upTo n).base := by
    rw [p.base_upTo, q.base_upTo, base]
  unfold bestWindow
  simp only [Pyramid.level_upTo, base, apply_ite Prod.fst]
  rw [Window.descend_congr (grown _) _ _ _ (Nat.le_of_lt (q.lt_length_upTo _))]

/-! ## Sizes of templates -/

theorem Number.binaryFraction_spec {m num den : ℕ} {e : ℤ} (h : binaryFraction m e = (num, den)) :
    0 < den ∧ (m : ℚ) * 2 ^ e = num / den := by
  cases h
  refine ⟨Nat.pow_pos Nat.two_pos, ?_⟩
  rcases le_total 0 e with large | small
  · obtain ⟨k, rfl⟩ := Int.eq_ofNat_of_zero_le large
    simp
  · obtain ⟨k, rfl⟩ := Int.exists_eq_neg_ofNat small
    simp [zpow_neg, div_eq_mul_inv]

namespace MatchAttempt

/--
Whether a side of an image has length `n` after it is resized by a factor: the nearest natural number to
the product, the greater one of two, which is not 0.
-/
structure ResizesTo (side : ℕ) (factor : Float) (n : ℕ) : Prop where
  visible : 0 < n
  nearest : ∃ q, Is (Float.ofNat side * factor) .positive q ∧ (n : ℚ) - 1 / 2 ≤ q ∧ q < n + 1 / 2

theorem nearest_iff {m n num den : ℕ} {e : ℤ} (fraction : Number.binaryFraction m e = (num, den)) :
    (2 * num + den) / (2 * den) = n ↔ (n : ℚ) - 1 / 2 ≤ m * 2 ^ e ∧ (m : ℚ) * 2 ^ e < n + 1 / 2 := by
  obtain ⟨pos, value⟩ := Number.binaryFraction_spec fraction
  have cast_pos : (0 : ℚ) < den := by exact_mod_cast pos
  have low : n * (2 * den) ≤ 2 * num + den ↔ ((n : ℚ) - 1 / 2) * den ≤ num := by
    rw [← @Nat.cast_le ℚ]
    push_cast
    constructor <;> intro le <;> linarith
  have high : 2 * num + den < n * (2 * den) + 2 * den ↔ (num : ℚ) < (n + 1 / 2) * den := by
    rw [← @Nat.cast_lt ℚ]
    push_cast
    constructor <;> intro less <;> linarith
  rw [value, le_div_iff₀ cast_pos, div_lt_iff₀ cast_pos, ← low, ← high,
    Nat.div_eq_iff (Nat.mul_pos Nat.two_pos pos)]
  omega

theorem ResizesTo.exists_ofFloat {side n : ℕ} {factor : Float} (h : ResizesTo side factor n) :
    ∃ m e, Binary64.ofFloat (Float.ofNat side * factor) = .finite false m e := by
  obtain ⟨-, q, product, -⟩ := h
  obtain ⟨m, e, read, -⟩ := product.exists_ofFloat
  exact ⟨m, e, read⟩

theorem resizesTo_iff {side n m : ℕ} {factor : Float} {e : ℤ}
    (h : Binary64.ofFloat (Float.ofNat side * factor) = .finite false m e) :
    ResizesTo side factor n ↔
      0 < n ∧ (n : ℚ) - 1 / 2 ≤ m * 2 ^ e ∧ (m : ℚ) * 2 ^ e < n + 1 / 2 := by
  constructor
  · rintro ⟨visible, q, product, near⟩
    obtain ⟨m', e', read, rfl⟩ := product.exists_ofFloat
    rw [h] at read
    cases read
    exact ⟨visible, near⟩
  · rintro ⟨visible, near⟩
    obtain ⟨s, sign, product⟩ := Double.is_of_ofFloat h
    cases s with
    | positive => exact ⟨visible, _, product, near⟩
    | negative => cases sign

theorem resizedSide?_eq_some_iff {side n : ℕ} {factor : Float} :
    resizedSide? side factor = some n ↔ ResizesTo side factor n := by
  by_cases product : ∃ m e, Binary64.ofFloat (Float.ofNat side * factor) = .finite false m e
  · obtain ⟨m, e, read⟩ := product
    obtain ⟨num, den, fraction⟩ : ∃ num den, Number.binaryFraction m e = (num, den) := ⟨_, _, rfl⟩
    rw [resizesTo_iff read, ← nearest_iff fraction]
    simp only [resizedSide?, read, fraction]
    split
    case isTrue vanishes => simp [vanishes, Nat.pos_iff_ne_zero, eq_comm]
    case isFalse visible =>
      rw [Option.some_inj]
      exact ⟨fun same => ⟨same ▸ Nat.pos_of_ne_zero visible, same⟩, And.right⟩
  · refine iff_of_false (fun resized => ?_) fun h => product h.exists_ofFloat
    unfold resizedSide? at resized
    split at resized
    · exact product ⟨_, _, ‹_›⟩
    · cases resized

end MatchAttempt

/-! ## Single attempts -/

namespace MatchAttempt

def alone? (area image : Gray) (factor : Float) : Option MatchAttempt :=
  (bestWindow (Pyramid.ofImage area) image).1.map fun best => ⟨factor, image.size, best⟩

/--
What an attempt comes to with an image that is resized by a factor: it is left out if a side vanishes or is
longer than the area's.
-/
inductive Rescaled (area image : Gray) (factor : Float) : Option MatchAttempt → Prop
  | made {width height : ℕ} {a : MatchAttempt} (wide : ResizesTo image.width factor width)
    (high : ResizesTo image.height factor height) (fits : width ≤ area.width ∧ height ≤ area.height)
    (found : alone? area (Image.resize image width height) factor = some a) :
    Rescaled area image factor (some a)
  | leftOut (misfit : ∀ width height, ResizesTo image.width factor width →
      ResizesTo image.height factor height → ¬(width ≤ area.width ∧ height ≤ area.height)) :
    Rescaled area image factor none

def Within (a : MatchAttempt) (area : Size) : Prop :=
  a.best.window.corner.x + a.size.width ≤ area.width ∧
    a.best.window.corner.y + a.size.height ≤ area.height

section Alone

variable {p : Pyramid} {area image : Gray} {factor : Float} {a : MatchAttempt}

theorem base_make (p : Pyramid) (image : Gray) (factor : Float) :
    (make p image factor).2.base = p.base :=
  base_bestWindow p image

theorem base_makeResized (p : Pyramid) (image : Gray) (factor : Float) :
    (makeResized p image factor).2.base = p.base := by
  unfold makeResized
  split
  · split
    · rfl
    · exact base_make _ _ _
  · rfl

theorem make_eq (p : Pyramid) (image : Gray) (factor : Float) :
    (make p image factor).1 = alone? p.base image factor := by
  have same := bestWindow_congr (p := p) (q := Pyramid.ofImage p.base) rfl image
  unfold alone? make
  dsimp only
  rw [same]

theorem makeResized_congr {q : Pyramid} (base : p.base = q.base) (image : Gray) (factor : Float) :
    (makeResized p image factor).1 = (makeResized q image factor).1 := by
  unfold makeResized
  split
  · rw [base]
    split
    · rfl
    · rw [make_eq, make_eq, base]
  · rfl

theorem alone?_eq_none_iff : alone? area image factor = none ↔
    image.width = 0 ∨ image.height = 0 ∨ area.width < image.width ∨ area.height < image.height :=
  Option.map_eq_none_iff.trans (bestWindow_eq_none_iff (Pyramid.ofImage area) image)

theorem rescaled_makeResized (p : Pyramid) (image : Gray) (factor : Float) :
    Rescaled p.base image factor (makeResized p image factor).1 := by
  unfold makeResized
  split
  case h_1 width height wide high =>
    rw [resizedSide?_eq_some_iff] at wide high
    split
    case isTrue large =>
      refine .leftOut fun width' height' wide' high' fits => ?_
      rw [← resizedSide?_eq_some_iff] at wide high wide' high'
      rw [wide] at wide'
      rw [high] at high'
      cases wide'
      cases high'
      omega
    case isFalse small =>
      rw [make_eq]
      cases found : alone? p.base (Image.resize image width height) factor with
      | some a => exact .made wide high (by omega) found
      | none =>
          have visible := wide.visible
          have visible' := high.visible
          rw [alone?_eq_none_iff, Image.width_resize, Image.height_resize] at found
          omega
  case h_2 vanishes =>
    refine .leftOut fun width height wide high _ => ?_
    exact vanishes width height (resizedSide?_eq_some_iff.2 wide) (resizedSide?_eq_some_iff.2 high)

variable (width : area.width < 2 ^ 32) (height : area.height < 2 ^ 32)

include width height

theorem within_alone? (h : alone? area image factor = some a) : a.Within area.size := by
  obtain ⟨b, found, rfl⟩ := Option.map_eq_some_iff.1 h
  exact (isAt_of_bestWindow (p := Pyramid.ofImage area) width height found).fits

theorem isNumber_alone? (h : alone? area image factor = some a) : IsNumber a.score := by
  have fits : ¬(image.width = 0 ∨ image.height = 0 ∨ area.width < image.width ∨
      area.height < image.height) :=
    fun misfit => Option.some_ne_none a (h.symm.trans (alone?_eq_none_iff.2 misfit))
  obtain ⟨b, found, rfl⟩ := Option.map_eq_some_iff.1 h
  have located := isAt_of_bestWindow (p := Pyramid.ofImage area) width height found
  change IsNumber b.window.score
  rw [located.score]
  exact Needle.isNumber_scoreAt (by omega) (by omega) (by omega) _ _ _

end Alone

theorem mem_of_best? {attempts : List MatchAttempt} {a : MatchAttempt} (h : best? attempts = some a) :
    a ∈ attempts := by
  cases attempts with
  | nil => cases h
  | cons first rest =>
      cases h
      exact foldl_best_mem (fun best a : MatchAttempt => best.score < a.score) rest first

end MatchAttempt

/-! ## All attempts -/

namespace Template

theorem isNumber_threshold (t : Template) : IsNumber t.threshold := by
  obtain ⟨positive, -⟩ := Bool.and_eq_true_iff.1 t.isThreshold_threshold
  exact (Double.lt_iff_place.1 (of_decide_eq_true positive)).2.1

/--
Whether some attempts are those of a search in an area: one with the template as it is, and if this has no
window or too low a score, and the display is scaled, those with the template resized by the scale and by
its reciprocal.
-/
inductive Tries (t : Template) (area : Gray) (scale : Scale) : List MatchAttempt → Prop
  | native (content : (∃ a, MatchAttempt.alone? area t.image 1.0 = some a ∧ t.threshold ≤ a.score) ∨
      scale.isNative = true) :
    Tries t area scale (MatchAttempt.alone? area t.image 1.0).toList
  | rescaled {above below : Option MatchAttempt}
    (short : ∀ a, MatchAttempt.alone? area t.image 1.0 = some a → a.score < t.threshold)
    (scaled : scale.isNative = false) (larger : MatchAttempt.Rescaled area t.image scale.value above)
    (smaller : MatchAttempt.Rescaled area t.image (1.0 / scale.value) below) :
    Tries t area scale
      ((MatchAttempt.alone? area t.image 1.0).toList ++ above.toList ++ below.toList)

def rescaled (area image : Gray) (scale : Scale) : List MatchAttempt :=
  (MatchAttempt.makeResized (Pyramid.ofImage area) image scale.value).1.toList ++
    (MatchAttempt.makeResized (Pyramid.ofImage area) image (1.0 / scale.value)).1.toList

variable {t : Template} {area : Gray} {scale : Scale}

theorem attempts_eq (t : Template) (area : Gray) (scale : Scale) :
    t.attempts area scale =
      if ((MatchAttempt.alone? area t.image 1.0).any fun a => Match.meets a.score t.threshold) ||
          scale.isNative then (MatchAttempt.alone? area t.image 1.0).toList
      else (MatchAttempt.alone? area t.image 1.0).toList ++ rescaled area t.image scale := by
  obtain ⟨native, grown, made⟩ : ∃ native grown,
      MatchAttempt.make (Pyramid.ofImage area) t.image 1.0 = (native, grown) := ⟨_, _, rfl⟩
  have alone := MatchAttempt.make_eq (Pyramid.ofImage area) t.image 1.0
  have base := MatchAttempt.base_make (Pyramid.ofImage area) t.image 1.0
  rw [made] at alone base
  change native = MatchAttempt.alone? area t.image 1.0 at alone
  have base' := (MatchAttempt.base_makeResized grown t.image scale.value).trans base
  unfold attempts
  simp only [made, alone, MatchAttempt.makeResized_congr base, MatchAttempt.makeResized_congr base']
  rw [rescaled, List.append_assoc]

theorem exists_alone?_of_mem_attempts {a : MatchAttempt} (mem : a ∈ t.attempts area scale) :
    ∃ image factor, MatchAttempt.alone? area image factor = some a := by
  have native (mem : a ∈ (MatchAttempt.alone? area t.image 1.0).toList) :
      ∃ image factor, MatchAttempt.alone? area image factor = some a :=
    ⟨_, _, Option.mem_toList.1 mem⟩
  have resized {factor : Float}
      (mem : a ∈ (MatchAttempt.makeResized (Pyramid.ofImage area) t.image factor).1.toList) :
      ∃ image factor, MatchAttempt.alone? area image factor = some a := by
    have comes := MatchAttempt.rescaled_makeResized (Pyramid.ofImage area) t.image factor
    rw [Option.mem_toList.1 mem] at comes
    cases comes with
    | made wide high fits found => exact ⟨_, _, found⟩
  rw [attempts_eq] at mem
  split at mem
  · exact native mem
  · rcases List.mem_append.1 mem with same | other
    · exact native same
    · exact (List.mem_append.1 other).elim resized resized

section Sizes

variable (width : area.width < 2 ^ 32) (height : area.height < 2 ^ 32)

include width height

theorem within_of_mem_attempts {a : MatchAttempt} (mem : a ∈ t.attempts area scale) :
    a.Within area.size := by
  obtain ⟨image, factor, made⟩ := exists_alone?_of_mem_attempts mem
  exact MatchAttempt.within_alone? width height made

theorem isNumber_of_mem_attempts {a : MatchAttempt} (mem : a ∈ t.attempts area scale) :
    IsNumber a.score := by
  obtain ⟨image, factor, made⟩ := exists_alone?_of_mem_attempts mem
  exact MatchAttempt.isNumber_alone? width height made

end Sizes

end Template

end ScreenScript
