import ScreenScript.Proofs.Match.Checked

namespace ScreenScript

open Peaks (Placement placement)

/-! ## Reduced images -/

namespace Image

theorem width_resize (image : Gray) (width height : Nat) :
    (resize image width height).width = width := by
  unfold resize
  split
  · rename_i same
    exact same.1
  · rfl

theorem height_resize (image : Gray) (width height : Nat) :
    (resize image width height).height = height := by
  unfold resize
  split
  · rename_i same
    exact same.2
  · rfl

theorem width_halve (image : Gray) : (halve image).width = max (image.width / 2) 1 :=
  width_resize _ _ _

theorem height_halve (image : Gray) : (halve image).height = max (image.height / 2) 1 :=
  height_resize _ _ _

theorem fits_iff {template image : Gray} :
    Gray.fits template image = true ↔ 0 < template.width ∧ 0 < template.height ∧
      template.width ≤ image.width ∧ template.height ≤ image.height := by
  simp [Gray.fits, and_assoc]

theorem fits_reduce {template image : Gray} (h : Gray.fits template image = true) (n : Nat) :
    Gray.fits (reduce template n) (reduce image n) = true := by
  induction n with
  | zero => exact h
  | succ n ih =>
      obtain ⟨-, -, width, height⟩ := fits_iff.1 ih
      rw [fits_iff]
      simp only [reduce, width_halve, height_halve]
      omega

end Image

namespace Pyramid

theorem base_growBy (p : Pyramid) (n : Nat) : (p.growBy n).base = p.base := by
  induction n with
  | zero => rfl
  | succ n ih => exact ih

theorem base_upTo (p : Pyramid) (n : Nat) : (p.upTo n).base = p.base :=
  p.base_growBy _

theorem level_upTo (p : Pyramid) (n : Nat) {k : Nat} (made : k < (p.upTo n).made.length) :
    (p.upTo n).level k made = Image.reduce p.base k := by
  rw [level_eq, base_upTo]

end Pyramid

theorem seed_lt {scores : Array Float} {columns radius count : Nat} {q : Placement}
    (mem : q ∈ peaks (scores.map Float.toBits) columns radius count) :
    q.y * columns + q.x < scores.size := by
  obtain ⟨i, inside, rfl⟩ := exists_of_mem_peaks mem
  rw [Array.size_map] at inside
  have index : i / columns * columns + i % columns = i := Nat.div_add_mod' i columns
  exact index.trans_lt inside

section Search

open Window

variable {p : Pyramid} {t : Gray} (fits : Gray.fits t p.base = true)

include fits

theorem needle_le_reduce (n : Nat) :
    (Needle.ofImage (Image.reduce t n) : Needle Float).width ≤ (Image.reduce p.base n).width ∧
      (Needle.ofImage (Image.reduce t n) : Needle Float).height ≤ (Image.reduce p.base n).height :=
  (Image.fits_iff.1 (Image.fits_reduce fits n)).2.2

theorem bestWindow?_eq_of_fits : bestWindow? p t = some (bestWindow p t) := by
  obtain ⟨-, -, width, height⟩ := Image.fits_iff.1 fits
  have level : searchLevel? p.base.size t.size = some (searchLevel p.base.size t.size) :=
    searchLevel?_eq width height
  have complete (n : Nat) : (Needle.ofImage (Image.reduce t n) : Needle Float).Complete :=
    Needle.complete_ofImage _
  obtain ⟨top, htop⟩ : ∃ top, searchLevel p.base.size t.size = top := ⟨_, rfl⟩
  obtain ⟨width', height'⟩ := needle_le_reduce fits top
  have map := Needle.scoreMap?_eq (complete top) width' height'
  have descended := descend?_eq (p := p.upTo top) complete
    (by simpa only [Pyramid.base_upTo] using fun n => (needle_le_reduce fits n).1)
    (by simpa only [Pyramid.base_upTo] using fun n => (needle_le_reduce fits n).2) top
    (Nat.le_of_lt (p.lt_length_upTo top))
  have read := Pyramid.level?_eq (p.lt_length_upTo top)
  have seeds (columns radius : Nat) (scores : Array Float) :
      (peaks (scores.map Float.toBits) columns radius maxSeeds).mapM (fun q =>
        (scores[q.y * columns + q.x]?).bind fun score => pure (Window.mk q score)) =
      some ((peaks (scores.map Float.toBits) columns radius maxSeeds).map fun q =>
        Window.mk q (scores.getD (q.y * columns + q.x) 0.0)) := by
    refine mapM_eq_some_map fun q mem => ?_
    rw [getElem?_eq_getD (seed_lt mem) 0.0]
    rfl
  unfold bestWindow? bestWindow
  simp only [fits, level, htop, Bool.not_true, Bool.false_eq_true, if_false, Option.bind_eq_bind,
    Option.bind_some, read, Pyramid.level_upTo, map, difference?_eq width', apply_ite some]
  refine if_congr Iff.rfl rfl ?_
  rw [seeds, Option.bind_some, descended]
  rfl

theorem bestWindow_of_level_zero (level : searchLevel p.base.size t.size = 0) :
    (bestWindow p t).1 = (scan ((Needle.ofImage t).scoreMap p.base)
      ((Needle.ofImage t : Needle Float).columns p.base)).map fun window => ⟨window, none⟩ := by
  unfold bestWindow
  simp only [fits, level, Bool.not_true, Bool.false_eq_true, if_false, Pyramid.level_upTo, if_true]
  rfl

theorem exists_bestWindow_of_level_succ {k : Nat} (level : searchLevel p.base.size t.size = k + 1) :
    ∃ seeds coarse?, seeds ≠ [] ∧ (bestWindow p t).1 =
      (preferred (descend (p.upTo (k + 1)) (fun n => Needle.ofImage (Image.reduce t n)) (k + 1)
        (Nat.le_of_lt (p.lt_length_upTo _)) seeds)).map fun window => ⟨window, coarse?⟩ := by
  unfold bestWindow
  simp only [fits, level, Bool.not_true, Bool.false_eq_true, if_false, Pyramid.level_upTo,
    Nat.succ_ne_zero]
  refine ⟨_, _, fun none => ?_, rfl⟩
  have entries : 0 < ((Needle.ofImage (Image.reduce t (k + 1)) : Needle Float).scoreMap
      (Image.reduce p.base (k + 1))).size := by
    rw [Needle.size_scoreMap]
    exact Nat.mul_pos (Nat.succ_pos _) (Nat.succ_pos _)
  exact peaks_ne_nil (Array.size_map.trans_gt entries) _ _ _ (List.map_eq_nil_iff.1 none)

theorem isSome_bestWindow : (bestWindow p t).1.isSome := by
  cases level : searchLevel p.base.size t.size with
  | zero =>
      rw [bestWindow_of_level_zero fits level, Option.isSome_map]
      exact isSome_scan
  | succ k =>
      obtain ⟨seeds, coarse?, seeded, eq⟩ := exists_bestWindow_of_level_succ fits level
      rw [eq, Option.isSome_map]
      apply isSome_preferred
      rw [← List.length_pos_iff, length_descend]
      exact List.length_pos_iff.2 seeded

theorem isAt_of_fits (wide : t.width < 2 ^ 32) (high : t.height < 2 ^ 32) {b : BestWindow}
    (h : (bestWindow p t).1 = some b) : b.window.IsAt (Needle.ofImage t) p.base := by
  obtain ⟨pos, pos', width, height⟩ := Image.fits_iff.1 fits
  cases level : searchLevel p.base.size t.size with
  | zero =>
      rw [bestWindow_of_level_zero fits level] at h
      obtain ⟨w, best, rfl⟩ := Option.map_eq_some_iff.1 h
      exact isAt_of_scan width height best
  | succ k =>
      obtain ⟨seeds, coarse?, -, eq⟩ := exists_bestWindow_of_level_succ fits level
      rw [eq] at h
      obtain ⟨w, best, rfl⟩ := Option.map_eq_some_iff.1 h
      have numbers (x y : Nat) : lowest < (Needle.ofImage t : Needle Float).scoreAt p.base x y :=
        Needle.lowest_lt_score ⟨pos, pos'⟩ wide high p.base x y _ _
      have located := @isAt_of_mem_descend (p.upTo (k + 1))
        (fun n => Needle.ofImage (Image.reduce t n))
      rw [p.base_upTo] at located
      exact located width height numbers k _ seeds w (mem_of_preferred best)

end Search

theorem bestWindow?_eq (p : Pyramid) (t : Gray) : bestWindow? p t = some (bestWindow p t) := by
  by_cases fits : Gray.fits t p.base = true
  · exact bestWindow?_eq_of_fits fits
  · unfold bestWindow? bestWindow
    rw [Bool.not_eq_true] at fits
    simp only [fits, Bool.not_false, if_true]
    rfl

theorem bestWindow_eq_none_iff (p : Pyramid) (t : Gray) :
    (bestWindow p t).1 = none ↔ t.width = 0 ∨ t.height = 0 ∨ p.base.width < t.width ∨
      p.base.height < t.height := by
  by_cases fits : Gray.fits t p.base = true
  · have found := Option.isSome_iff_ne_none.1 (isSome_bestWindow fits)
    obtain ⟨pos, pos', width, height⟩ := Image.fits_iff.1 fits
    constructor
    · exact fun none => absurd none found
    · omega
  · have missed : (bestWindow p t).1 = none := by
      unfold bestWindow
      rw [Bool.not_eq_true] at fits
      simp only [fits, Bool.not_false, if_true]
    rw [Image.fits_iff] at fits
    constructor
    · omega
    · exact fun _ => missed

theorem isAt_of_bestWindow {p : Pyramid} {t : Gray} (width : p.base.width < 2 ^ 32)
    (height : p.base.height < 2 ^ 32) {b : BestWindow} (h : (bestWindow p t).1 = some b) :
    b.window.IsAt (Needle.ofImage t) p.base := by
  have possible : ¬(t.width = 0 ∨ t.height = 0 ∨ p.base.width < t.width ∨
      p.base.height < t.height) := by
    rw [← bestWindow_eq_none_iff, h]
    exact Option.some_ne_none b
  exact isAt_of_fits (Image.fits_iff.2 (by omega)) (by omega) (by omega) h

/--
The search for the best window is in bounds and honest, scanned or led down a pyramid: it finds none only if
the template has no pixel or does not fit, and else one in the image, with the score of its pixels. None of
its differences of sizes is negative, and none of its reads leaves an image or a table.
-/
theorem bestWindow_exact (p : Pyramid) (t : Gray) (width : p.base.width < 2 ^ 32)
    (height : p.base.height < 2 ^ 32) :
    ((bestWindow p t).1 = none ↔ t.width = 0 ∨ t.height = 0 ∨ p.base.width < t.width ∨
      p.base.height < t.height) ∧
    (∀ b, (bestWindow p t).1 = some b →
      b.window.corner.x + t.width ≤ p.base.width ∧ b.window.corner.y + t.height ≤ p.base.height ∧
      b.window.score = (Needle.ofImage t : Needle Float).scoreAt p.base b.window.corner.x
        b.window.corner.y) ∧
    bestWindow? p t = some (bestWindow p t) := by
  refine ⟨bestWindow_eq_none_iff p t, fun b found => ?_, bestWindow?_eq p t⟩
  have located := isAt_of_bestWindow width height found
  exact ⟨located.fits.1, located.fits.2, located.score⟩

theorem bestWindow_exact_led :
    let image := Raster.generate 128 128 fun x y => UInt8.ofNat (x * y)
    let template := image.crop ⟨30, 40, 64, 64⟩
    Window.searchLevel image.size template.size = 1 ∧
      bestWindow? (.ofImage image) template = some (bestWindow (.ofImage image) template) ∧
      ∃ b, (bestWindow (.ofImage image) template).1 = some b ∧ b.window.corner.x ≤ 64 ∧
        b.window.corner.y ≤ 64 := by
  intro image template
  obtain ⟨none_iff, found, checked⟩ :=
    bestWindow_exact (.ofImage image) template (by decide) (by decide)
  refine ⟨by decide, checked, ?_⟩
  cases best : (bestWindow (.ofImage image) template).1 with
  | none => exact absurd (none_iff.1 best) (by decide)
  | some b =>
      obtain ⟨right, bottom, -⟩ := found b best
      exact ⟨b, rfl, Nat.le_of_add_le_add_right right, Nat.le_of_add_le_add_right bottom⟩

end ScreenScript
