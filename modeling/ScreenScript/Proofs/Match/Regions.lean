import ScreenScript.Proofs.Image.Regions
import ScreenScript.Proofs.Match.Attempts

namespace ScreenScript

open Double

/-! ## Places -/

section Places

variable {a b w : Nat}

theorem is_centre (small : 2 * a + w < 2 ^ 53) :
    Is (Scalar.ofNat a + Scalar.ofNat w / 2.0) .positive ((2 * a + w : ℕ) * 2 ^ (-1 : ℤ)) := by
  have half : (w : ℚ) / 2 = w * 2 ^ (-1 : ℤ) := by norm_num; ring
  have middle := (Needle.is_ofNat (n := w) (by omega)).div is_two (by norm_num) half (by omega)
    (by norm_num) (by norm_num)
  have sum : (a : ℚ) + w / 2 = (2 * a + w : ℕ) * 2 ^ (-1 : ℤ) := by
    push_cast
    rw [half]
    norm_num
    ring
  have centre := (Needle.is_ofNat (n := a) (by omega)).add middle sum small (by norm_num) (by norm_num)
  rwa [sum] at centre

theorem centre_shift (small : 2 * (a + b) + w < 2 ^ 53) :
    (Scalar.ofNat (a + b) + Scalar.ofNat w / 2.0 : Float) =
      Scalar.ofNat b + Scalar.ofNat w / 2.0 + Scalar.ofNat a := by
  have moved : (((2 * b + w : ℕ) : ℚ) * 2 ^ (-1 : ℤ)) + a = (2 * (a + b) + w : ℕ) * 2 ^ (-1 : ℤ) := by
    push_cast
    norm_num
    ring
  have right := (is_centre (a := b) (w := w) (by omega)).add (Needle.is_ofNat (n := a) (by omega)) moved
    small (by norm_num) (by norm_num)
  rw [moved] at right
  exact (is_centre small).eq right

end Places

/-! ## Regions -/

/-- What was found in a part of the screen that starts at a position, as a part of the whole. -/
def Match.shift (x y : Nat) (m : Match) : Match :=
  { m with location := m.location.map fun p => ⟨p.x + Scalar.ofNat x, p.y + Scalar.ofNat y⟩ }

def Template.unbounded (t : Template) : Template :=
  { t with region := none }

namespace Template

def finding (threshold : Float) (area : Region) (attempts : List MatchAttempt) : Finding :=
  match MatchAttempt.best? attempts with
  | none => ⟨Match.nothing threshold, []⟩
  | some best => ⟨Match.ofAttempt threshold area best, attempts⟩

theorem finding_shift {threshold : Float} {c : Region} {attempts : List MatchAttempt}
    (width : c.x + c.width < 2 ^ 32) (height : c.y + c.height < 2 ^ 32)
    (within : ∀ a ∈ attempts, a.Within c.size) :
    (finding threshold c attempts).result =
      (finding threshold (.full c.size) attempts).result.shift c.x c.y := by
  -- The areas differ in where they start, which only the location of a match tells.
  unfold finding
  cases best : MatchAttempt.best? attempts with
  | none => rfl
  | some a =>
      obtain ⟨right, bottom⟩ := within a (MatchAttempt.mem_of_best? best)
      change a.best.window.corner.x + a.size.width ≤ c.width at right
      change a.best.window.corner.y + a.size.height ≤ c.height at bottom
      have across := @centre_shift c.x a.best.window.corner.x a.size.width (by omega)
      have down := @centre_shift c.y a.best.window.corner.y a.size.height (by omega)
      cases found : Match.meets a.best.window.score threshold with
      | false => simp [Match.ofAttempt, Match.shift, found]
      | true => simp [Match.ofAttempt, Match.shift, Region.full, found, across, down]

variable (t : Template) (capture : Picture) (scale : Scale)

theorem find_eq_finding {area : Region} (h : t.searchArea? capture.size = some area) :
    t.find capture scale =
      finding t.threshold area (t.attempts ((Picture.luma capture).area area) scale) := by
  unfold find
  rw [h]
  rfl

theorem searchArea?_of_region {r : Region} (hint : t.region = some r) (s : Size) :
    t.searchArea? s = r.clip? s := by
  unfold searchArea?
  rw [hint]

variable {t capture} {r c : Region}

theorem find_of_clip? (hint : t.region = some r) (clip : r.clip? capture.size = some c) :
    t.find capture scale =
      finding t.threshold c (t.attempts (Picture.luma (capture.crop c)) scale) := by
  have area : t.searchArea? capture.size = some c := (t.searchArea?_of_region hint _).trans clip
  obtain ⟨right, bottom⟩ := Region.clip?_le clip
  rw [find_eq_finding t capture scale area, Raster.area_eq_crop, Picture.luma, Picture.luma,
    Raster.map_crop Rgba.luma right bottom]

theorem find_unbounded_crop (clip : r.clip? capture.size = some c) :
    t.unbounded.find (capture.crop c) scale =
      finding t.threshold (.full c.size) (t.attempts (Picture.luma (capture.crop c)) scale) := by
  obtain ⟨-, -, -, -, width, height⟩ := Region.clip?_eq_some clip
  have area : t.unbounded.searchArea? (capture.crop c).size = some (.full c.size) := by
    have nonempty : Size.isEmpty c.size = false := by
      simp [Size.isEmpty, Region.size, width.ne', height.ne']
    change (if Size.isEmpty c.size then none else some (Region.full c.size)) = _
    rw [nonempty]
    rfl
  rw [find_eq_finding _ _ scale area, Raster.area_eq_crop]
  have full : (Picture.luma (capture.crop c)).crop (.full c.size) = Picture.luma (capture.crop c) :=
    Raster.crop_full _
  rw [full]
  rfl

/--
A region makes a search one of the cut-out capture. If nothing of the region is on the screen, nothing is
found, with score 0. Otherwise the clipped region has the pixels of the region that are on the screen, and
what is found in the capture cut down to it is found in the capture, moved by where the region starts. So
nothing outside the region matters.
-/
theorem find_region (hint : t.region = some r) (width : capture.width < 2 ^ 32)
    (height : capture.height < 2 ^ 32) :
    (r.clip? capture.size = none →
      (∀ x y, ¬(r.Has x y ∧ capture.size.Has x y)) ∧
      (t.find capture scale).result.found = false ∧ (t.find capture scale).result.score = 0.0) ∧
    (∀ c, r.clip? capture.size = some c →
      (∀ x y, c.Has x y ↔ r.Has x y ∧ capture.size.Has x y) ∧
      (t.find capture scale).result =
        (t.unbounded.find (capture.crop c) scale).result.shift c.x c.y) ∧
    (∀ other : Picture, other.size = capture.size →
      (∀ x y, r.Has x y → capture.size.Has x y → other.get x y = capture.get x y) →
      t.find other scale = t.find capture scale) := by
  refine ⟨fun clip => ⟨Region.not_has_of_clip?_eq_none clip, ?_⟩,
    fun c clip => ⟨Region.has_clip?_iff clip, ?_⟩, fun other size same => ?_⟩
  · have area : t.searchArea? capture.size = none := (t.searchArea?_of_region hint _).trans clip
    unfold find
    rw [area]
    exact ⟨rfl, rfl⟩
  · obtain ⟨right, bottom⟩ := Region.clip?_le clip
    change c.x + c.width ≤ capture.width at right
    change c.y + c.height ≤ capture.height at bottom
    rw [find_of_clip? scale hint clip, find_unbounded_crop scale clip]
    refine finding_shift (by omega) (by omega) fun a mem => ?_
    have small : (Picture.luma (capture.crop c)).width < 2 ^ 32 := by
      change c.width < 2 ^ 32
      omega
    have small' : (Picture.luma (capture.crop c)).height < 2 ^ 32 := by
      change c.height < 2 ^ 32
      omega
    exact within_of_mem_attempts small small' mem
  · cases clip : r.clip? capture.size with
    | none =>
        have area : t.searchArea? capture.size = none := (t.searchArea?_of_region hint _).trans clip
        unfold find
        rw [size, area]
    | some c =>
        have agree : other.crop c = capture.crop c := Raster.crop_congr fun x y inside =>
          have both := (Region.has_clip?_iff clip x y).1 inside
          same x y both.1 both.2
        rw [find_of_clip? scale hint clip, find_of_clip? scale hint (size ▸ clip), agree]

theorem find_region_overhanging :
    let capture : Picture := Raster.generate 6 4 fun x y =>
      if x = 4 ∧ y = 2 then ⟨255, 255, 255, 255⟩ else ⟨0, 0, 0, 255⟩
    let dot : Gray := Raster.generate 2 2 fun x y => if x = 0 ∧ y = 0 then 255 else 0
    let t := (Template.ofImage "dot" dot).withRegion ⟨2, 1, 4294967295, 4294967295⟩
    let scale : Scale := ⟨1.0, by decide +kernel, by decide +kernel⟩
    let part := t.unbounded.find (capture.crop ⟨2, 1, 4, 3⟩) scale
    part.result.found = true ∧ (t.find capture scale).result = part.result.shift 2 1 := by
  intro capture dot t scale part
  obtain ⟨-, moved, -⟩ := @find_region t capture scale _ rfl (by decide) (by decide)
  exact ⟨by decide +kernel, (moved ⟨2, 1, 4, 3⟩ (by decide)).2⟩

end Template

end ScreenScript
