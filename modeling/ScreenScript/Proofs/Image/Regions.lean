import ScreenScript.Image.Raster

namespace ScreenScript

/-! ## Clipping -/

def Region.Has (r : Region) (x y : Nat) : Prop :=
  r.x ≤ x ∧ x < r.x + r.width ∧ r.y ≤ y ∧ y < r.y + r.height

def Size.Has (s : Size) (x y : Nat) : Prop :=
  x < s.width ∧ y < s.height

namespace Region

variable {r c : Region} {s : Size}

theorem not_has_of_clip?_eq_none (h : r.clip? s = none) (x y : Nat) : ¬(r.Has x y ∧ s.Has x y) := by
  rintro ⟨⟨left, right, top, bottom⟩, inside, inside'⟩
  unfold clip? at h
  dsimp only at h
  split at h
  · omega
  · split at h
    · omega
    · cases h

theorem clip?_eq_some (h : r.clip? s = some c) :
    c.x = r.x ∧ c.y = r.y ∧ c.width = min r.width (s.width - r.x) ∧
      c.height = min r.height (s.height - r.y) ∧ 0 < c.width ∧ 0 < c.height := by
  unfold clip? at h
  dsimp only at h
  split at h
  · cases h
  · split at h
    · cases h
    · cases h
      refine ⟨rfl, rfl, rfl, rfl, ?_, ?_⟩
      · dsimp only
        omega
      · dsimp only
        omega

theorem has_clip?_iff (h : r.clip? s = some c) (x y : Nat) :
    c.Has x y ↔ r.Has x y ∧ s.Has x y := by
  obtain ⟨left, top, width, height, some, some'⟩ := clip?_eq_some h
  unfold Has Size.Has
  omega

theorem clip?_le (h : r.clip? s = some c) : c.x + c.width ≤ s.width ∧ c.y + c.height ≤ s.height := by
  obtain ⟨left, top, width, height, some, some'⟩ := clip?_eq_some h
  omega

end Region

/-! ## Cutting out -/

namespace Raster

variable {α β : Type} {r s : Raster α} {c : Region}

theorem ext_pixels (width : r.width = s.width) (height : r.height = s.height)
    (pixels : r.pixels = s.pixels) : r = s := by
  obtain ⟨w, h, p, size⟩ := r
  obtain ⟨w', h', p', size'⟩ := s
  cases width
  cases height
  cases pixels
  rfl

variable [Inhabited α] [Inhabited β]

theorem getElem_pixels {i : Nat} (h : i < r.pixels.size) :
    r.pixels[i] = r.get (i % r.width) (i / r.width) := by
  have index : i / r.width * r.width + i % r.width = i := Nat.div_add_mod' i r.width
  rw [get, index, Array.getD_eq_getD_getElem?, Array.getElem?_eq_getElem h]
  rfl

theorem ext_get (width : r.width = s.width) (height : r.height = s.height)
    (pixels : ∀ x y, x < r.width → y < r.height → r.get x y = s.get x y) : r = s := by
  refine ext_pixels width height (Array.ext ?_ fun i h h' => ?_)
  · rw [r.size_pixels, s.size_pixels, width, height]
  · have size := r.size_pixels
    have some : 0 < r.width := by
      rcases Nat.eq_zero_or_pos r.width with none | some
      · rw [none, Nat.zero_mul] at size
        omega
      · exact some
    have row : i / r.width < r.height := Nat.div_lt_of_lt_mul (size ▸ h)
    rw [getElem_pixels h, getElem_pixels h', ← width]
    exact pixels _ _ (Nat.mod_lt i some) row

theorem get_map (f : α → β) {x y : Nat} (hx : x < r.width) (hy : y < r.height) :
    (r.map f).get x y = f (r.get x y) := by
  have inside : y * r.width + x < r.pixels.size := r.size_pixels ▸ index_lt hx hy
  simp [get, map, Array.getD_eq_getD_getElem?, inside]

theorem get_crop (r : Raster α) {x y : Nat} (hx : x < c.width) (hy : y < c.height) :
    (r.crop c).get x y = r.get (c.x + x) (c.y + y) :=
  get_generate hx hy

theorem map_crop (f : α → β) (right : c.x + c.width ≤ r.width) (bottom : c.y + c.height ≤ r.height) :
    (r.map f).crop c = (r.crop c).map f := by
  refine ext_get rfl rfl fun x y hx hy => ?_
  have column : x < c.width := hx
  have row : y < c.height := hy
  have before : ((r.crop c).map f).get x y = f ((r.crop c).get x y) := get_map f hx hy
  rw [before, get_crop _ column row, get_crop _ column row, get_map f (by omega) (by omega)]

theorem crop_full (r : Raster α) : r.crop (.full r.size) = r := by
  refine ext_get rfl rfl fun x y hx hy => ?_
  rw [get_crop r hx hy]
  simp [Region.full]

theorem area_eq_crop (r : Raster α) (c : Region) : r.area c = r.crop c := by
  unfold area
  split
  · rename_i full
    rw [full, crop_full]
  · rfl

theorem crop_congr (same : ∀ x y, c.Has x y → r.get x y = s.get x y) : r.crop c = s.crop c := by
  refine ext_get rfl rfl fun x y hx hy => ?_
  have column : x < c.width := hx
  have row : y < c.height := hy
  rw [get_crop r column row, get_crop s column row]
  refine same _ _ ?_
  unfold Region.Has
  omega

end Raster

end ScreenScript
