import ScreenScript.Proofs.Match.FirstBest
import ScreenScript.Proofs.Match.Regions

namespace ScreenScript

open Double (Is IsNumber)

namespace Template

variable {t : Template}

theorem searchArea?_le {s : Size} {area : Region} (h : t.searchArea? s = some area) :
    area.x + area.width ≤ s.width ∧ area.y + area.height ≤ s.height := by
  unfold searchArea? at h
  split at h
  · exact Region.clip?_le h
  · split at h
    · cases h
    · cases h
      exact ⟨(Nat.zero_add _).le, (Nat.zero_add _).le⟩

end Template

/-! ## Outcomes -/

def MatchAttempt.region (a : MatchAttempt) (area : Region) : Region :=
  ⟨area.x + a.best.window.corner.x, area.y + a.best.window.corner.y, a.size.width, a.size.height⟩

structure Region.HasCentre (r : Region) (p : Point) : Prop where
  x : Is p.x .positive (r.x + r.width / 2)
  y : Is p.y .positive (r.y + r.height / 2)

/-- What a search for a template in a capture reports, by the attempts that it makes. -/
structure Finding.Reports (f : Finding) (t : Template) (capture : Picture) (scale : Scale) :
    Prop where
  nowhere : t.searchArea? capture.size = none → f.attempts = []
  tried : ∀ area, t.searchArea? capture.size = some area →
    t.Tries ((Picture.luma capture).area area) scale f.attempts
  threshold : f.result.threshold = t.threshold
  found_iff : f.result.found = true ↔ t.threshold ≤ f.result.score
  location : f.result.location.isSome = f.result.found
  none : f.attempts = [] → f.result.score = 0.0 ∧ f.result.templateScale = 1.0
  /-- All that is reported belongs to the first attempt with the highest score. -/
  some : f.attempts ≠ [] → ∃ area a, t.searchArea? capture.size = some area ∧
    IsFirstBest MatchAttempt.score f.attempts a ∧ f.result.score = a.score ∧
    f.result.templateScale = a.factor ∧ (∀ x y, (a.region area).Has x y → area.Has x y) ∧
    ∀ p, f.result.location = some p → (a.region area).HasCentre p

theorem MatchAttempt.hasCentre {a : MatchAttempt} {area : Region}
    (across : 2 * (area.x + a.best.window.corner.x) + a.size.width < 2 ^ 53)
    (down : 2 * (area.y + a.best.window.corner.y) + a.size.height < 2 ^ 53) {threshold : Float}
    {p : Point} (h : (Match.ofAttempt threshold area a).location = some p) :
    (a.region area).HasCentre p := by
  have half (a w : ℕ) : ((2 * a + w : ℕ) : ℚ) * 2 ^ (-1 : ℤ) = a + w / 2 := by
    push_cast
    norm_num
    ring
  unfold Match.ofAttempt at h
  dsimp only at h
  split at h
  · cases h
    exact ⟨half _ _ ▸ is_centre across, half _ _ ▸ is_centre down⟩
  · cases h

namespace Template

variable {t : Template} {capture : Picture} {scale : Scale}

theorem searched_lt {area : Region} (width : capture.width < 2 ^ 32) (height : capture.height < 2 ^ 32)
    (area? : t.searchArea? capture.size = some area) :
    area.x + area.width < 2 ^ 32 ∧ area.y + area.height < 2 ^ 32 ∧
      ((Picture.luma capture).area area).width < 2 ^ 32 ∧
      ((Picture.luma capture).area area).height < 2 ^ 32 := by
  obtain ⟨right, bottom⟩ := searchArea?_le area?
  change area.x + area.width ≤ capture.width at right
  change area.y + area.height ≤ capture.height at bottom
  rw [Raster.area_eq_crop]
  change _ ∧ _ ∧ area.width < 2 ^ 32 ∧ area.height < 2 ^ 32
  omega

variable {lowered : Template} {area : Gray}

theorem attempts_of_lower (image : lowered.image = t.image) (lower : lowered.threshold ≤ t.threshold)
    (area : Gray) (scale : Scale) :
    lowered.attempts area scale = t.attempts area scale ∨
      ∃ a, lowered.attempts area scale = [a] ∧ lowered.threshold ≤ a.score := by
  rw [attempts_eq, attempts_eq, image]
  generalize MatchAttempt.alone? area t.image 1.0 = native
  cases native with
  | none => exact .inl (by rw [Option.any_none, Option.any_none])
  | some a =>
      cases enough : Match.meets a.score lowered.threshold with
      | true => exact .inr ⟨a, by simp [enough], of_decide_eq_true enough⟩
      | false =>
          have short : Match.meets a.score t.threshold = false :=
            decide_eq_false fun le => of_decide_eq_false enough (Double.le_trans lower le)
          exact .inl (by simp [enough, short])

theorem found_finding {threshold : Float} {area : Region} {attempts : List MatchAttempt} :
    (finding threshold area attempts).result.found = true ↔
      ∃ a, MatchAttempt.best? attempts = some a ∧ threshold ≤ a.score := by
  unfold finding
  cases MatchAttempt.best? attempts with
  | none => simp [Match.nothing]
  | some a => simp [Match.ofAttempt, Match.meets, MatchAttempt.score]

theorem score_finding (threshold threshold' : Float) (area : Region) (attempts : List MatchAttempt) :
    (finding threshold area attempts).result.score = (finding threshold' area attempts).result.score := by
  simp only [finding]
  cases MatchAttempt.best? attempts with
  | none => simp only [Match.nothing]
  | some a => simp only [Match.ofAttempt]

/--
A lower threshold loses no match: what is found with a threshold is found with a lower one, and what is
not found with the lower one has the same score with both.
-/
theorem found_of_lower (image : lowered.image = t.image) (region : lowered.region = t.region)
    (lower : lowered.threshold ≤ t.threshold) (capture : Picture) (scale : Scale) :
    ((t.find capture scale).result.found = true → (lowered.find capture scale).result.found = true) ∧
      ((lowered.find capture scale).result.found = false →
        (lowered.find capture scale).result.score = (t.find capture scale).result.score) := by
  have area_eq : lowered.searchArea? capture.size = t.searchArea? capture.size := by
    rw [searchArea?, searchArea?, region]
  cases area? : t.searchArea? capture.size with
  | none =>
      rw [area?] at area_eq
      simp [find, area?, area_eq, Match.nothing]
  | some area =>
      rw [find_eq_finding t capture scale area?,
        find_eq_finding lowered capture scale (area_eq.trans area?)]
      rcases attempts_of_lower image lower ((Picture.luma capture).area area) scale with
        same | ⟨a, content, enough⟩
      · rw [same]
        refine ⟨fun found => ?_, fun _ => score_finding _ _ _ _⟩
        obtain ⟨a, best, reached⟩ := found_finding.1 found
        exact found_finding.2 ⟨a, best, Double.le_trans lower reached⟩
      · have found : (finding lowered.threshold area [a]).result.found = true :=
          found_finding.2 ⟨a, rfl, enough⟩
        rw [content, found]
        exact ⟨fun _ => rfl, nofun⟩

theorem isThreshold_half : isThreshold 0.5 = true := by
  decide +kernel

theorem found_of_lower_gap :
    let capture : Picture := Raster.generate 6 2 fun x _ =>
      if x < 2 ∨ 3 < x then ⟨255, 255, 255, 255⟩ else ⟨0, 0, 0, 255⟩
    let gap : Gray := Raster.generate 3 1 fun x _ => if x = 1 then 0 else 255
    let t := Template.ofImage "gap" gap
    let lowered : Template := { t with threshold := 0.5, isThreshold_threshold := isThreshold_half }
    let scale : Scale := ⟨2.0, by decide +kernel, by decide +kernel⟩
    lowered.threshold ≤ t.threshold ∧ (t.find capture scale).result.found = true ∧
      ((t.find capture scale).result.templateScale == 2.0) = true ∧
      (lowered.find capture scale).result.found = true := by
  intro capture gap t lowered scale
  have lower : lowered.threshold ≤ t.threshold := by decide +kernel
  have shown : (t.find capture scale).result.found = true ∧
      ((t.find capture scale).result.templateScale == 2.0) = true := by decide +kernel
  obtain ⟨kept, -⟩ := @found_of_lower t lowered rfl rfl lower capture scale
  exact ⟨lower, shown.1, shown.2, kept shown.1⟩

/-! ## Hits and misses -/

inductive FindsAt (t : Template) (capture : Picture) (scale : Scale) (p : Point) : Prop where
  | intro {area : Region} {a : MatchAttempt} (area? : t.searchArea? capture.size = some area)
    (best : MatchAttempt.best? (t.attempts ((Picture.luma capture).area area) scale) = some a)
    (enough : t.threshold ≤ a.score) (within : a.Within area.size)
    (middle : (a.region area).HasCentre p)

theorem threshold_find (t : Template) (capture : Picture) (scale : Scale) :
    (t.find capture scale).result.threshold = t.threshold := by
  unfold find
  split
  · rfl
  · dsimp only
    split <;> rfl

theorem isSome_location_find (t : Template) (capture : Picture) (scale : Scale) :
    (t.find capture scale).result.location.isSome = (t.find capture scale).result.found := by
  unfold find
  split
  · rfl
  · dsimp only
    split
    · rfl
    · rename_i a _
      cases enough : Match.meets a.best.window.score t.threshold with
      | false => simp [Match.ofAttempt, enough]
      | true => simp [Match.ofAttempt, enough]

section Sizes

variable {t : Template} {capture : Picture} {scale : Scale} {searched : Region} {a : MatchAttempt}
  (width : capture.width < 2 ^ 32) (height : capture.height < 2 ^ 32)
include width height

theorem within_of_mem_attempts_area (area? : t.searchArea? capture.size = some searched)
    (mem : a ∈ t.attempts ((Picture.luma capture).area searched) scale) :
    a.Within searched.size ∧ IsNumber a.score ∧ searched.x + searched.width < 2 ^ 32 ∧
      searched.y + searched.height < 2 ^ 32 := by
  obtain ⟨right, bottom, small, small'⟩ := searched_lt width height area?
  refine ⟨?_, isNumber_of_mem_attempts small small' mem, right, bottom⟩
  have within := within_of_mem_attempts small small' mem
  rwa [Raster.area_eq_crop] at within

theorem finds_of_location {p : Point} (h : (t.find capture scale).result.location = some p) :
    t.FindsAt capture scale p := by
  have found := isSome_location_find t capture scale
  rw [h, Option.isSome_some] at found
  cases area? : t.searchArea? capture.size with
  | none =>
      unfold find at h
      rw [area?] at h
      cases h
  | some searched =>
      rw [find_eq_finding t capture scale area?] at h found
      obtain ⟨a, best, enough⟩ := found_finding.1 found.symm
      obtain ⟨within, -, right, bottom⟩ :=
        within_of_mem_attempts_area width height area? (MatchAttempt.mem_of_best? best)
      have across : a.best.window.corner.x + a.size.width ≤ searched.width := within.1
      have down : a.best.window.corner.y + a.size.height ≤ searched.height := within.2
      rw [finding, best] at h
      exact ⟨area?, best, enough, within, MatchAttempt.hasCentre (by omega) (by omega) h⟩

theorem score_lt_of_missed (missed : (t.find capture scale).result.found = false) :
    (t.find capture scale).result.score < t.threshold := by
  have positive : (0.0 : Float) < t.threshold :=
    of_decide_eq_true (Bool.and_eq_true_iff.1 t.isThreshold_threshold).1
  cases area? : t.searchArea? capture.size with
  | none =>
      unfold find
      rw [area?]
      exact positive
  | some searched =>
      rw [find_eq_finding t capture scale area?] at missed ⊢
      cases best : MatchAttempt.best?
          (t.attempts ((Picture.luma capture).area searched) scale) with
      | none =>
          rw [finding, best]
          exact positive
      | some a =>
          obtain ⟨-, number, -⟩ :=
            within_of_mem_attempts_area width height area? (MatchAttempt.mem_of_best? best)
          by_contra reached
          have score : (finding t.threshold searched
              (t.attempts ((Picture.luma capture).area searched) scale)).result.score = a.score := by
            rw [finding, best]
            rfl
          rw [score, Double.not_lt number t.isNumber_threshold] at reached
          rw [found_finding.2 ⟨a, best, reached⟩] at missed
          cases missed

end Sizes

end Template

end ScreenScript
