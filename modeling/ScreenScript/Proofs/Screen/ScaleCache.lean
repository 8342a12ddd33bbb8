import ScreenScript.Screen.Scale

namespace ScreenScript.Scale.Cache

def Sound (c : Cache) : Prop :=
  ∀ r, c.resolved? = some r → resolve r.capture r.logical = .ok r.scale

variable {c : Cache} {capture logical : Size}

theorem sound_empty : ({} : Cache).Sound :=
  nofun

theorem sound_invalidate (c : Cache) : c.invalidate.Sound :=
  nofun

theorem resolve_of_hit? (sound : c.Sound) {scale : Scale}
    (h : c.hit? capture logical = some scale) : resolve capture logical = .ok scale := by
  obtain ⟨r, found, rfl⟩ := Option.map_eq_some_iff.1 h
  obtain ⟨held, same⟩ := Option.filter_eq_some_iff.1 found
  rw [Bool.and_eq_true, decide_eq_true_eq, decide_eq_true_eq] at same
  rw [← same.1, ← same.2]
  exact sound r held

theorem observe_of_hit?_eq_none (h : c.hit? capture logical = none) :
    c.observe capture logical = (resolve capture logical).map fun scale =>
      (scale, ⟨some ⟨scale, capture, logical⟩⟩, some (match c.current? with
        | some old => Notice.changed old scale capture
        | none => Notice.resolved scale capture)) := by
  rw [observe, h]
  cases resolve capture logical with
  | error fault => rfl
  | ok scale => rfl

theorem observe_eq (sound : c.Sound) (capture logical : Size) :
    (c.observe capture logical).map Prod.fst = resolve capture logical := by
  cases hit : c.hit? capture logical with
  | some scale =>
      rw [observe, hit, resolve_of_hit? sound hit]
      rfl
  | none =>
      rw [observe_of_hit?_eq_none hit]
      cases resolve capture logical with
      | error fault => rfl
      | ok scale => rfl

theorem sound_of_observe (sound : c.Sound) {scale : Scale} {c' : Cache} {notice : Option Notice}
    (h : c.observe capture logical = .ok (scale, c', notice)) : c'.Sound := by
  cases hit : c.hit? capture logical with
  | some held =>
      rw [observe, hit] at h
      cases h
      exact sound
  | none =>
      rw [observe_of_hit?_eq_none hit] at h
      cases resolved : resolve capture logical with
      | error fault =>
          rw [resolved] at h
          cases h
      | ok new =>
          rw [resolved] at h
          cases h
          rintro r ⟨⟩
          exact resolved

def Observed (before after : Cache) : Prop :=
  ∃ capture logical scale notice, before.observe capture logical = .ok (scale, after, notice)

theorem Sound.observed (sound : c.Sound) {c' : Cache} (h : c.Observed c') : c'.Sound := by
  obtain ⟨capture, logical, scale, notice, answer⟩ := h
  exact sound_of_observe sound answer

theorem exists_observe (sound : c.Sound) {scale : Scale}
    (h : resolve capture logical = .ok scale) :
    ∃ c' notice, c.observe capture logical = .ok (scale, c', notice) ∧ c'.Sound := by
  have first := observe_eq sound capture logical
  rw [h] at first
  cases answer : c.observe capture logical with
  | error fault =>
      rw [answer] at first
      cases first
  | ok found =>
      obtain ⟨scale', c', notice⟩ := found
      rw [answer] at first
      cases first
      exact ⟨c', notice, rfl, sound_of_observe sound answer⟩

end ScreenScript.Scale.Cache
