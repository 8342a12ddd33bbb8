import ScreenScript.Script.Phrase

namespace ScreenScript.Phrase

theorem text?_mapM_eq_some_iff {segments : List Segment} {texts : List String} :
    segments.mapM Segment.text? = some texts ↔
      segments.filterMap Segment.name? = [] ∧ segments.map Segment.written = texts := by
  induction segments generalizing texts with
  | nil => simp
  | cons segment rest ih =>
      cases segment with
      | reference name => simp [Segment.text?, Segment.name?]
      | literal text =>
          simp only [List.mapM_cons, List.map_cons, Segment.text?, Segment.written,
            Option.bind_eq_bind, Option.bind_some, Option.bind_eq_some_iff, ih]
          constructor
          · rintro ⟨_, ⟨none, rfl⟩, ⟨⟩⟩
            exact ⟨none, rfl⟩
          · rintro ⟨none, rfl⟩
            exact ⟨_, ⟨none, rfl⟩, rfl⟩

theorem literal?_eq_some_iff {p : Phrase} {text : String} :
    p.literal? = some text ↔ p.names = [] ∧ p.written = text := by
  rw [literal?, Option.map_eq_some_iff]
  constructor
  · rintro ⟨texts, whole, rfl⟩
    obtain ⟨none, same⟩ := text?_mapM_eq_some_iff.1 whole
    exact ⟨none, by rw [written, same]⟩
  · rintro ⟨none, rfl⟩
    exact ⟨_, text?_mapM_eq_some_iff.2 ⟨none, rfl⟩, rfl⟩

section Render

variable {m : Type → Type} [Monad m] [LawfulMonad m]

theorem mapM_of_names_eq_nil {segments : List Segment} {f : Segment → m String}
    (known : ∀ text, f (.literal text) = pure text) (h : segments.filterMap Segment.name? = []) :
    segments.mapM f = pure (segments.map Segment.written) := by
  induction segments with
  | nil => simp
  | cons segment rest ih =>
      cases segment with
      | reference name => cases h
      | literal text => simp [ih h, known, Segment.written]

theorem render_of_names_eq_nil {p : Phrase} (h : p.names = []) (lookup : String → m String) :
    p.render lookup = pure p.written := by
  rw [render, mapM_of_names_eq_nil ?known h, pure_bind]
  · rfl
  · intro text
    rfl

end Render

end ScreenScript.Phrase
