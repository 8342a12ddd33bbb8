namespace ScreenScript.Except

variable {ε ε' α β : Type} {e : Except ε α}

theorem bind_eq_ok_iff {f : α → Except ε β} {y : β} :
    (e >>= f) = .ok y ↔ ∃ x, e = .ok x ∧ f x = .ok y := by
  cases e with
  | error fault => exact ⟨nofun, nofun⟩
  | ok x =>
      constructor
      · exact fun h => ⟨x, rfl, h⟩
      · rintro ⟨_, ⟨⟩, h⟩
        exact h

theorem map_eq_ok_iff {f : α → β} {y : β} : e.map f = .ok y ↔ ∃ x, e = .ok x ∧ f x = y := by
  cases e with
  | error fault => exact ⟨nofun, nofun⟩
  | ok x =>
      constructor
      · rintro ⟨⟩
        exact ⟨x, rfl, rfl⟩
      · rintro ⟨_, ⟨⟩, rfl⟩
        rfl

theorem mapError_eq_ok_iff {wrap : ε → ε'} {x : α} : e.mapError wrap = .ok x ↔ e = .ok x := by
  cases e with
  | error fault => exact ⟨nofun, nofun⟩
  | ok y =>
      constructor
      · rintro ⟨⟩
        rfl
      · rintro ⟨⟩
        rfl

theorem toOption_eq_some_iff {x : α} : e.toOption = some x ↔ e = .ok x := by
  cases e with
  | error fault => exact ⟨nofun, nofun⟩
  | ok y =>
      constructor
      · rintro ⟨⟩
        rfl
      · rintro ⟨⟩
        rfl

end ScreenScript.Except
