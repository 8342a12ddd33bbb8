import ScreenScript.Proofs.Run.Accord
import ScreenScript.Proofs.Run.Steps
import ScreenScript.Proofs.Search.Polling
import ScreenScript.Proofs.Search.Scales

namespace ScreenScript

open Attempt (Keeps)

variable {σ α : Type}

namespace Session

def Sound (s : Session σ) : Prop :=
  s.search.cache.Sound

theorem Sound.changed {s : Session σ} (sound : s.Sound) (status : Status) :
    (s.changed status).Sound := by
  rwa [Session.Sound, cache_changed]

theorem keeps_sound_onSearch {a : Attempt (Search σ) α}
    (h : Keeps (fun s => s.cache.Sound) (fun s => s.cache.Sound) a) :
    Keeps Sound Sound (onSearch a) :=
  fun s sound => h s.search sound

theorem keeps_sound_onWorld (a : Attempt σ α) : Keeps Sound Sound (onWorld a) :=
  keeps_sound_onSearch fun _ sound => sound

theorem keeps_sound_during (status : Status) {a : Attempt (Session σ) α} (h : Keeps Sound Sound a) :
    Keeps Sound Sound (during status a) :=
  keeps_during (fun _ sound => sound.changed status) h fun _ sound => sound.changed .running

theorem habit_sound (w : World σ) : Habit w Sound Sound where
  weaken _ := id
  note _ _ _ := id
  rebind _ _ := id
  read b _ name := keeps_sound_onWorld (b.read name)
  write b _ name value := keeps_sound_onWorld (b.write name value)
  template id := keeps_sound_onWorld (w.template id)
  logicalSize := keeps_sound_onWorld w.logicalSize
  sleep _ := keeps_sound_onSearch fun _ sound => sound
  search template policy := keeps_sound_during .matching
    (keeps_sound_onSearch ((Search.habit_sound w.toSurroundings).keeps_run template policy))
  act _ := keeps_sound_during .acting fun _ sound => sound

end Session

variable {w : World σ} {program : Program} {s : Session σ} {m : Machine σ}

theorem Machine.sound_of_passes (passes : Passes w (s.launch w program) m) : m.session.Sound := by
  refine passes.keeps_session (I := Session.Sound) ?_ ?_ ?_
  · rw [Session.Sound, Session.launch, Machine.start, Session.fresh, Session.cache_changed]
    exact Scale.Cache.sound_invalidate s.search.cache
  · intro k i result after sound _ made
    have kept := (Session.habit_sound w).keeps_step i (k.dispatched i) sound
    rwa [made] at kept
  · exact fun t index line failure sound => sound

namespace Session

theorem exists_endsWith_of_locate {target : Target} {after : Session σ} {id : String}
    {outcome : Search.Outcome} (sound : s.Sound)
    (h : (locate w target).on s = (.ok (id, outcome), after)) :
    ∃ template before, ∃ start : Search σ,
      (w.template id).on before = (.ok template, start.world) ∧
      Search.EndsWith w.toSurroundings template target.policy start outcome := by
  obtain ⟨name, s₁, rendered, h⟩ := Attempt.on_bind_eq_ok.1 h
  obtain ⟨template, s₂, loaded, h⟩ := Attempt.on_bind_eq_ok.1 h
  obtain ⟨found, s₃, searched, h⟩ := Attempt.on_bind_eq_ok.1 h
  cases h
  have sound₁ := (habit_sound w).keeps_render target.template s sound
  rw [rendered] at sound₁
  have sound₂ := keeps_sound_onWorld (w.template id) s₁ sound₁
  rw [loaded] at sound₂
  let start := (s₂.changed .matching).search
  have start_sound : start.cache.Sound := sound₂.changed .matching
  have ran : ((Search.run w template target.policy).on start).1 = .ok outcome :=
    (Prod.mk.inj searched).1
  refine ⟨template, s₁.world, start, ?_, Search.endsWith_of_run start_sound (Prod.ext ran rfl)⟩
  have start_world : start.world = s₂.world := world_changed s₂ .matching
  rw [on_onWorld] at loaded
  obtain ⟨result, world⟩ := Prod.mk.inj loaded
  rw [start_world, ← world]
  exact Prod.ext result rfl

/--
What is remembered of the scale shows in no answer. Whatever is observed, and forgotten in between,
each observation gives what would be worked out anew, and one that fails changes nothing. A search
after such a history, and so every search in a run, ends with a match in one capture and the scale
between this capture and the logical screen that went with it.
-/
theorem scales_transparent (w : World σ) (program : Program) (s : Session σ) :
    (∀ (start : Search σ) (uses : List Scale.Use), start.cache = {} →
      (start.useAll uses).1 = uses.filterMap Scale.Use.answer?) ∧
    (∀ (before after : Search σ) capture logical failure,
      (Search.observe capture logical).on before = (.error failure, after) → after = before) ∧
    (∀ (start before after : Search σ) (uses : List Scale.Use) template policy outcome,
      start.cache = {} → before.cache = (start.useAll uses).2.cache →
      (Search.run w template policy).on before = (.ok outcome, after) →
        Search.EndsWith w.toSurroundings template policy before outcome) ∧
    ∀ (m : Machine σ) (i : Instruction) target id outcome after,
      Machine.Passes w (s.launch w program) m →
      (locate w target).on (m.dispatched i) = (.ok (id, outcome), after) →
        ∃ template before, ∃ start : Search σ,
          (w.template id).on before = (.ok template, start.world) ∧
          Search.EndsWith w.toSurroundings template target.policy start outcome := by
  refine ⟨?_, ?_, ?_, ?_⟩
  · intro start uses empty
    exact (Search.useAll_eq (empty ▸ Scale.Cache.sound_empty) uses).1
  · intro before after capture logical failure failed
    exact Search.eq_of_observe_error failed
  · intro start before after uses template policy outcome empty left ran
    refine Search.endsWith_of_run ?_ ran
    rw [left]
    exact (Search.useAll_eq (empty ▸ Scale.Cache.sound_empty) uses).2
  · intro m i target id outcome after passes located
    have sound : (m.dispatched i).Sound := Machine.sound_of_passes passes
    exact exists_endsWith_of_locate sound located

def moved : Search Reel.Showing :=
  (({ world := { captures := 2 } } : Search Reel.Showing).useAll [.observe ⟨4, 2⟩ ⟨2, 2⟩]).2

theorem scales_transparent_moved :
    ∃ outcome after,
      (Search.run Reel.late.world Reel.squares .standard).on moved = (.ok outcome, after) ∧
      Search.EndsWith Reel.late.world.toSurroundings Reel.squares .standard moved outcome := by
  have start : Reel.At 2 0 moved := ⟨rfl, (Search.useAll_eq Scale.Cache.sound_empty _).2⟩
  have shown : (Reel.late.look Reel.lateScale Reel.squares (2 + 1)).found = true := by
    decide +kernel
  have early : 0 < Policy.standard.maxRounds := Nat.pos_of_ne_zero Policy.standard.maxRounds_ne_zero
  obtain ⟨outcome, after, ran, -⟩ := Reel.takes_found (w := Reel.late.world)
    Reel.late.shows_surroundings Reel.resolves_late start early (by omega) shown (by omega)
  obtain ⟨_, _, transparent, _⟩ := scales_transparent Reel.late.world { instructions := [], size := 0 }
    { search := moved }
  exact ⟨outcome, after, ran, transparent _ moved after _ _ _ _ rfl rfl ran⟩

end Session

end ScreenScript
