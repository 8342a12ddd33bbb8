import Mathlib.Logic.Relation
import ScreenScript.Proofs.Search.Accord

namespace ScreenScript

variable {σ : Type}

/-- What is done with a remembered scale. -/
inductive Scale.Use where
  | observe (capture logical : Size)
  | invalidate

/-- What an observation gives if nothing is remembered. -/
def Scale.Use.answer? : Scale.Use → Option (Except Failure Scale)
  | observe capture logical =>
    some ((Scale.resolve capture logical).mapError fun fault => .scaleResolution fault.message)
  | invalidate => none

def Surroundings.Shows (w : Surroundings σ) (world : σ) (capture : Picture) (logical : Size) : Prop :=
  ∃ captured sized, w.capture.on world = (.ok capture, captured) ∧
    w.logicalSize.on captured = (.ok logical, sized)

namespace Search

/-! ## Observations -/

section

variable {s : Search σ} {capture logical : Size}

theorem observe_on_error {fault : Scale.Fault} (h : s.cache.observe capture logical = .error fault) :
    (observe capture logical).on s = (.error (.scaleResolution fault.message), s) := by
  simp only [observe, Attempt.on_get_bind, h]
  rfl

theorem observe_on_ok {scale : Scale} {cache : Scale.Cache} {notice? : Option Scale.Notice}
    (h : s.cache.observe capture logical = .ok (scale, cache, notice?)) :
    (observe capture logical).on s =
      (.ok scale, { s with cache, journal := (notice?.map .scaled).toList ++ s.journal }) := by
  simp only [observe, Attempt.on_get_bind, h]
  cases notice? with
  | none => rfl
  | some notice => rfl

theorem exists_of_observe_error {failure : Failure} {t : Search σ}
    (h : (observe capture logical).on s = (.error failure, t)) :
    ∃ fault : Scale.Fault, failure = .scaleResolution fault.message ∧ t = s := by
  cases answer : s.cache.observe capture logical with
  | error fault =>
      rw [observe_on_error answer] at h
      cases h
      exact ⟨fault, rfl, rfl⟩
  | ok found =>
      rw [observe_on_ok answer] at h
      cases h

theorem eq_of_observe_error {failure : Failure} {t : Search σ}
    (h : (observe capture logical).on s = (.error failure, t)) : t = s := by
  obtain ⟨_, _, same⟩ := exists_of_observe_error h
  exact same

theorem exists_of_observe_ok {scale : Scale} {t : Search σ}
    (h : (observe capture logical).on s = (.ok scale, t)) :
    t.world = s.world ∧ ∃ notice?, s.cache.observe capture logical = .ok (scale, t.cache, notice?) := by
  cases answer : s.cache.observe capture logical with
  | error fault =>
      rw [observe_on_error answer] at h
      cases h
  | ok found =>
      obtain ⟨scale', cache, notice?⟩ := found
      rw [observe_on_ok answer] at h
      cases h
      exact ⟨rfl, notice?, rfl⟩

end

/-! ## Histories of a cache -/

def use (s : Search σ) : Scale.Use → Option (Except Failure Scale) × Search σ
  | .observe capture logical =>
    let (answer, after) := (observe capture logical).on s
    (some answer, after)
  | .invalidate => (none, { s with cache := s.cache.invalidate })

def useAll (s : Search σ) : List Scale.Use → List (Except Failure Scale) × Search σ
  | [] => ([], s)
  | u :: rest =>
    let (answer?, after) := s.use u
    let (answers, last) := after.useAll rest
    (answer?.toList ++ answers, last)

theorem use_eq {s : Search σ} (sound : s.cache.Sound) (u : Scale.Use) :
    (s.use u).1 = u.answer? ∧ (s.use u).2.cache.Sound := by
  cases u with
  | invalidate => exact ⟨rfl, Scale.Cache.sound_invalidate s.cache⟩
  | observe capture logical =>
      have same := Scale.Cache.observe_eq sound capture logical
      cases answer : s.cache.observe capture logical with
      | error fault =>
          rw [answer] at same
          simp only [use, observe_on_error answer, Scale.Use.answer?, ← same]
          exact ⟨rfl, sound⟩
      | ok found =>
          obtain ⟨scale, cache, notice?⟩ := found
          rw [answer] at same
          simp only [use, observe_on_ok answer, Scale.Use.answer?, ← same]
          exact ⟨rfl, Scale.Cache.sound_of_observe sound answer⟩

theorem useAll_eq {s : Search σ} (sound : s.cache.Sound) (uses : List Scale.Use) :
    (s.useAll uses).1 = uses.filterMap Scale.Use.answer? ∧ (s.useAll uses).2.cache.Sound := by
  induction uses generalizing s with
  | nil => exact ⟨rfl, sound⟩
  | cons u rest ih =>
      obtain ⟨first, kept⟩ := use_eq sound u
      obtain ⟨others, last⟩ := ih kept
      refine ⟨?_, last⟩
      simp only [useAll, first, others]
      cases answer : u.answer? with
      | none => rw [List.filterMap_cons_none answer]; rfl
      | some a => rw [List.filterMap_cons_some answer]; rfl

theorem habit_sound (w : Surroundings σ) : Habit w fun s => s.cache.Sound where
  remember _ _ sound observed := sound.observed observed
  note _ _ _ := id
  capture _ h := h.1
  logicalSize _ := id
  sleep _ _ := id
  now _ := id

/-! ## The last round -/

theorem exists_on_of_onWorld {α : Type} {a : Attempt σ α} {s t : Search σ} {x : α}
    (h : (onWorld a).on s = (.ok x, t)) :
    ∃ world, a.on s.world = (.ok x, world) ∧ t = { s with world } := by
  obtain ⟨result, after⟩ := Prod.mk.inj h
  exact ⟨(a.on s.world).2, Prod.ext result rfl, after.symm⟩

structure SeenIn (template : Template) (outcome : Outcome) (capture : Picture) (logical : Size) :
    Prop where
  scale : Scale.resolve capture.size logical = .ok outcome.scale
  result : outcome.result = (template.find capture outcome.scale).result

/--
Whether rounds from some state on, the time of which runs from `started`, come to an outcome: after
those that go on there is a last one, and the outcome is what was seen in it.
-/
def RoundsEndWith (w : Surroundings σ) (template : Template) (policy : Policy) (started : Nat)
    (s : Search σ) (outcome : Outcome) : Prop :=
  ∃ attempts last t capture logical,
    Relation.ReflTransGen (fun before after => Again w template policy started after before) (0, s)
      (attempts, last) ∧
    (round w template policy started attempts).on last = (.ok (some outcome), t) ∧
    w.Shows last.world capture logical ∧ SeenIn template outcome capture logical

/-- The same of a whole search, which reads the clock before its first round. -/
def EndsWith (w : Surroundings σ) (template : Template) (policy : Policy) (s : Search σ)
    (outcome : Outcome) : Prop :=
  RoundsEndWith w template policy (w.now s.world).1 { s with world := (w.now s.world).2 } outcome

section

variable {w : Surroundings σ} {template : Template} {policy : Policy} {started : Nat}
  {attempts : UInt32} {s t : Search σ} {outcome : Outcome}

theorem exists_shown_of_poll {result : Match} {scale : Scale}
    (h : (poll w template attempts).on s = (.ok (result, scale), t)) :
    ∃ capture logical cache notice?, w.Shows s.world capture logical ∧
      s.cache.observe capture.size logical = .ok (scale, cache, notice?) ∧
      result = (template.find capture scale).result := by
  cases aborted : w.aborted s.world with
  | true =>
      rw [poll_of_aborted aborted] at h
      cases h
  | false =>
      rw [poll_of_not_aborted aborted] at h
      obtain ⟨capture, s₁, capturing, h⟩ := Attempt.on_bind_eq_ok.1 h
      obtain ⟨_, _, noted, capturing⟩ := Attempt.on_bind_eq_ok.1 capturing
      cases noted
      obtain ⟨captured, taken, rfl⟩ := exists_on_of_onWorld capturing
      obtain ⟨logical, s₂, asking, h⟩ := Attempt.on_bind_eq_ok.1 h
      obtain ⟨sized, asked, rfl⟩ := exists_on_of_onWorld asking
      obtain ⟨scale', s₃, observed, h⟩ := Attempt.on_bind_eq_ok.1 h
      obtain ⟨_, notice?, answer⟩ := exists_of_observe_ok observed
      obtain ⟨_, _, _, h⟩ := Attempt.on_bind_eq_ok.1 h
      cases h
      exact ⟨capture, logical, _, notice?, ⟨captured, sized, taken, asked⟩, answer, rfl⟩

theorem exists_poll_of_round
    (h : (round w template policy started attempts).on s = (.ok (some outcome), t)) :
    ∃ u, (poll w template (attempts + 1)).on s = (.ok (outcome.result, outcome.scale), u) := by
  obtain ⟨⟨result, scale⟩, u, polled, h⟩ := Attempt.on_bind_eq_ok.1 h
  refine ⟨u, polled.trans ?_⟩
  cases found : result.found with
  | true =>
      simp only [found, if_true] at h
      obtain ⟨now, _, _, h⟩ := Attempt.on_bind_eq_ok.1 h
      cases h
      rfl
  | false =>
      simp only [found, Bool.false_eq_true, if_false] at h
      obtain ⟨complete, _, _, h⟩ := Attempt.on_bind_eq_ok.1 h
      cases complete with
      | false => cases h
      | true =>
          obtain ⟨now, _, _, h⟩ := Attempt.on_bind_eq_ok.1 h
          split at h
          · cases h
            rfl
          · cases h

theorem seenIn_of_round (sound : s.cache.Sound)
    (h : (round w template policy started attempts).on s = (.ok (some outcome), t)) :
    ∃ capture logical, w.Shows s.world capture logical ∧ SeenIn template outcome capture logical := by
  obtain ⟨u, polled⟩ := exists_poll_of_round h
  obtain ⟨capture, logical, cache, notice?, shown, answer, result⟩ := exists_shown_of_poll polled
  refine ⟨capture, logical, shown, ?_, result⟩
  rw [← Scale.Cache.observe_eq sound, answer]
  rfl

theorem sound_of_again {before after : UInt32 × Search σ} (sound : before.2.cache.Sound)
    (again : Again w template policy started after before) : after.2.cache.Sound := by
  have kept := (habit_sound w).keeps_round template policy started before.1 before.2 sound
  rwa [again.2] at kept

end

section

variable {w : World σ} {template : Template} {policy : Policy} {s t : Search σ} {outcome : Outcome}

theorem roundsEndWith_of_pollUntil {started : Nat} {attempts : UInt32} {first : Search σ}
    (sound : s.cache.Sound)
    (rounds : Relation.ReflTransGen
      (fun before after => Again w.toSurroundings template policy started after before) (0, first)
      (attempts, s))
    (h : pollUntil w template policy started attempts s = (.ok outcome, t)) :
    RoundsEndWith w.toSurroundings template policy started first outcome := by
  -- What carries from round to round: those so far lead here, and what is remembered is sound.
  fun_induction pollUntil w template policy started attempts s with
  | case1 attempts s failure after made => cases h
  | case2 attempts s outcome' after made =>
      cases h
      obtain ⟨capture, logical, shown, seen⟩ := seenIn_of_round sound made
      exact ⟨attempts, s, t, capture, logical, rounds, made, shown, seen⟩
  | case3 attempts s after made ih =>
      have again : Again w.toSurroundings template policy started (attempts + 1, after) (attempts, s) :=
        ⟨rfl, made⟩
      exact ih (sound_of_again sound again) (rounds.tail again) h

theorem endsWith_of_run (sound : s.cache.Sound)
    (h : (run w template policy).on s = (.ok outcome, t)) :
    EndsWith w.toSurroundings template policy s outcome := by
  obtain ⟨started, first, read, h⟩ := Attempt.on_bind_eq_ok.1 h
  cases read
  exact roundsEndWith_of_pollUntil (s := { s with world := (w.now s.world).2 }) sound .refl h

end

end Search

end ScreenScript
