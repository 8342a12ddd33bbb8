import Mathlib.Algebra.Order.Floor.Div
import ScreenScript.Clock
import ScreenScript.Proofs.Screen.ScaleCache
import ScreenScript.Proofs.Search.Accord

/-!
# Searches on a clock that stands still between sleeps

A reel shows one frame after the other, one per capture, on a clock that is moved only by sleeping. A
search looks at times `0`, `interval`, `2 * interval` and so on, and gives up at the first of them that
is not before `timeout`. So it looks at most `timeout / interval` times, rounded up:

* `Reel.found_round`, `Reel.missed_round`: what one round does;
* `Reel.pollUntil_missed`: the search after some misses;
* `Reel.run_exact`: what a whole search gives, and when.
-/

namespace ScreenScript

/-- The most rounds that a search with a policy makes on a clock that moves only in sleeps. -/
def Policy.maxRounds (p : Policy) : Nat :=
  p.timeout ⌈/⌉ p.interval

namespace Policy

variable (p : Policy) (n : Nat)

theorem maxRounds_le_iff : p.maxRounds ≤ n ↔ p.timeout ≤ n * p.interval := by
  rw [maxRounds, ceilDiv_le_iff_le_mul p.interval_pos, Nat.mul_comm]

theorem lt_maxRounds_iff : n < p.maxRounds ↔ n * p.interval < p.timeout := by
  rw [← Nat.not_le, maxRounds_le_iff, Nat.not_le]

theorem maxRounds_ne_zero : p.maxRounds ≠ 0 := by
  have := (p.lt_maxRounds_iff 0).2 (by have := p.interval_lt_timeout; omega)
  omega

theorem maxRounds_mul_lt : p.maxRounds * p.interval < p.timeout + p.interval := by
  obtain ⟨n, last⟩ := Nat.exists_eq_add_one_of_ne_zero p.maxRounds_ne_zero
  have early := (p.lt_maxRounds_iff n).1 (by omega)
  rw [last, Nat.add_mul, Nat.one_mul]
  omega

end Policy

structure Reel where
  frames : Nat → Picture
  /-- The size of the logical screen with each frame. -/
  logical : Nat → Size

namespace Reel

structure Showing where
  clock : ManualClock := {}
  captures : Nat := 0

def surroundings (reel : Reel) : Surroundings Showing where
  capture := Attempt.of fun s =>
    (.ok (reel.frames (s.captures + 1)), { s with captures := s.captures + 1 })
  logicalSize := Attempt.of fun s => (.ok (reel.logical s.captures), s)
  input _ := pure ()
  sleep nanoseconds s :=
    let (complete, clock) := s.clock.sleep nanoseconds
    (complete, { s with clock })
  template id := throw (.templateNotFound id "no templates")
  backing := none
  now s := (s.clock.now, s)
  aborted s := s.clock.aborted

theorem now_sleep (reel : Reel) {nanoseconds : Nat} {s : Showing}
    (complete : (reel.surroundings.sleep nanoseconds s).1 = true) :
    (reel.surroundings.sleep nanoseconds s).2.clock.now = s.clock.now + nanoseconds :=
  ManualClock.now_sleep complete

theorem surroundings_keepsTime (reel : Reel) : reel.surroundings.KeepsTime fun s => s.clock.now where
  now_eq _ := rfl
  le_now _ := Nat.le_refl _
  le_capture _ := Nat.le_refl _
  le_logicalSize _ := Nat.le_refl _
  lt_sleep nanoseconds s positive complete := by
    rw [reel.now_sleep complete]
    omega

def world (reel : Reel) : World Showing :=
  .onClock reel.surroundings reel.surroundings_keepsTime

/--
Whether some surroundings show a reel on a clock that moves only in sleeps, and by as much as was asked for
whenever it can tell the time afterwards.
-/
structure Shows (reel : Reel) (tells : Nat → Prop) (w : Surroundings Showing) : Prop where
  capture : w.capture = reel.surroundings.capture
  logicalSize : w.logicalSize = reel.surroundings.logicalSize
  now : w.now = reel.surroundings.now
  aborted : w.aborted = reel.surroundings.aborted
  captures_sleep : ∀ nanoseconds s, (w.sleep nanoseconds s).2.captures = s.captures
  sleep : ∀ nanoseconds now captures, tells (now + nanoseconds) →
    w.sleep nanoseconds { clock := { now }, captures } =
      (true, { clock := { now := now + nanoseconds }, captures })

theorem shows_surroundings (reel : Reel) : reel.Shows (· ≤ Duration.longest) reel.surroundings where
  capture := rfl
  logicalSize := rfl
  now := rfl
  aborted := rfl
  captures_sleep _ _ := rfl
  sleep _ now captures fits :=
    congrArg (fun slept : Bool × ManualClock => (slept.1, ({ clock := slept.2, captures } : Showing)))
      (ManualClock.sleep_of_le (c := { now }) rfl rfl fits)

/-- Whether each frame has a scale, namely the given one. -/
def Resolves (reel : Reel) (scales : Nat → Scale) : Prop :=
  ∀ n, 0 < n → Scale.resolve (reel.frames n).size (reel.logical n) = .ok (scales n)

def look (reel : Reel) (scales : Nat → Scale) (template : Template) (n : Nat) : Match :=
  (template.find (reel.frames n) (scales n)).result

structure At (captures now : Nat) (s : Search Showing) : Prop where
  world : s.world = { clock := { now }, captures }
  sound : s.cache.Sound

open Search (poll pollUntil pollUntil_eq)

variable {reel : Reel} {scales : Nat → Scale} {template : Template} {policy : Policy}
  {tells : Nat → Prop} {captures now started : Nat} {s : Search Showing} {attempts : UInt32}

theorem exists_observe (resolves : reel.Resolves scales) {n : Nat} (positive : 0 < n)
    (start : At n now s) :
    ∃ t, (Search.observe (reel.frames n).size (reel.logical n)).on s = (.ok (scales n), t) ∧
      At n now t := by
  obtain ⟨cache, notice, answer, sound⟩ := Scale.Cache.exists_observe start.sound (resolves n positive)
  simp only [Search.observe, Attempt.on_get_bind, answer]
  cases notice with
  | none => exact ⟨_, rfl, start.world, sound⟩
  | some notice => exact ⟨_, rfl, start.world, sound⟩

section

variable {w : Surroundings Showing} (shows : reel.Shows tells w)
include shows

theorem exists_poll (template : Template) (attempts : UInt32) (resolves : reel.Resolves scales)
    (start : At captures now s) :
    ∃ t, (poll w template attempts).on s =
        (.ok (reel.look scales template (captures + 1), scales (captures + 1)), t) ∧
      At (captures + 1) now t := by
  obtain ⟨world, cache, journal⟩ := s
  obtain ⟨rfl, sound⟩ := start
  -- The capture and the size of the screen are those of the next frame.
  let shown : Search Showing :=
    { world := { clock := { now }, captures := captures + 1 }, cache
      journal := .capturing :: journal }
  have seen : (poll w template attempts).on
      { world := { clock := { now }, captures }, cache, journal } =
        (do
          let scale ← Search.observe (reel.frames (captures + 1)).size (reel.logical (captures + 1))
          let finding := template.find (reel.frames (captures + 1)) scale
          Search.note (.polled template.id attempts finding)
          return (finding.result, scale) : Attempt (Search Showing) (Match × Scale)).on shown := by
    simp only [poll, shows.aborted, shows.capture, shows.logicalSize]
    rfl
  obtain ⟨t, observed, after⟩ :=
    exists_observe (s := shown) resolves (Nat.succ_pos captures) ⟨rfl, sound⟩
  rw [seen, Attempt.on_bind, observed]
  exact ⟨_, rfl, after.world, after.sound⟩

/-! ## One round -/

theorem found_round (policy : Policy) (started : Nat) (attempts : UInt32)
    (resolves : reel.Resolves scales) (start : At captures now s)
    (found : (reel.look scales template (captures + 1)).found = true) :
    ∃ t, (Search.round w template policy started attempts).on s =
        (.ok (some {
          result := reel.look scales template (captures + 1), scale := scales (captures + 1)
          attempts := attempts + 1, elapsed := now - started }), t) ∧
      At (captures + 1) now t := by
  obtain ⟨t, polled, after⟩ := exists_poll shows template (attempts + 1) resolves start
  refine ⟨t, ?_, after⟩
  rw [Search.round, Attempt.on_bind, polled]
  obtain ⟨world, cache, journal⟩ := t
  obtain ⟨rfl, -⟩ := after
  simp only [found, if_true, shows.now]
  rfl

theorem missed_round (policy : Policy) (started : Nat) (attempts : UInt32)
    (resolves : reel.Resolves scales) (start : At captures now s)
    (missed : (reel.look scales template (captures + 1)).found = false)
    (fits : tells (now + policy.interval)) :
    ∃ t, (Search.round w template policy started attempts).on s =
        (.ok (if policy.timeout ≤ now + policy.interval - started then some {
            result := reel.look scales template (captures + 1), scale := scales (captures + 1)
            attempts := attempts + 1, elapsed := now + policy.interval - started }
          else none), t) ∧
      At (captures + 1) (now + policy.interval) t := by
  obtain ⟨t, polled, after⟩ := exists_poll shows template (attempts + 1) resolves start
  obtain ⟨world, cache, journal⟩ := t
  obtain ⟨rfl, sound⟩ := after
  refine ⟨⟨{ clock := { now := now + policy.interval }, captures := captures + 1 }, cache, journal⟩,
    ?_, rfl, sound⟩
  rw [Search.round, Attempt.on_bind, polled]
  simp only [missed, shows.now]
  rw [if_neg Bool.false_ne_true, Attempt.on_bind, Search.on_onClock, shows.sleep _ _ _ fits]
  rfl

end

theorem overrun_round (template : Template) (policy : Policy) (started : Nat) (attempts : UInt32)
    (resolves : reel.Resolves scales) (start : At captures now s)
    (missed : (reel.look scales template (captures + 1)).found = false)
    (late : Duration.longest < now + policy.interval) :
    ∃ t, (Search.round reel.surroundings template policy started attempts).on s =
        (.error .aborted, t) ∧
      t.world = { clock := { now, overrun := true }, captures := captures + 1 } := by
  obtain ⟨t, polled, after⟩ :=
    exists_poll reel.shows_surroundings template (attempts + 1) resolves start
  obtain ⟨world, cache, journal⟩ := t
  obtain ⟨rfl, -⟩ := after
  have slept : reel.surroundings.sleep policy.interval
      { clock := { now }, captures := captures + 1 } =
        (false, { clock := { now, overrun := true }, captures := captures + 1 }) :=
    congrArg (fun slept : Bool × ManualClock =>
        (slept.1, ({ clock := slept.2, captures := captures + 1 } : Showing)))
      (ManualClock.sleep_of_lt (c := { now }) rfl late)
  refine ⟨⟨{ clock := { now, overrun := true }, captures := captures + 1 }, cache, journal⟩, ?_, rfl⟩
  rw [Search.round, Attempt.on_bind, polled]
  simp only [missed]
  rw [if_neg Bool.false_ne_true, Attempt.on_bind, Search.on_onClock, slept]
  rfl

/-! ## Whole searches -/

section

variable {w : World Showing} (shows : reel.Shows tells w.toSurroundings)
include shows

theorem pollUntil_missed (policy : Policy) (rounds : Nat) (resolves : reel.Resolves scales)
    (start : At captures started s) (early : rounds < policy.maxRounds)
    (missed : ∀ n, 0 < n → n ≤ rounds →
      (reel.look scales template (captures + n)).found = false)
    (fits : ∀ n, 0 < n → n ≤ rounds → tells (started + n * policy.interval)) :
    ∃ attempts t, pollUntil w template policy started 0 s =
        pollUntil w template policy started attempts t ∧
      At (captures + rounds) (started + rounds * policy.interval) t := by
  induction rounds with
  | zero => exact ⟨0, s, rfl, by simpa using start⟩
  | succ rounds ih =>
      have time : started + rounds * policy.interval + policy.interval =
          started + (rounds + 1) * policy.interval := by
        rw [Nat.add_mul, Nat.one_mul, Nat.add_assoc]
      obtain ⟨attempts, t, same, before⟩ :=
        ih (by omega) (fun n positive le => missed n positive (by omega))
          fun n positive le => fits n positive (by omega)
      obtain ⟨after, made, at_after⟩ := missed_round shows policy started attempts resolves before
        (missed (rounds + 1) (by omega) (Nat.le_refl _))
        (time ▸ fits (rounds + 1) (Nat.succ_pos _) (Nat.le_refl _))
      rw [time, Nat.add_sub_cancel_left] at made
      rw [time] at at_after
      rw [if_neg (Nat.not_le.2 ((policy.lt_maxRounds_iff _).1 early))] at made
      refine ⟨attempts + 1, after, ?_, at_after⟩
      rw [same, pollUntil_eq]
      rw [made]

end

/-- A search comes to an outcome with its `count`-th frame, after some time. -/
def Takes (reel : Reel) (w : World Showing) (scales : Nat → Scale) (template : Template)
    (policy : Policy) (s : Search Showing) (count elapsed : Nat) : Prop :=
  ∃ outcome t, (Search.run w template policy).on s = (.ok outcome, t) ∧
    outcome.result = reel.look scales template (s.world.captures + count) ∧
    outcome.scale = scales (s.world.captures + count) ∧ outcome.elapsed = elapsed ∧
    t.world = { clock := { s.world.clock with now := s.world.clock.now + elapsed }
                captures := s.world.captures + count }

section

variable {w : World Showing} (shows : reel.Shows tells w.toSurroundings)
include shows

theorem takes_of_pollUntil (start : At captures started s) {count elapsed : Nat}
    {outcome : Search.Outcome} {t : Search Showing}
    (h : pollUntil w template policy started 0 s = (.ok outcome, t))
    (result : outcome.result = reel.look scales template (captures + count))
    (scale : outcome.scale = scales (captures + count)) (time : outcome.elapsed = elapsed)
    (after : At (captures + count) (started + elapsed) t) :
    reel.Takes w scales template policy s count elapsed := by
  obtain ⟨world, cache, journal⟩ := s
  obtain ⟨rfl, -⟩ := start
  refine ⟨outcome, t, ?_, result, scale, time, after.world⟩
  rw [Search.run, Attempt.on_bind, Search.on_onClock, shows.now]
  exact h

theorem takes_found (resolves : reel.Resolves scales) (start : At captures started s) {misses : Nat}
    (early : misses < policy.maxRounds)
    (missed : ∀ n, 0 < n → n ≤ misses → (reel.look scales template (captures + n)).found = false)
    (found : (reel.look scales template (captures + (misses + 1))).found = true)
    (fits : ∀ n, 0 < n → n ≤ misses → tells (started + n * policy.interval)) :
    reel.Takes w scales template policy s (misses + 1) (misses * policy.interval) := by
  obtain ⟨attempts, before, same, at_before⟩ :=
    pollUntil_missed shows policy misses resolves start early missed fits
  obtain ⟨t, made, after⟩ := found_round shows policy started attempts resolves at_before found
  have ended := same.trans (pollUntil_eq _ _ _ _ _ _)
  rw [made] at ended
  exact takes_of_pollUntil shows start ended rfl rfl (Nat.add_sub_cancel_left _ _) after

theorem takes_missed (resolves : reel.Resolves scales) (start : At captures started s)
    (missed : ∀ n, 0 < n → n ≤ policy.maxRounds →
      (reel.look scales template (captures + n)).found = false)
    (fits : ∀ n, 0 < n → n ≤ policy.maxRounds → tells (started + n * policy.interval)) :
    reel.Takes w scales template policy s policy.maxRounds (policy.maxRounds * policy.interval) := by
  obtain ⟨misses, last⟩ := Nat.exists_eq_add_one_of_ne_zero policy.maxRounds_ne_zero
  rw [last] at missed fits ⊢
  have time : started + misses * policy.interval + policy.interval =
      started + (misses + 1) * policy.interval := by
    rw [Nat.add_mul, Nat.one_mul, Nat.add_assoc]
  obtain ⟨attempts, before, same, at_before⟩ :=
    pollUntil_missed shows policy misses resolves start (by omega)
      (fun n positive le => missed n positive (by omega)) fun n positive le => fits n positive (by omega)
  obtain ⟨t, made, after⟩ := missed_round shows policy started attempts resolves at_before
    (missed (misses + 1) (by omega) (Nat.le_refl _))
    (time ▸ fits (misses + 1) (Nat.succ_pos _) (Nat.le_refl _))
  have late : policy.timeout ≤ (misses + 1) * policy.interval :=
    (policy.maxRounds_le_iff _).1 (Nat.le_of_eq last)
  rw [time, Nat.add_sub_cancel_left, if_pos late] at made
  rw [time] at after
  have ended := same.trans (pollUntil_eq _ _ _ _ _ _)
  rw [made] at ended
  exact takes_of_pollUntil shows start ended rfl rfl rfl after

end

theorem at_start (calm : s.world.clock.aborted = false) (counted : s.world.clock.overrun = false)
    (sound : s.cache.Sound) : At s.world.captures s.world.clock.now s := by
  obtain ⟨⟨⟨now, aborted, overrun⟩, captures⟩, cache, journal⟩ := s
  cases calm
  cases counted
  exact ⟨rfl, sound⟩

theorem le_longest {rounds interval : Nat} (fits : now + rounds * interval ≤ Duration.longest) (n : Nat)
    (_ : 0 < n) (le : n ≤ rounds) : now + n * interval ≤ Duration.longest :=
  (Nat.add_le_add_left (Nat.mul_le_mul_right interval le) now).trans fits

/--
A search on a reel that nobody aborts ends with the first frame that shows the template, if this is
among those that it has time for; after `m` captures, `m - 1` intervals have passed. Else it ends with
the last frame that it has time for, which is a miss, and the time that has passed is less than one
interval more than the timeout. All this is so if the clock can tell the time at the end. The scale that
is remembered before may be any that an observation can leave (`Scale.Cache.sound_empty`,
`Scale.Cache.sound_of_observe`).
-/
theorem run_exact (resolves : reel.Resolves scales) (template : Template) (policy : Policy)
    (calm : s.world.clock.aborted = false) (counted : s.world.clock.overrun = false)
    (sound : s.cache.Sound) :
    (∀ m, IsLeast {n | 0 < n ∧ (reel.look scales template (s.world.captures + n)).found = true} m →
      m ≤ policy.maxRounds → s.world.clock.now + (m - 1) * policy.interval ≤ Duration.longest →
        reel.Takes reel.world scales template policy s m ((m - 1) * policy.interval)) ∧
    ((∀ n, 0 < n → n ≤ policy.maxRounds →
        (reel.look scales template (s.world.captures + n)).found = false) →
      s.world.clock.now + policy.maxRounds * policy.interval ≤ Duration.longest →
        reel.Takes reel.world scales template policy s policy.maxRounds
            (policy.maxRounds * policy.interval) ∧
          policy.timeout ≤ policy.maxRounds * policy.interval ∧
          policy.maxRounds * policy.interval < policy.timeout + policy.interval) := by
  have start := at_start calm counted sound
  constructor
  · intro m first inTime fits
    obtain ⟨⟨positive, found⟩, least⟩ := first
    obtain ⟨misses, rfl⟩ := Nat.exists_eq_add_one_of_ne_zero (Nat.ne_of_gt positive)
    rw [Nat.add_sub_cancel] at fits ⊢
    refine takes_found reel.shows_surroundings resolves start inTime ?_ found (le_longest fits)
    intro n positive le
    by_contra hit
    have := least ⟨positive, Bool.eq_true_of_not_eq_false hit⟩
    omega
  · intro missed fits
    exact ⟨takes_missed reel.shows_surroundings resolves start missed (le_longest fits),
      (policy.maxRounds_le_iff _).1 (Nat.le_refl _), policy.maxRounds_mul_lt⟩

theorem run_overruns (resolves : reel.Resolves scales) (template : Template) (policy : Policy)
    (calm : s.world.clock.aborted = false) (counted : s.world.clock.overrun = false)
    (sound : s.cache.Sound) (rounds : Nat) (early : rounds < policy.maxRounds)
    (missed : ∀ n, 0 < n → n ≤ rounds + 1 →
      (reel.look scales template (s.world.captures + n)).found = false)
    (fits : s.world.clock.now + rounds * policy.interval ≤ Duration.longest)
    (late : Duration.longest < s.world.clock.now + (rounds + 1) * policy.interval) :
    ∃ t, (Search.run reel.world template policy).on s = (.error .aborted, t) ∧
      t.world.clock.overrun = true := by
  obtain ⟨attempts, before, same, at_before⟩ :=
    pollUntil_missed (w := reel.world) reel.shows_surroundings policy rounds resolves
      (at_start calm counted sound) early (fun n positive le => missed n positive (by omega))
      (le_longest fits)
  rw [Nat.add_mul, Nat.one_mul, ← Nat.add_assoc] at late
  obtain ⟨t, made, left⟩ := overrun_round template policy s.world.clock.now attempts resolves at_before
    (missed (rounds + 1) (Nat.succ_pos _) (Nat.le_refl _)) late
  refine ⟨t, ?_, by rw [left]⟩
  have ended := same.trans (pollUntil_eq _ _ _ _ _ _)
  change (Search.round reel.world.toSurroundings template policy _ attempts).on before = _ at made
  rw [made] at ended
  exact ended

def late : Reel where
  frames n := Raster.generate 2 2 fun x y =>
    if n < 3 ∨ x = y then ⟨0, 0, 0, 255⟩ else ⟨255, 255, 255, 255⟩
  logical _ := ⟨2, 2⟩

def lateScale (_ : Nat) : Scale :=
  ⟨Float.ofNat 2 / Float.ofNat 2, by decide +kernel, by decide +kernel⟩

def squares : Template :=
  .ofImage "squares" (Picture.luma (late.frames 3))

theorem resolves_late : late.Resolves lateScale := by
  intro n _
  have ratio : Scale.ofFloat? (Float.ofNat 2 / Float.ofNat 2) = some (lateScale n) :=
    dif_pos ⟨(lateScale n).finite, (lateScale n).positive⟩
  change Scale.resolve ⟨2, 2⟩ ⟨2, 2⟩ = _
  rw [Scale.resolve]
  simp only [Size.isEmpty, ratio]
  rfl

theorem missed_late (n : Nat) (positive : 0 < n) (early : n ≤ 2) :
    (late.look lateScale squares (0 + n)).found = false := by
  have misses : ∀ n < 3, 0 < n → (late.look lateScale squares (0 + n)).found = false := by
    decide +kernel
  exact misses n (by omega) positive

theorem run_exact_late :
    late.Resolves lateScale ∧ 0 + (3 - 1) * Policy.standard.interval ≤ Duration.longest ∧
      late.Takes late.world lateScale squares .standard { world := {} } 3 1000000000 := by
  refine ⟨resolves_late, by decide, (run_exact (s := { world := {} }) resolves_late squares .standard
    rfl rfl Scale.Cache.sound_empty).1 3 ⟨⟨by decide, by decide +kernel⟩, ?_⟩ ?_ (by decide)⟩
  · rintro n ⟨positive, found⟩
    by_contra early
    have missed := missed_late n positive (by omega)
    rw [missed] at found
    cases found
  · exact (Policy.lt_maxRounds_iff .standard 2).2 (by decide)

def endless : Policy :=
  ⟨Duration.longest, Duration.longest - 1, by decide, by decide⟩

theorem maxRounds_endless : endless.maxRounds = 2 :=
  Nat.le_antisymm ((Policy.maxRounds_le_iff endless 2).2 (by decide))
    ((Policy.lt_maxRounds_iff endless 1).2 (by decide))

/-- The second sleep of a search goes beyond the longest time. -/
theorem not_takes_endless :
    late.Resolves lateScale ∧
      (∀ n, 0 < n → n ≤ endless.maxRounds → (late.look lateScale squares (0 + n)).found = false) ∧
      ¬ late.Takes late.world lateScale squares endless { world := {} } endless.maxRounds
          (endless.maxRounds * endless.interval) := by
  have missed (n : Nat) (positive : 0 < n) (le : n ≤ endless.maxRounds) :
      (late.look lateScale squares (0 + n)).found = false :=
    missed_late n positive (maxRounds_endless ▸ le)
  refine ⟨resolves_late, missed, fun ⟨outcome, t, ran, _⟩ => ?_⟩
  obtain ⟨u, overran, -⟩ := run_overruns (s := { world := {} }) resolves_late squares endless rfl rfl
    Scale.Cache.sound_empty 1 ((Policy.lt_maxRounds_iff endless 1).2 (by decide))
    (fun n positive le => missed n positive (maxRounds_endless ▸ le)) (by decide) (by decide)
  rw [ran] at overran
  cases overran

end Reel

end ScreenScript
