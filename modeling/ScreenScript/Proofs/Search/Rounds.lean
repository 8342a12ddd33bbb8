import ScreenScript.Proofs.Except
import ScreenScript.Proofs.Run.Recorded
import ScreenScript.Proofs.Search.Scales

namespace ScreenScript.Search

open Attempt (cases_of_on_bind)

variable {σ α : Type}

theorem exists_of_recorded {a : Attempt σ α} {call : Call} {s t : Search (Recorded σ)}
    {result : Except Failure α} (h : (onWorld (Recorded.attempt call a)).on s = (result, t)) :
    ∃ world, a.on s.world.world = (result, world) ∧ t = { s with world := s.world.after call world } := by
  obtain ⟨same, after⟩ := Prod.mk.inj h
  exact ⟨(a.on s.world.world).2, Prod.ext same rfl, after.symm⟩

theorem exists_of_recorded_clock {a : StateM σ α} {call : Call} {s t : Search (Recorded σ)} {x : α}
    (h : (onClock (Recorded.answer call a)).on s = (.ok x, t)) :
    ∃ world, a s.world.world = (x, world) ∧ t = { s with world := s.world.after call world } := by
  obtain ⟨same, after⟩ := Prod.mk.inj h
  exact ⟨(a s.world.world).2, Prod.ext (Except.ok.inj same) rfl, after.symm⟩

inductive Polled (w : Surroundings σ) (template : Template) (s t : Search (Recorded σ)) :
    Except Failure (Match × Scale) → Prop where
  | aborted (asked : w.aborted s.world.world = true) (same : t = s) :
    Polled w template s t (.error .aborted)
  | uncaptured {failure : Failure} {world : σ}
    (capturing : w.capture.on s.world.world = (.error failure, world))
    (left : t.world = s.world.after .capture world) : Polled w template s t (.error failure)
  | unmeasured {capture : Picture} {failure : Failure} {captured world : σ}
    (capturing : w.capture.on s.world.world = (.ok capture, captured))
    (measuring : w.logicalSize.on captured = (.error failure, world))
    (left : t.world = (s.world.after .capture captured).after .logicalSize world) :
    Polled w template s t (.error failure)
  | unscaled {capture : Picture} {logical : Size} {captured world : σ} {fault : Scale.Fault}
    (capturing : w.capture.on s.world.world = (.ok capture, captured))
    (measuring : w.logicalSize.on captured = (.ok logical, world))
    (left : t.world = (s.world.after .capture captured).after .logicalSize world) :
    Polled w template s t (.error (.scaleResolution fault.message))
  | looked {capture : Picture} {logical : Size} {captured world : σ} {scale : Scale}
    {notice? : Option Scale.Notice}
    (capturing : w.capture.on s.world.world = (.ok capture, captured))
    (measuring : w.logicalSize.on captured = (.ok logical, world))
    (left : t.world = (s.world.after .capture captured).after .logicalSize world)
    (observed : s.cache.observe capture.size logical = .ok (scale, t.cache, notice?)) :
    Polled w template s t (.ok ((template.find capture scale).result, scale))

section Polled

variable {w : Surroundings σ} {template : Template} {s t : Search (Recorded σ)} {attempt : UInt32}
  {result : Except Failure (Match × Scale)}

theorem polled (h : (poll w.recorded template attempt).on s = (result, t)) :
    Polled w template s t result := by
  cases asked : w.aborted s.world.world with
  | true =>
      rw [poll_of_aborted asked] at h
      cases h
      exact .aborted asked rfl
  | false =>
      rw [poll_of_not_aborted asked, takeCapture, bind_assoc] at h
      obtain ⟨_, _, noted⟩ | ⟨_, s₁, noted, h⟩ := cases_of_on_bind h
      · cases noted
      cases noted
      obtain ⟨failure, rfl, failed⟩ | ⟨capture, s₂, taken, h⟩ := cases_of_on_bind h
      · obtain ⟨world, capturing, rfl⟩ := exists_of_recorded failed
        exact .uncaptured capturing rfl
      obtain ⟨captured, capturing, rfl⟩ := exists_of_recorded taken
      obtain ⟨failure, rfl, failed⟩ | ⟨logical, s₃, asked, h⟩ := cases_of_on_bind h
      · obtain ⟨world, measuring, rfl⟩ := exists_of_recorded failed
        exact .unmeasured capturing measuring rfl
      obtain ⟨world, measuring, rfl⟩ := exists_of_recorded asked
      obtain ⟨failure, rfl, failed⟩ | ⟨scale, s₄, observed, h⟩ := cases_of_on_bind h
      · obtain ⟨fault, rfl, rfl⟩ := exists_of_observe_error failed
        exact .unscaled capturing measuring rfl
      · obtain ⟨same, notice?, observed⟩ := exists_of_observe_ok observed
        cases h
        exact .looked capturing measuring same observed

end Polled

inductive Rounded (w : Surroundings σ) (template : Template) (policy : Policy) (started : Nat)
    (attempts : UInt32) (s t : Search (Recorded σ)) : Except Failure (Option Outcome) → Prop where
  | failed {failure : Failure} (polled : Polled w template s t (.error failure)) :
    Rounded w template policy started attempts s t (.error failure)
  | found {result : Match} {scale : Scale} {u : Search (Recorded σ)} {time : Nat} {world : σ}
    (polled : Polled w template s u (.ok (result, scale))) (found : result.found = true)
    (read : w.now u.world.world = (time, world)) (left : t.world = u.world.after .now world) :
    Rounded w template policy started attempts s t
      (.ok (some { result, scale, attempts := attempts + 1, elapsed := time - started }))
  | cut {result : Match} {scale : Scale} {u : Search (Recorded σ)} {world : σ}
    (polled : Polled w template s u (.ok (result, scale))) (missed : result.found = false)
    (slept : w.sleep policy.interval u.world.world = (false, world))
    (left : t.world = u.world.after (.sleep policy.interval) world) :
    Rounded w template policy started attempts s t (.error .aborted)
  | late {result : Match} {scale : Scale} {u : Search (Recorded σ)} {time : Nat} {woken world : σ}
    (polled : Polled w template s u (.ok (result, scale))) (missed : result.found = false)
    (slept : w.sleep policy.interval u.world.world = (true, woken))
    (read : w.now woken = (time, world))
    (left : t.world = (u.world.after (.sleep policy.interval) woken).after .now world)
    (late : policy.timeout ≤ time - started) :
    Rounded w template policy started attempts s t
      (.ok (some { result, scale, attempts := attempts + 1, elapsed := time - started }))
  | again {result : Match} {scale : Scale} {u : Search (Recorded σ)} {time : Nat} {woken world : σ}
    (polled : Polled w template s u (.ok (result, scale))) (missed : result.found = false)
    (slept : w.sleep policy.interval u.world.world = (true, woken))
    (read : w.now woken = (time, world))
    (left : t.world = (u.world.after (.sleep policy.interval) woken).after .now world)
    (early : time - started < policy.timeout) :
    Rounded w template policy started attempts s t (.ok none)

section Rounded

variable {w : Surroundings σ} {template : Template} {policy : Policy} {started : Nat}
  {attempts : UInt32} {s t : Search (Recorded σ)} {result : Except Failure (Option Outcome)}

theorem rounded (h : (round w.recorded template policy started attempts).on s = (result, t)) :
    Rounded w template policy started attempts s t result := by
  obtain ⟨failure, rfl, failed⟩ | ⟨⟨seen, scale⟩, u, made, h⟩ := cases_of_on_bind h
  · exact .failed (polled failed)
  have made := polled made
  cases found : seen.found with
  | true =>
      simp only [found, if_true] at h
      cases h
      exact .found made found rfl rfl
  | false =>
      simp only [found, Bool.false_eq_true, if_false] at h
      obtain ⟨_, _, slept⟩ | ⟨complete, u₁, slept, h⟩ := cases_of_on_bind h
      · cases slept
      obtain ⟨woken, sleeping, rfl⟩ := exists_of_recorded_clock slept
      cases complete with
      | false =>
          cases h
          exact .cut made found sleeping rfl
      | true =>
          obtain ⟨_, _, read⟩ | ⟨time, u₂, read, h⟩ := cases_of_on_bind h
          · cases read
          obtain ⟨world, reading, rfl⟩ := exists_of_recorded_clock read
          dsimp only at h
          split at h
          · rename_i late
            cases h
            exact .late made found sleeping reading rfl late
          · rename_i early
            cases h
            exact .again made found sleeping reading rfl (Nat.lt_of_not_le early)

end Rounded

def outcome? (w : Surroundings σ) (template : Template) (policy : Policy) (started : Nat)
    (attempts : UInt32) (s : Search σ) : Option Outcome :=
  ((round w template policy started attempts).on s).1.toOption.join

theorem pollUntil_of_outcome? {w : World σ} {template : Template} {policy : Policy} {started : Nat}
    {attempts : UInt32} {s : Search σ} {outcome : Outcome}
    (h : outcome? w.toSurroundings template policy started attempts s = some outcome) :
    pollUntil w template policy started attempts s =
      (.ok outcome, ((round w.toSurroundings template policy started attempts).on s).2) := by
  rw [pollUntil_eq]
  rcases made : (round w.toSurroundings template policy started attempts).on s with ⟨result, t⟩
  rw [outcome?, made, Option.join_eq_some_iff, Except.toOption_eq_some_iff] at h
  cases h
  rfl

end ScreenScript.Search
