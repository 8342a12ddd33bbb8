/-!
# Clocks

A clock that stands still unless it is moved. It makes waiting exact and instant: a sleep moves it by
its length, unless an abort has been asked for or there is no such time. A sleep on the time of day, which
a rehearsal does not wait for, is complete if no abort has been asked for.
-/

namespace ScreenScript

/-- The longest length of time there is: so many seconds as fit in 64 bits, and all but a second. -/
def Duration.longest : Nat :=
  Nat.pow 2 64 * 1000000000 - 1

/-- A clock that is moved by hand, with the wish to abort. -/
structure ManualClock where
  /-- The time since the start, in nanoseconds. -/
  now : Nat := 0
  aborted : Bool := false
  /--
  Whether it was to be moved beyond the longest time. There is no going on from there: the clock
  stays where it was, and nothing that comes later counts.
  -/
  overrun : Bool := false
  deriving DecidableEq, Repr

namespace ManualClock

def advance (c : ManualClock) (nanoseconds : Nat) : ManualClock :=
  if c.now + nanoseconds ≤ Duration.longest then { c with now := c.now + nanoseconds }
  else { c with overrun := true }

def trigger (c : ManualClock) : ManualClock :=
  { c with aborted := true }

/-- Sleeps; the result is false if an abort has been asked for, or if there is no such time. -/
def sleep (c : ManualClock) (nanoseconds : Nat) : Bool × ManualClock :=
  if c.aborted then (false, c)
  else
    let after := c.advance nanoseconds
    (!after.overrun, after)

def wait (c : ManualClock) (_nanoseconds : Nat) : Bool :=
  c.aborted

variable {c : ManualClock} {nanoseconds : Nat}

theorem now_le_advance (c : ManualClock) (nanoseconds : Nat) : c.now ≤ (c.advance nanoseconds).now := by
  unfold advance
  split
  · exact Nat.le_add_right _ _
  · exact Nat.le_refl _

theorem now_sleep (complete : (c.sleep nanoseconds).1 = true) :
    (c.sleep nanoseconds).2.now = c.now + nanoseconds := by
  simp only [sleep, advance] at complete ⊢
  split at complete
  · cases complete
  · rename_i calm
    rw [if_neg calm]
    split at complete
    · rename_i fits
      exact congrArg now (if_pos fits)
    · cases complete

theorem sleep_of_le (calm : c.aborted = false) (counted : c.overrun = false)
    (fits : c.now + nanoseconds ≤ Duration.longest) :
    c.sleep nanoseconds = (true, { c with now := c.now + nanoseconds }) := by
  simp [sleep, advance, calm, counted, fits]

theorem sleep_of_lt (calm : c.aborted = false) (late : Duration.longest < c.now + nanoseconds) :
    c.sleep nanoseconds = (false, { c with overrun := true }) := by
  simp [sleep, advance, calm, Nat.not_le.2 late]

end ManualClock

end ScreenScript
