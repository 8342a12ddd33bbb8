namespace ScreenScript

namespace Duration

def millisecond : Nat := 1000000

def ofMilliseconds (n : Nat) : Nat := n * millisecond

def milliseconds (nanoseconds : Nat) : Nat := nanoseconds / millisecond

end Duration

/-- How long to look for a target, and how often. -/
structure Policy where
  timeout : Nat
  interval : Nat
  interval_pos : 0 < interval
  interval_lt_timeout : interval < timeout

/-- Why two durations are no policy. -/
inductive Policy.Fault where
  | notPositive
  | intervalTooLong (interval timeout : Nat)

namespace Policy

def Fault.message : Policy.Fault → String
  | notPositive => "invalid retry policy: timeout and interval must be positive"
  | intervalTooLong interval timeout =>
    s!"invalid retry policy: interval ({Duration.milliseconds interval}ms) must be shorter than timeout " ++
      s!"({Duration.milliseconds timeout}ms)"

/-- The policy with these times, which must be positive and the interval the shorter one. -/
def make (timeout interval : Nat) : Except Policy.Fault Policy :=
  if h₀ : timeout = 0 ∨ interval = 0 then .error .notPositive
  else if h : interval < timeout then
    .ok ⟨timeout, interval, Nat.pos_of_ne_zero fun h => h₀ (.inr h), h⟩
  else .error (.intervalTooLong interval timeout)

def standard : Policy :=
  ⟨10000000000, 500000000, by decide, by decide⟩

/--
The policy of a target that gives some of the times: a timeout alone keeps the interval of `base`
unless half the timeout is shorter, and an interval alone keeps the timeout of `base`.
-/
def adjust (base : Policy) : Option Nat → Option Nat → Except Policy.Fault Policy
  | none, none => .ok base
  | some timeout, none => make timeout (min base.interval (timeout / 2))
  | none, some interval => make base.timeout interval
  | some timeout, some interval => make timeout interval

end Policy

end ScreenScript
