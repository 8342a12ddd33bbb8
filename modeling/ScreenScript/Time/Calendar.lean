namespace ScreenScript

structure Date where
  year : Int
  month : Nat
  day : Nat
  deriving DecidableEq, Repr

namespace Date

def isLeapYear (year : Int) : Bool :=
  year % 4 = 0 && (year % 100 ≠ 0 || year % 400 = 0)

def daysInMonth (year : Int) (month : Nat) : Nat :=
  if month = 2 then if isLeapYear year then 29 else 28
  else if month = 4 ∨ month = 6 ∨ month = 9 ∨ month = 11 then 30
  else 31

def isValid (d : Date) : Bool :=
  1 ≤ d.month && d.month ≤ 12 && 1 ≤ d.day && d.day ≤ daysInMonth d.year d.month

def cycle : Int := 146097

/-- The days from the first of March of year 0 to the first of January 1970. -/
def epoch : Int := 719468

/-- The days before a month, counted from March as month 0. -/
def daysBeforeMonth (month : Nat) : Nat :=
  (153 * month + 2) / 5

def daysBeforeYear (year : Nat) : Nat :=
  year * 365 + year / 4 - year / 100

def toDays (d : Date) : Int :=
  let year := if d.month ≤ 2 then d.year - 1 else d.year
  let month := (d.month + 9) % 12
  year / 400 * cycle +
    (daysBeforeYear (year % 400).toNat + daysBeforeMonth month + (d.day - 1) : Nat) - epoch

def ofDays (days : Int) : Date :=
  let shifted := days + epoch
  let dayOfCycle := (shifted % cycle).toNat
  let year :=
    (dayOfCycle - dayOfCycle / 1460 + dayOfCycle / 36524 - dayOfCycle / 146096) / 365
  let dayOfYear := dayOfCycle - daysBeforeYear year
  let month := (5 * dayOfYear + 2) / 153
  let calendarMonth := if month < 10 then month + 3 else month - 9
  let calendarYear := shifted / cycle * 400 + year
  { year := if calendarMonth ≤ 2 then calendarYear + 1 else calendarYear
    month := calendarMonth
    day := dayOfYear - daysBeforeMonth month + 1 }

end Date

end ScreenScript
