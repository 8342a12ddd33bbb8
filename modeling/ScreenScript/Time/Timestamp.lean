import ScreenScript.Number.Reading
import ScreenScript.Text.Characters
import ScreenScript.Time.Calendar

namespace ScreenScript

structure Timestamp where
  /-- The days since the first of January 1970. -/
  day : Int
  second : Nat
  /-- The nanoseconds of the second, which go on to a second more in a leap second. -/
  nanosecond : Nat
  deriving DecidableEq, Repr

namespace Timestamp

def secondLength : Nat := 1000000000

def dayLength : Nat := 86400

def ofSeconds (seconds : Int) (nanosecond : Nat) : Timestamp :=
  ⟨seconds / dayLength, (seconds % dayLength).toNat, nanosecond⟩

/-! ## Writing -/

def padded (width n : Nat) : String :=
  let ds := Nat.toDigits 10 n
  String.ofList (List.replicate (width - ds.length) '0' ++ ds)

def yearText (year : Int) : String :=
  if year < 0 then "-" ++ padded 4 year.natAbs
  else if 9999 < year then "+" ++ padded 4 year.natAbs
  else padded 4 year.natAbs

def dateText (t : Timestamp) : String :=
  let d := Date.ofDays t.day
  yearText d.year ++ "-" ++ padded 2 d.month ++ "-" ++ padded 2 d.day

def timeText (t : Timestamp) : String :=
  padded 2 (t.second / 3600) ++ ":" ++ padded 2 (t.second / 60 % 60) ++ ":" ++
    padded 2 (t.second % 60 + t.nanosecond / secondLength)

def fractionText (t : Timestamp) : String :=
  let nanosecond := t.nanosecond % secondLength
  if nanosecond = 0 then ""
  else if nanosecond % 1000000 = 0 then "." ++ padded 3 (nanosecond / 1000000)
  else if nanosecond % 1000 = 0 then "." ++ padded 6 (nanosecond / 1000)
  else "." ++ padded 9 nanosecond

def write (zone : String) (t : Timestamp) : String :=
  t.dateText ++ "T" ++ t.timeText ++ t.fractionText ++ zone

def display (t : Timestamp) : String :=
  t.dateText ++ " " ++ t.timeText ++ " UTC"

/-! ## Reading -/

def digits? (most : Nat) (cs : List Char) : Option (Nat × List Char) :=
  let ds := (cs.take most).takeWhile Char.isDigit
  if ds.isEmpty then none else some (Number.ofDigits 0 ds, cs.drop ds.length)

def number? (most : Nat) (cs : List Char) : Option (Nat × List Char) :=
  digits? most (Text.trimStart cs)

def year? (cs : List Char) : Option (Int × List Char) :=
  match Text.trimStart cs with
  | '-' :: cs => (digits? cs.length cs).map fun (n, rest) => (-n, rest)
  | '+' :: cs => (digits? cs.length cs).map fun (n, rest) => (n, rest)
  | cs => (digits? 4 cs).map fun (n, rest) => (n, rest)

def mark? (c : Char) (cs : List Char) : Option (List Char) :=
  match Text.trimStart cs with
  | first :: rest => if first = c then some rest else none
  | [] => none

def isYear (year : Int) : Bool :=
  -262143 ≤ year && year ≤ 262142

def date? (cs : List Char) : Option (Date × List Char) := do
  let (year, cs) ← year? cs
  let (month, cs) ← number? 2 (← mark? '-' cs)
  let (day, cs) ← number? 2 (← mark? '-' cs)
  let d : Date := ⟨year, month, day⟩
  if isYear year && d.isValid then some (d, cs) else none

def fraction? (cs : List Char) : Option (Nat × List Char) :=
  match cs with
  | '.' :: cs => do
    let (n, rest) ← digits? 9 cs
    let places := min 9 (cs.takeWhile Char.isDigit).length
    return (n * Nat.pow 10 (9 - places), rest.dropWhile Char.isDigit)
  | cs => some (0, cs)

def time? (cs : List Char) : Option (Nat × Nat × List Char) := do
  let (hour, cs) ← number? 2 cs
  let (minute, cs) ← number? 2 (← mark? ':' cs)
  let (second, cs) ← number? 2 (← mark? ':' cs)
  let (nanosecond, cs) ← fraction? cs
  if 23 < hour ∨ 59 < minute ∨ 60 < second then none
  else
    let leap := if second = 60 then secondLength else 0
    return (hour * 3600 + minute * 60 + min second 59, nanosecond + leap, cs)

def pair? (cs : List Char) : Option (Nat × List Char) :=
  match cs with
  | a :: b :: rest =>
    if a.isDigit && b.isDigit then some (Number.ofDigits 0 [a, b], rest) else none
  | _ => none

def offset? (cs : List Char) : Option (Int × List Char) := do
  let (negative, cs) ← match cs with
    | '+' :: cs => some (false, cs)
    | '-' :: cs | '−' :: cs => some (true, cs)
    | _ => none
  let (hours, cs) ← pair? cs
  let (minutes, cs) ← pair? (cs.dropWhile fun c => c = ':' || Text.isBlank c)
  let seconds := hours * 3600 + minutes * 60
  if 59 < minutes ∨ dayLength ≤ seconds then none
  else return (if negative then -(seconds : Nat) else seconds, cs)

def zone? (cs : List Char) : Option (Int × List Char) :=
  match cs with
  | [] => none
  | c :: rest =>
    if c.toLower = 'z' then some (0, rest)
    else if (cs.take 3).map Char.toLower = ['u', 't', 'c'] then some (0, cs.drop 3)
    else offset? cs

def read? (s : String) : Option Timestamp := do
  let (d, cs) ← date? s.toList
  let cs ← match cs with
    | 'T' :: cs | 't' :: cs | ' ' :: cs => some cs
    | _ => none
  let (second, nanosecond, cs) ← time? cs
  let (ahead, cs) ← zone? (Text.trimStart cs)
  if !(Text.trimStart cs).isEmpty then none
  else
    let t := ofSeconds (d.toDays * dayLength + second - ahead) nanosecond
    if isYear (Date.ofDays t.day).year then some t else none

end Timestamp

end ScreenScript
