import ScreenScript.Json.Basic
import ScreenScript.Number.Reading

namespace ScreenScript.Json

/-- The digits of a number with its point left out, and the power of ten that they count. -/
structure Scaled where
  digits : Nat
  exponent : Int

namespace Scaled

def limit : Nat := Nat.pow 2 64

def addWhole (s : Scaled) : List Char → Scaled
  | [] => s
  | c :: cs =>
    let digits := Number.ofDigits s.digits [c]
    if digits < limit then addWhole { s with digits } cs
    else { s with exponent := s.exponent + (c :: cs).length }

def addPlaces (s : Scaled) : List Char → Scaled
  | [] => s
  | c :: cs =>
    let digits := Number.ofDigits s.digits [c]
    if digits < limit then addPlaces ⟨digits, s.exponent - 1⟩ cs else s

def maxPower : Int := 308

def powerOfTen (exponent : Int) : Float :=
  Number.nearest 1 exponent

def toFloat? (s : Scaled) : Option Float :=
  let x := (UInt64.ofNat s.digits).toFloat
  if maxPower < s.exponent then if s.digits = 0 then some 0.0 else none
  else if 0 ≤ s.exponent then
    let scaled := x * powerOfTen s.exponent
    if scaled.isInf then none else some scaled
  else if -maxPower ≤ s.exponent then some (x / powerOfTen (-s.exponent))
  else if -2 * maxPower ≤ s.exponent then
    some (x / powerOfTen maxPower / powerOfTen (-s.exponent - maxPower))
  else some 0.0

end Scaled

/-- The largest exponent that is read; with a larger one a number is zero or out of range. -/
def maxExponent : Nat := 2147483647

/-- The value of a number in parts: sign, digits before and after the point, and exponent. -/
def ofParts (negative : Bool) (whole : List Char) (places : Option (List Char))
    (exponent : Option (Bool × List Char)) : Json :=
  let signed (x : Float) : Json := .real (if negative then -x else x)
  let before := (Scaled.mk 0 0).addWhole whole
  match places, exponent with
  | none, none =>
    if before.exponent = 0 then
      if !negative then .integer before.digits
      else if before.digits = 0 then signed 0.0
      else if before.digits ≤ Nat.pow 2 63 then .integer (-before.digits)
      else signed (UInt64.ofNat before.digits).toFloat
    else ((before.toFloat?).map signed).getD .unusable
  | _, _ =>
    let s := before.addPlaces (places.getD [])
    match exponent with
    | none => ((s.toFloat?).map signed).getD .unusable
    | some (down, ds) =>
      let e := Number.ofDigits 0 ds
      if maxExponent < e then if s.digits = 0 ∨ down then signed 0.0 else .unusable
      else
        let exponent := if down then s.exponent - e else s.exponent + e
        (((Scaled.mk s.digits exponent).toFloat?).map signed).getD .unusable

/-- The digits at the start of a text, of which there must be one, and the text after them. -/
def digits? (cs : List Char) : Option (List Char × List Char) :=
  let ds := cs.takeWhile Char.isDigit
  if ds.isEmpty then none else some (ds, cs.dropWhile Char.isDigit)

theorem length_lt_of_digits? {cs ds rest : List Char} (h : digits? cs = some (ds, rest)) :
    rest.length < cs.length := by
  simp only [digits?] at h
  split at h
  · cases h
  · rename_i found
    obtain ⟨rfl, rfl⟩ := Prod.mk.inj (Option.some.inj h)
    have whole := congrArg List.length (List.takeWhile_append_dropWhile (p := Char.isDigit) (l := cs))
    have some := List.length_pos_iff.2 (mt List.isEmpty_iff.2 found)
    rw [List.length_append] at whole
    omega

def places? (cs : List Char) : Option (Option (List Char) × List Char) :=
  match cs with
  | '.' :: cs => (digits? cs).map fun (ds, rest) => (some ds, rest)
  | cs => some (none, cs)

theorem length_le_of_places? {cs rest : List Char} {ds? : Option (List Char)}
    (h : places? cs = some (ds?, rest)) : rest.length ≤ cs.length := by
  unfold places? at h
  split at h
  · rename_i inner
    obtain ⟨⟨ds, after⟩, found, eq⟩ := Option.map_eq_some_iff.1 h
    obtain ⟨-, rfl⟩ := Prod.mk.inj eq
    have := length_lt_of_digits? found
    simp only [List.length_cons]
    omega
  · obtain ⟨-, rfl⟩ := Prod.mk.inj (Option.some.inj h)
    exact Nat.le_refl _

def sign (cs : List Char) : Bool × List Char :=
  match cs with
  | '-' :: cs => (true, cs)
  | '+' :: cs => (false, cs)
  | cs => (false, cs)

theorem length_sign_le (cs : List Char) : (sign cs).2.length ≤ cs.length := by
  unfold sign
  split <;> simp

def exponent? (cs : List Char) : Option (Option (Bool × List Char) × List Char) :=
  match cs with
  | c :: cs =>
    if c = 'e' ∨ c = 'E' then
      (digits? (sign cs).2).map fun (ds, rest) => (some ((sign cs).1, ds), rest)
    else some (none, c :: cs)
  | [] => some (none, [])

theorem length_le_of_exponent? {cs rest : List Char} {e? : Option (Bool × List Char)}
    (h : exponent? cs = some (e?, rest)) : rest.length ≤ cs.length := by
  unfold exponent? at h
  split at h
  · rename_i inner
    split at h
    · obtain ⟨⟨ds, after⟩, found, eq⟩ := Option.map_eq_some_iff.1 h
      obtain ⟨-, rfl⟩ := Prod.mk.inj eq
      have := length_lt_of_digits? found
      have := length_sign_le inner
      simp only [List.length_cons]
      omega
    · obtain ⟨-, rfl⟩ := Prod.mk.inj (Option.some.inj h)
      exact Nat.le_refl _
  · obtain ⟨-, rfl⟩ := Prod.mk.inj (Option.some.inj h)
    exact Nat.le_refl _

def readMagnitude? (negative : Bool) (cs : List Char) : Option (Json × List Char) := do
  let (whole, cs) ← digits? cs
  if whole.head? = some '0' ∧ 1 < whole.length then none
  else
    let (places, cs) ← places? cs
    let (exponent, cs) ← exponent? cs
    return (ofParts negative whole places exponent, cs)

theorem length_lt_of_readMagnitude? {negative : Bool} {cs rest : List Char} {j : Json}
    (h : readMagnitude? negative cs = some (j, rest)) : rest.length < cs.length := by
  obtain ⟨⟨whole, after⟩, found, h⟩ := Option.bind_eq_some_iff.1 h
  simp only at h
  split at h
  · cases h
  · obtain ⟨⟨places, after₁⟩, found₁, h⟩ := Option.bind_eq_some_iff.1 h
    obtain ⟨⟨exponent, after₂⟩, found₂, h⟩ := Option.bind_eq_some_iff.1 h
    obtain ⟨-, rfl⟩ := Prod.mk.inj (Option.some.inj h)
    exact Nat.lt_of_le_of_lt (length_le_of_exponent? found₂)
      (Nat.lt_of_le_of_lt (length_le_of_places? found₁) (length_lt_of_digits? found))

def readNumber? (cs : List Char) : Option (Json × List Char) :=
  match cs with
  | '-' :: cs => readMagnitude? true cs
  | cs => readMagnitude? false cs

theorem length_lt_of_readNumber? {cs rest : List Char} {j : Json}
    (h : readNumber? cs = some (j, rest)) : rest.length < cs.length := by
  unfold readNumber? at h
  split at h
  · exact Nat.lt_succ_of_lt (length_lt_of_readMagnitude? h)
  · exact length_lt_of_readMagnitude? h

end ScreenScript.Json
