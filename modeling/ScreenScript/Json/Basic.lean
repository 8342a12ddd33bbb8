namespace ScreenScript

inductive Json where
  | null
  | bool (b : Bool)
  /-- A number written without point and exponent that fits in 64 bits. -/
  | integer (n : Int)
  | real (x : Float)
  | string (s : String)
  | array (elements : List Json)
  | object (members : List (String × Json))
  /-- A well-formed text without a value: a number out of range, or half a surrogate pair. -/
  | unusable

namespace Json

def string? : Json → Option String
  | string s => some s
  | _ => none

def float? : Json → Option Float
  | integer n => some (Float.ofInt n)
  | real x => some x
  | _ => none

def natBelow? (bound : Nat) : Json → Option Nat
  | integer (.ofNat n) => if n < bound then some n else none
  | _ => none

def int32? : Json → Option Int
  | integer n => if -2147483648 ≤ n ∧ n ≤ 2147483647 then some n else none
  | _ => none

mutual

def isUsable : Json → Bool
  | array elements => areUsable elements
  | object members => membersUsable members
  | unusable => false
  | _ => true

def areUsable : List Json → Bool
  | [] => true
  | j :: rest => isUsable j && areUsable rest

def membersUsable : List (String × Json) → Bool
  | [] => true
  | (_, j) :: rest => isUsable j && membersUsable rest

end

mutual

def depth : Json → Nat
  | array elements => depthAmong elements + 1
  | object members => depthOfMembers members + 1
  | _ => 0

def depthAmong : List Json → Nat
  | [] => 0
  | j :: rest => max (depth j) (depthAmong rest)

def depthOfMembers : List (String × Json) → Nat
  | [] => 0
  | (_, j) :: rest => max (depth j) (depthOfMembers rest)

end

def deepest : Nat := 127

def isKeepable (j : Json) : Bool :=
  j.isUsable && j.depth ≤ deepest

def single? (name : String) (members : List (String × Json)) : Option (Option Json) :=
  match members.filter (·.1 = name) with
  | [] => some none
  | [(_, value)] => some (some value)
  | _ => none

/--
The values of the named fields of a record, which is an object or the array of its fields in order.
With `strict` an object has no other names.
-/
def record? (names : List String) (strict : Bool) : Json → Option (List (Option Json))
  | object members =>
    if strict && members.any (fun m => !names.contains m.1) then none
    else names.mapM fun name => single? name members
  | array elements =>
    if names.length < elements.length then none
    else some (elements.map some ++ List.replicate (names.length - elements.length) none)
  | _ => none

def optional? {α : Type} (read : Json → Option α) : Option Json → Option (Option α)
  | none | some null => some none
  | some j => (read j).map some

def required? {α : Type} (read : Json → Option α) : Option Json → Option α
  | none => none
  | some j => read j

/-- The constant with a name, written as the name or as an object from the name to null. -/
def constant? {α : Type} (ofName : String → Option α) : Json → Option α
  | string s => ofName s
  | object [(name, null)] => ofName name
  | _ => none

end Json

end ScreenScript
