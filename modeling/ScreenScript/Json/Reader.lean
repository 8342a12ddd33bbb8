import ScreenScript.Json.Token

namespace ScreenScript.Json

/-- An open array or object in which a value is being read, with what comes before the value. -/
inductive Enclosing where
  | array (before : List Json)
  | object (before : List (Option String × Json)) (name : Option String)

/-- What has been read and what may come next. What was read last stands first. -/
inductive Progress where
  /-- A value comes next, or the end of an array without elements. -/
  | value (outer : List Enclosing) (first : Bool)
  | element (elements : List Json) (outer : List Enclosing)
  /-- A name comes next, or the end of an object without members. -/
  | name (before : List (Option String × Json)) (outer : List Enclosing) (first : Bool)
  | colon (before : List (Option String × Json)) (name : Option String) (outer : List Enclosing)
  | member (members : List (Option String × Json)) (outer : List Enclosing)
  | done (j : Json)

def ofMembers (members : List (Option String × Json)) : Json :=
  match members.reverse.mapM fun (name, j) => name.map (·, j) with
  | some members => .object members
  | none => .unusable

namespace Progress

def complete (j : Json) : List Enclosing → Progress
  | [] => done j
  | .array before :: outer => element (j :: before) outer
  | .object before key :: outer => member ((key, j) :: before) outer

def step : Progress → Token → Option Progress
  | value outer _, .atom j => some (complete j outer)
  | value outer _, .text (some s) => some (complete (.string s) outer)
  | value outer _, .text none => some (complete .unusable outer)
  | value outer _, .openArray => some (value (.array [] :: outer) true)
  | value outer _, .openObject => some (name [] outer true)
  | value (.array [] :: outer) true, .closeArray => some (complete (.array []) outer)
  | element elements outer, .comma => some (value (.array elements :: outer) false)
  | element elements outer, .closeArray => some (complete (.array elements.reverse) outer)
  | name before outer _, .text s => some (colon before s outer)
  | name _ outer true, .closeObject => some (complete (.object []) outer)
  | colon before s outer, .colon => some (value (.object before s :: outer) false)
  | member members outer, .comma => some (name members outer false)
  | member members outer, .closeObject => some (complete (ofMembers members) outer)
  | _, _ => none

def result? : Progress → Option Json
  | done j => some j
  | _ => none

end Progress

def read? (s : String) : Option Json := do
  let tokens ← tokens? s.toList
  let progress ← tokens.foldlM Progress.step (.value [] false)
  progress.result?

end ScreenScript.Json
