import ScreenScript.Json.Basic
import ScreenScript.Number.Layout

namespace ScreenScript.Json

def hexDigit (n : Nat) : Char :=
  Nat.digitChar (n % 16)

def escape (c : Char) : List Char :=
  if c = '"' then ['\\', '"']
  else if c = '\\' then ['\\', '\\']
  else if c.toNat = 8 then ['\\', 'b']
  else if c.toNat = 9 then ['\\', 't']
  else if c.toNat = 10 then ['\\', 'n']
  else if c.toNat = 12 then ['\\', 'f']
  else if c.toNat = 13 then ['\\', 'r']
  else if c.toNat < 32 then ['\\', 'u', '0', '0', hexDigit (c.toNat / 16), hexDigit c.toNat]
  else [c]

def quote (s : String) : String :=
  String.ofList ('"' :: s.toList.flatMap escape ++ ['"'])

def writeFloat (x : Float) : String :=
  (Number.scientific? x).getD "null"

def block (first last : String) (indent : String) (elements : List String) : String :=
  match elements with
  | [] => first ++ last
  | _ =>
    first ++ "\n" ++ ",\n".intercalate (elements.map fun e => indent ++ "  " ++ e) ++
      "\n" ++ indent ++ last

mutual

def compact : Json → String
  | null | unusable => "null"
  | bool b => if b then "true" else "false"
  | integer n => toString n
  | real x => writeFloat x
  | string s => quote s
  | array elements => "[" ++ ",".intercalate (compactElements elements) ++ "]"
  | object members => "\x7b" ++ ",".intercalate (compactMembers members) ++ "\x7d"

def compactElements : List Json → List String
  | [] => []
  | j :: rest => compact j :: compactElements rest

def compactMembers : List (String × Json) → List String
  | [] => []
  | (name, j) :: rest => (quote name ++ ":" ++ compact j) :: compactMembers rest

end

mutual

def pretty (indent : String) : Json → String
  | null | unusable => "null"
  | bool b => if b then "true" else "false"
  | integer n => toString n
  | real x => writeFloat x
  | string s => quote s
  | array elements => block "[" "]" indent (prettyElements (indent ++ "  ") elements)
  | object members => block "\x7b" "\x7d" indent (prettyMembers (indent ++ "  ") members)

def prettyElements (indent : String) : List Json → List String
  | [] => []
  | j :: rest => pretty indent j :: prettyElements indent rest

def prettyMembers (indent : String) : List (String × Json) → List String
  | [] => []
  | (name, j) :: rest => (quote name ++ ": " ++ pretty indent j) :: prettyMembers indent rest

end

end ScreenScript.Json
