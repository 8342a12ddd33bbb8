namespace ScreenScript.Text

def split (sep : Char) : List Char → List (List Char)
  | [] => [[]]
  | c :: cs =>
    if c = sep then [] :: split sep cs
    else match split sep cs with
      | [] => [[c]]
      | piece :: rest => (c :: piece) :: rest

def dropReturn (line : List Char) : List Char :=
  match line.reverse with
  | '\r' :: rest => rest.reverse
  | _ => line

def lines (cs : List Char) : List (List Char) :=
  let all := split '\n' cs
  match all.getLast? with
  | some [] => all.dropLast.map dropReturn
  | some last => all.dropLast.map dropReturn ++ [last]
  | none => []

def splitFirst (isSep : Char → Bool) : List Char → Option (List Char × List Char)
  | [] => none
  | c :: cs =>
    if isSep c then some ([], cs)
    else (splitFirst isSep cs).map fun (before, after) => (c :: before, after)

end ScreenScript.Text
