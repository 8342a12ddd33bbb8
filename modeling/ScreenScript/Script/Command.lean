namespace ScreenScript

inductive Command where
  | click
  | hover
  | clickAt
  | scroll
  | wait
  | type
  | press
  | log
  | launch
  | abort
  | loop
  | branch
  | guard
  deriving DecidableEq, Repr

namespace Command

def all : List Command :=
  [click, hover, clickAt, scroll, wait, type, press, log, launch, abort, loop, branch, guard]

def word : Command → String
  | click => "click"
  | hover => "hover"
  | clickAt => "click_at"
  | scroll => "scroll"
  | wait => "wait"
  | type => "type"
  | press => "press"
  | log => "log"
  | launch => "open"
  | abort => "abort"
  | loop => "repeat"
  | branch => "if"
  | guard => "try"

def ofWord? (word : String) : Option Command :=
  all.find? fun c => c.word = word

def otherwise : String := "else"

def declare : String := "var"

def isReserved (word : String) : Bool :=
  (ofWord? word).isSome || word = otherwise || word = declare

def takesBlock : Command → Bool
  | loop | branch | guard => true
  | _ => false

/-- Whether the words after a command are one text, in which `key=value` has no meaning. -/
def takesText : Command → Bool
  | log | launch | abort => true
  | _ => false

end Command

end ScreenScript
