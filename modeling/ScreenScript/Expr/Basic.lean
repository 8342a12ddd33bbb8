import ScreenScript.Script.Phrase

namespace ScreenScript

inductive Operator where
  | add
  | subtract
  | multiply
  | divide
  | remainder
  deriving DecidableEq, Repr

namespace Operator

def symbol : Operator → Char
  | add => '+'
  | subtract => '-'
  | multiply => '*'
  | divide => '/'
  | remainder => '%'

def ofChar? : Char → Option Operator
  | '+' => some add
  | '-' => some subtract
  | '*' => some multiply
  | '/' => some divide
  | '%' => some remainder
  | _ => none

def isTight : Operator → Bool
  | add | subtract => false
  | multiply | divide | remainder => true

end Operator

inductive Expr where
  | number (n : Float)
  | phrase (p : Phrase)
  | reference (name : String)
  | negate (operand : Expr)
  | binary (op : Operator) (left right : Expr)

namespace Expr

def names : Expr → List String
  | number _ => []
  | phrase p => p.names
  | reference name => [name]
  | negate operand => operand.names
  | binary _ left right => left.names ++ right.names

def isConstant (e : Expr) : Bool :=
  e.names.isEmpty

end Expr

end ScreenScript
