import ScreenScript.Expr.Token

namespace ScreenScript.Expr

/-- A construct that waits for its last operand. -/
inductive Pending where
  | negated
  | applied (op : Operator) (left : Expr)
  | bracket

/--
Completes the waiting constructs with the operand `e`, up to the innermost bracket: all of them, or
with `tightOnly` those that bind tighter than `+` and `-`.
-/
def complete (tightOnly : Bool) (e : Expr) : List Pending → Expr × List Pending
  | .negated :: stack => complete tightOnly (.negate e) stack
  | .applied op left :: stack =>
    if tightOnly && !op.isTight then (e, .applied op left :: stack)
    else complete tightOnly (.binary op left e) stack
  | stack => (e, stack)

mutual

def readOperand : List Token → List Pending → Except Fault Expr
  | [], _ => .error .missingOperand
  | .number n :: ts, stack => readOperator (.number n) ts stack
  | .quoted content :: ts, stack =>
    match Phrase.parse content with
    | .ok p => readOperator (.phrase p) ts stack
    | .error fault => .error (.phrase fault)
  | .name name :: ts, stack => readOperator (.reference name) ts stack
  | .operator .subtract :: ts, stack => readOperand ts (.negated :: stack)
  | .open :: ts, stack => readOperand ts (.bracket :: stack)
  | t :: _, _ => .error (.unexpectedToken t.shown)

def readOperator (e : Expr) : List Token → List Pending → Except Fault Expr
  | [], stack =>
    match complete false e stack with
    | (whole, []) => .ok whole
    | _ => .error .missingBracket
  | .operator op :: ts, stack =>
    let (left, stack) := complete op.isTight e stack
    readOperand ts (.applied op left :: stack)
  | t :: ts, stack =>
    match complete false e stack, t with
    | (_, []), _ => .error (.unexpectedToken t.shown)
    | (inner, _ :: stack), .close => readOperator inner ts stack
    | _, _ => .error .missingBracket

end

def ofTokens (ts : List Token) : Except Fault Expr :=
  if ts.isEmpty then .error .empty else readOperand ts []

def parse (source : List Char) : Except Fault Expr := do
  ofTokens (← tokens source)

end ScreenScript.Expr
