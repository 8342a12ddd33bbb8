import ScreenScript.Expr.Basic
import ScreenScript.Failure
import ScreenScript.Value

namespace ScreenScript.Expr

/-- Why values do not go together. -/
inductive Misuse where
  | notNumeric (symbol : Char) (value : Value)
  | zeroDivisor (left : Value) (symbol : Char) (right : Value)
  | notCount (value : Value)
  | notNumber (value : Value)

namespace Misuse

def message : Misuse → String
  | notNumeric symbol value => s!"cannot apply '{symbol}' to '{value.display}'"
  | zeroDivisor left symbol right =>
    s!"division by zero in '{left.display} {symbol} {right.display}'"
  | notCount value => s!"expected a non-negative whole number, got '{value.display}'"
  | notNumber value => s!"expected a number, got '{value.display}'"

def failure (misuse : Misuse) : Failure :=
  .expression misuse.message

end Misuse

def numeric (symbol : Char) (v : Value) : Except Failure Float :=
  match v.asNumber? with
  | some n => .ok n
  | none => .error (Misuse.notNumeric symbol v).failure

def negated (v : Value) : Except Failure Value := do
  return .number (-(← numeric '-' v))

def apply (op : Operator) (l r : Value) : Except Failure Value :=
  match op, l, r with
  | .add, .number a, .number b => .ok (.number (a + b))
  | .add, _, _ => .ok (.text (l.display ++ r.display))
  | _, _, _ => do
    let a ← numeric op.symbol l
    let b ← numeric op.symbol r
    match op with
    | .add => return .number (a + b)
    | .subtract => return .number (a - b)
    | .multiply => return .number (a * b)
    | .divide =>
      if b == 0.0 then throw (Misuse.zeroDivisor l op.symbol r).failure
      else return .number (a / b)
    | .remainder =>
      if b == 0.0 then throw (Misuse.zeroDivisor l op.symbol r).failure
      else return .number (Number.remainder a b)

section Evaluation

variable {m : Type → Type} [Monad m] [MonadExcept Failure m]

def evaluate (lookup : String → m Value) : Expr → m Value
  | number n => pure (.number n)
  | phrase p => do return .text (← p.render fun name => do return (← lookup name).display)
  | reference name => lookup name
  | negate operand => do
    let v ← evaluate lookup operand
    ofExcept (negated v)
  | binary op left right => do
    let l ← evaluate lookup left
    let r ← evaluate lookup right
    ofExcept (apply op l r)

/-- The count that a value stands for: a whole number from zero up to the largest 32-bit word. -/
def toCount (v : Value) : Except Failure UInt32 :=
  match v.asNumber? with
  | some n =>
    if 0.0 ≤ n && Number.isWhole n && n ≤ 4294967295.0 then
      .ok (UInt32.ofNat ((Number.truncate? n).getD 0).toNat)
    else .error (Misuse.notCount v).failure
  | none => .error (Misuse.notCount v).failure

def toNumber (v : Value) : Except Failure Float :=
  match v.asNumber? with
  | some n => .ok n
  | none => .error (Misuse.notNumber v).failure

def evaluateCount (lookup : String → m Value) (e : Expr) : m UInt32 := do
  ofExcept (toCount (← evaluate lookup e))

def evaluateNumber (lookup : String → m Value) (e : Expr) : m Float := do
  ofExcept (toNumber (← evaluate lookup e))

end Evaluation

end ScreenScript.Expr
