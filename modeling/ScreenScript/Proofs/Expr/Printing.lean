import ScreenScript.Proofs.Expr.Grammar
import ScreenScript.Proofs.Script.Placeholders

namespace ScreenScript

def Expr.Level.rank : Level → Nat
  | sum => 0
  | product => 1
  | signed => 2
  | atom => 3

def Operator.rightLevel (op : Operator) : Expr.Level :=
  if op.isTight then .signed else .product

namespace Expr

def level : Expr → Level
  | number _ | phrase _ | reference _ => .atom
  | negate _ => .signed
  | binary op _ _ => op.level

def bracketed (place own : Level) (ts : List Token) : List Token :=
  if place.rank ≤ own.rank then ts else .open :: (ts ++ [.close])

def write : Expr → List Token
  | number n => [.number n]
  | phrase p => [.quoted p.written]
  | reference name => [.name name]
  | negate operand => .operator .subtract :: bracketed .signed operand.level operand.write
  | binary op left right =>
    bracketed op.level left.level left.write ++
      .operator op :: bracketed op.rightLevel right.level right.write

variable {level place own : Level} {ts us : List Token} {e l r : Expr} {op : Operator}

/-! ## What is written derives -/

theorem Derives.weaken (h : Derives own ts e) (le : place.rank ≤ own.rank) : Derives place ts e := by
  cases own with
  | sum =>
      cases place with
      | sum => exact h
      | product | signed | atom => exact absurd le (by decide)
  | product =>
      cases place with
      | sum => exact .product h
      | product => exact h
      | signed | atom => exact absurd le (by decide)
  | signed =>
      cases place with
      | sum => exact .product (.signed h)
      | product => exact .signed h
      | signed => exact h
      | atom => exact absurd le (by decide)
  | atom =>
      cases place with
      | sum => exact .product (.signed (.atom h))
      | product => exact .signed (.atom h)
      | signed => exact .atom h
      | atom => exact h

theorem Derives.bracketed (h : Derives own ts e) : Derives place (bracketed place own ts) e := by
  unfold Expr.bracketed
  split
  · rename_i le
    exact h.weaken le
  · have atom : Derives .atom (.open :: (ts ++ [.close])) e := .bracket (h.weaken (Nat.zero_le _))
    exact atom.weaken (by cases place <;> decide)

theorem Derives.binary (left : Derives op.level ts l) (right : Derives op.rightLevel us r) :
    Derives op.level (ts ++ .operator op :: us) (.binary op l r) := by
  unfold Operator.level Operator.rightLevel at *
  cases kind : op.isTight with
  | true =>
      rw [kind] at left right
      exact .tight left kind right
  | false =>
      rw [kind] at left right
      exact .loose left kind right

theorem Derives.write (h : Derives level ts e) : Derives e.level e.write e := by
  induction h with
  | number n => exact .number n
  | phrase parsed => exact .phrase (Phrase.parse_written parsed)
  | reference name => exact .reference name
  | bracket _ ih | atom _ ih | signed _ ih | product _ ih => exact ih
  | negate _ ih => exact .negate ih.bracketed
  | tight _ _ _ ihBefore ihLast | loose _ _ _ ihBefore ihLast =>
      exact .binary ihBefore.bracketed ihLast.bracketed

/-! ## No shorter text derives -/

theorem length_bracketed_le (place own : Level) (ts : List Token) :
    (bracketed place own ts).length ≤ ts.length + 2 := by
  unfold bracketed
  split
  · omega
  · simp

theorem length_bracketed_mono {place' : Level} (le : place'.rank ≤ place.rank) (own : Level)
    (ts : List Token) : (bracketed place' own ts).length ≤ (bracketed place own ts).length := by
  unfold bracketed
  split
  · split
    · exact Nat.le_refl _
    · simp
      omega
  · rw [if_neg (by omega)]

theorem bracketed_self (own : Level) (ts : List Token) : bracketed own own ts = ts :=
  if_pos (Nat.le_refl _)

theorem length_write_binary_le (left : (bracketed op.level l.level l.write).length ≤ ts.length)
    (right : (bracketed op.rightLevel r.level r.write).length ≤ us.length) :
    (bracketed op.level (binary op l r).level (binary op l r).write).length ≤
      (ts ++ .operator op :: us).length := by
  have own : (binary op l r).level = op.level := rfl
  rw [own, bracketed_self]
  simp only [write, List.length_append, List.length_cons]
  omega

theorem Derives.length_write_le (h : Derives place ts e) :
    (Expr.bracketed place e.level e.write).length ≤ ts.length := by
  induction h with
  | number | phrase | reference => exact Nat.le_refl _
  | @bracket ts e inner ih =>
      have same : Expr.bracketed .sum e.level e.write = e.write := if_pos (Nat.zero_le _)
      have le := length_bracketed_le .atom e.level e.write
      rw [same] at ih
      simp only [List.length_cons, List.length_append, List.length_nil]
      omega
  | atom _ ih | signed _ ih | product _ ih =>
      exact (length_bracketed_mono (by decide) _ _).trans ih
  | negate _ ih => exact Nat.succ_le_succ ih
  | @tight ts us l r op _ tight _ ihBefore ihLast =>
      have place : op.level = .product := by rw [Operator.level, tight, if_pos rfl]
      have right : op.rightLevel = .signed := by rw [Operator.rightLevel, tight, if_pos rfl]
      rw [← place] at ihBefore ⊢
      rw [← right] at ihLast
      exact length_write_binary_le ihBefore ihLast
  | @loose ts us l r op _ loose _ ihBefore ihLast =>
      have place : op.level = .sum := by rw [Operator.level, loose, if_neg Bool.false_ne_true]
      have right : op.rightLevel = .product := by
        rw [Operator.rightLevel, loose, if_neg Bool.false_ne_true]
      rw [← place] at ihBefore ⊢
      rw [← right] at ihLast
      exact length_write_binary_le ihBefore ihLast

/--
Tokens are an expression exactly if they derive from the grammar, and the expression is the tree of the
derivation. Every expression is read again from the tokens that it is written with, and no fewer tokens
are read as it.
-/
theorem ofTokens_exact (ts : List Token) (e : Expr) :
    (ofTokens ts = .ok e ↔ Derives .sum ts e) ∧
      (ofTokens ts = .ok e → ofTokens e.write = .ok e ∧ e.write.length ≤ ts.length) := by
  refine ⟨ofTokens_eq_ok_iff, fun read => ?_⟩
  have derived := ofTokens_eq_ok_iff.1 read
  have whole : bracketed .sum e.level e.write = e.write := if_pos (Nat.zero_le _)
  have shortest := derived.length_write_le
  rw [whole] at shortest
  exact ⟨ofTokens_eq_ok_iff.2 (derived.write.weaken (Nat.zero_le _)), shortest⟩

theorem ofTokens_exact_brackets :
    let minus := Token.operator .subtract
    let read := [.open, .open, .name "a", .close, minus, .open, .name "b", minus, .name "c", .close,
      .close, .operator .multiply, minus, .open, minus, .name "d", .close]
    let e := binary .multiply
      (binary .subtract (.reference "a") (binary .subtract (.reference "b") (.reference "c")))
      (negate (negate (.reference "d")))
    let written := [.open, .name "a", minus, .open, .name "b", minus, .name "c", .close, .close,
      .operator .multiply, minus, minus, .name "d"]
    ofTokens read = .ok e ∧ e.write = written ∧ ofTokens written = .ok e ∧
      written.length ≤ read.length := by
  intro minus read e written
  have reads : ofTokens read = .ok e := rfl
  have writes : e.write = written := rfl
  have again := (ofTokens_exact read e).2 reads
  rw [writes] at again
  exact ⟨reads, writes, again⟩

end Expr

end ScreenScript
