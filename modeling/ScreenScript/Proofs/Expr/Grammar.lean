import ScreenScript.Expr.Parse

/-!
# The grammar of expressions

What the tokens of an expression derive from:

    sum     := product (('+' | '-') product)*
    product := signed (('*' | '/' | '%') signed)*
    signed  := '-' signed | atom
    atom    := NUMBER | a text with placeholders | NAME | '(' sum ')'

`Derives` has the tree of each derivation: before the last operator of a level stands an expression of
the same level, so operators of one level group to the left. Reading accepts exactly the tokens of a sum,
and gives the tree of its derivation (`ofTokens_eq_ok_iff`); hence there is only one.
-/

namespace ScreenScript

inductive Expr.Level where
  | sum
  | product
  | signed
  | atom
  deriving DecidableEq, Repr

def Operator.level (op : Operator) : Expr.Level :=
  if op.isTight then .product else .sum

namespace Expr

/-- The trees of the derivations from a level. -/
inductive Derives : Level → List Token → Expr → Prop where
  | number (n : Float) : Derives .atom [.number n] (.number n)
  | phrase {content : String} {p : Phrase} (parsed : Phrase.parse content = .ok p) :
    Derives .atom [.quoted content] (.phrase p)
  | reference (name : String) : Derives .atom [.name name] (.reference name)
  | bracket {ts : List Token} {e : Expr} (inner : Derives .sum ts e) :
    Derives .atom (.open :: (ts ++ [.close])) e
  | atom {ts : List Token} {e : Expr} (whole : Derives .atom ts e) : Derives .signed ts e
  | negate {ts : List Token} {e : Expr} (operand : Derives .signed ts e) :
    Derives .signed (.operator .subtract :: ts) (.negate e)
  | signed {ts : List Token} {e : Expr} (first : Derives .signed ts e) : Derives .product ts e
  | tight {ts us : List Token} {l r : Expr} {op : Operator} (before : Derives .product ts l)
    (tight : op.isTight = true) (last : Derives .signed us r) :
    Derives .product (ts ++ .operator op :: us) (.binary op l r)
  | product {ts : List Token} {e : Expr} (first : Derives .product ts e) : Derives .sum ts e
  | loose {ts us : List Token} {l r : Expr} {op : Operator} (before : Derives .sum ts l)
    (loose : op.isTight = false) (last : Derives .product us r) :
    Derives .sum (ts ++ .operator op :: us) (.binary op l r)

variable {level : Level} {ts us rest : List Token} {e : Expr} {op : Operator}
  {stack : List Pending} {tightOnly : Bool}

theorem Derives.ne_nil (h : Derives level ts e) : ts ≠ [] := by
  induction h with
  | atom _ ih | signed _ ih | product _ ih => exact ih
  | number | phrase | reference | bracket | negate => exact List.cons_ne_nil _ _
  | tight | loose => exact List.append_ne_nil_of_right_ne_nil _ (List.cons_ne_nil _ _)

/-! ## The stack -/

def isSettled (tightOnly : Bool) : List Pending → Bool
  | .negated :: _ => false
  | .applied op _ :: _ => tightOnly && !op.isTight
  | _ => true

theorem complete_of_isSettled (h : isSettled tightOnly stack = true) (e : Expr) :
    complete tightOnly e stack = (e, stack) := by
  cases stack with
  | nil => rfl
  | cons top stack =>
      cases top with
      | negated => cases h
      | applied op l =>
          rw [isSettled] at h
          rw [complete, if_pos h]
      | bracket => rfl

theorem isSettled_true_of_false (h : isSettled false stack = true) : isSettled true stack = true := by
  cases stack with
  | nil => rfl
  | cons top stack =>
      cases top with
      | negated | applied => cases h
      | bracket => rfl

theorem complete_applied (tightOnly : Bool) (h : tightOnly = true → op.isTight = true) (l e : Expr)
    (stack : List Pending) :
    complete tightOnly e (.applied op l :: stack) = complete tightOnly (.binary op l e) stack := by
  rw [complete, if_neg]
  simpa using h

theorem readOperator_congr {e e' : Expr} {stack stack' : List Pending}
    (loose : complete false e stack = complete false e' stack')
    (tight : ∀ op us, ts = .operator op :: us → op.isTight = true →
      complete true e stack = complete true e' stack') :
    readOperator e ts stack = readOperator e' ts stack' := by
  cases ts with
  | nil => rw [readOperator, readOperator, loose]
  | cons t ts =>
      cases t with
      | operator op =>
          rw [readOperator, readOperator]
          cases kind : op.isTight with
          | false => rw [loose]
          | true => rw [tight op ts rfl kind]
      | number | quoted | name | «open» | close => simp only [readOperator, loose]

/-! ## What derives is read -/

def StartsLoose (ts : List Token) : Prop :=
  ∀ op us, ts = .operator op :: us → op.isTight = false

def Level.isFree (stack : List Pending) : Level → Bool
  | sum => isSettled false stack
  | product => isSettled true stack
  | signed | atom => true

theorem readOperand_derived (h : Derives level ts e) (free : level.isFree stack = true)
    (next : level = .sum → StartsLoose rest) :
    readOperand (ts ++ rest) stack = readOperator e rest stack := by
  induction h generalizing stack rest with
  | number n => rfl
  | reference name => rfl
  | phrase parsed =>
      rw [List.singleton_append, readOperand, parsed]
  | @bracket ts e inner ih =>
      have closes : StartsLoose (.close :: rest) := nofun
      rw [List.cons_append, List.append_assoc, readOperand, List.singleton_append,
        ih rfl fun _ => closes]
      rfl
  | atom whole ih => exact ih rfl nofun
  | negate operand ih =>
      rw [List.cons_append, readOperand, ih rfl nofun]
      exact readOperator_congr rfl fun _ _ _ _ => rfl
  | signed first ih => exact ih rfl nofun
  | @tight ts us l r op before tight last ihBefore ihLast =>
      rw [List.append_assoc, List.cons_append, ihBefore free nofun, readOperator, tight,
        complete_of_isSettled free]
      dsimp only
      rw [ihLast rfl nofun]
      exact readOperator_congr (complete_applied _ (fun _ => tight) l r stack)
        fun _ _ _ _ => complete_applied _ (fun _ => tight) l r stack
  | product first ih => exact ih (isSettled_true_of_false free) nofun
  | @loose ts us l r op before loose last ihBefore ihLast =>
      have follows : StartsLoose (.operator op :: (us ++ rest)) := by
        rintro op' us' ⟨⟩
        exact loose
      have waits : Level.isFree (.applied op l :: stack) .product = true := by
        rw [Level.isFree, isSettled, loose]
        rfl
      rw [List.append_assoc, List.cons_append, ihBefore free fun _ => follows, readOperator, loose,
        complete_of_isSettled free]
      dsimp only
      rw [ihLast waits nofun]
      -- No tight operator comes next, so the whole sum is the operand of what does.
      refine readOperator_congr (complete_applied false nofun l r stack)
        fun op' us' first kind => ?_
      rw [next rfl op' us' first] at kind
      cases kind

/-! ## What is read derives -/

def completeLevel (tightOnly : Bool) : Level :=
  if tightOnly then .product else .sum

inductive Spells : List Pending → List Token → Prop where
  | nil : Spells [] []
  | bracket {stack : List Pending} {ts : List Token} (below : Spells stack ts) :
    Spells (.bracket :: stack) (ts ++ [.open])
  | negated {stack : List Pending} {ts : List Token} (below : Spells stack ts) :
    Spells (.negated :: stack) (ts ++ [.operator .subtract])
  | applied {stack : List Pending} {ts us : List Token} {op : Operator} {l : Expr}
    (below : Spells stack ts) (settled : isSettled op.isTight stack = true)
    (left : Derives op.level us l) :
    Spells (.applied op l :: stack) (ts ++ us ++ [.operator op])

/-- What is left when a stack has completed an operand, all of it spelled by the same tokens. -/
def Completed (tightOnly : Bool) (ts : List Token) (left : Expr × List Pending) : Prop :=
  ∃ before operand, Spells left.2 before ∧ isSettled tightOnly left.2 = true ∧
    Derives (completeLevel tightOnly) operand left.1 ∧ ts = before ++ operand

theorem Completed.of_isSettled (spelled : Spells stack ts) (settled : isSettled tightOnly stack = true)
    (operand : Derives (completeLevel tightOnly) us e) :
    Completed tightOnly (ts ++ us) (complete tightOnly e stack) := by
  rw [complete_of_isSettled settled]
  exact ⟨ts, us, spelled, settled, operand, rfl⟩

theorem Spells.complete_product (tightOnly : Bool) (spelled : Spells stack ts)
    (settled : isSettled true stack = true) (operand : Derives .product us e) :
    Completed tightOnly (ts ++ us) (complete tightOnly e stack) := by
  cases tightOnly with
  | true => exact .of_isSettled spelled settled operand
  | false =>
      cases spelled with
      | nil => exact .of_isSettled .nil rfl (.product operand)
      | bracket below => exact .of_isSettled (.bracket below) rfl (.product operand)
      | negated => cases settled
      | @applied stack ts before op l below under left =>
          have kind : op.isTight = false := by simpa [isSettled] using settled
          rw [kind] at under
          rw [Operator.level, kind] at left
          rw [complete_applied false nofun, List.append_assoc, List.append_assoc,
            List.singleton_append]
          exact .of_isSettled below under (.loose left kind operand)

theorem Spells.complete_signed (tightOnly : Bool) (spelled : Spells stack ts)
    (operand : Derives .signed us e) :
    Completed tightOnly (ts ++ us) (complete tightOnly e stack) := by
  induction spelled generalizing us e with
  | nil => exact Spells.nil.complete_product _ rfl (.signed operand)
  | bracket below => exact below.bracket.complete_product _ rfl (.signed operand)
  | negated below ih =>
      rw [complete, List.append_assoc, List.singleton_append]
      exact ih (.negate operand)
  | @applied stack ts before op l below under left ih =>
      cases kind : op.isTight with
      | false =>
          refine (below.applied under left).complete_product _ ?_ (.signed operand)
          rw [isSettled, kind]
          rfl
      | true =>
          rw [kind] at under
          rw [Operator.level, kind] at left
          rw [complete_applied _ fun _ => kind, List.append_assoc, List.append_assoc,
            List.singleton_append]
          exact below.complete_product _ under (.tight left kind operand)

mutual

theorem derives_of_readOperand {ts before : List Token} {stack : List Pending} {whole : Expr}
    (h : readOperand ts stack = .ok whole) (spelled : Spells stack before) :
    Derives .sum (before ++ ts) whole := by
  match ts with
  | [] => cases h
  | .number n :: ts =>
      rw [readOperand] at h
      exact derives_of_readOperator h spelled (.atom (.number n))
  | .quoted content :: ts =>
      rw [readOperand] at h
      split at h
      · rename_i p parsed
        exact derives_of_readOperator h spelled (.atom (.phrase parsed))
      · cases h
  | .name name :: ts =>
      rw [readOperand] at h
      exact derives_of_readOperator h spelled (.atom (.reference name))
  | .operator .subtract :: ts =>
      rw [readOperand] at h
      have derived := derives_of_readOperand h spelled.negated
      rwa [List.append_assoc] at derived
  | .open :: ts =>
      rw [readOperand] at h
      have derived := derives_of_readOperand h spelled.bracket
      rwa [List.append_assoc] at derived
  | .operator .add :: ts | .operator .multiply :: ts | .operator .divide :: ts
  | .operator .remainder :: ts | .close :: ts => cases h

theorem derives_of_readOperator {e whole : Expr} {ts us before : List Token} {stack : List Pending}
    (h : readOperator e ts stack = .ok whole) (spelled : Spells stack before)
    (operand : Derives .signed us e) : Derives .sum (before ++ (us ++ ts)) whole := by
  match ts with
  | [] =>
      obtain ⟨before', us', spelled', settled, derived, same⟩ :=
        spelled.complete_signed false operand
      rw [readOperator] at h
      rcases completed : complete false e stack with ⟨e', stack'⟩
      rw [completed] at h spelled' derived
      cases spelled' with
      | nil =>
          cases h
          rw [List.append_nil, same]
          exact derived
      | bracket | negated | applied => cases h
  | .operator op :: ts =>
      obtain ⟨before', us', spelled', settled, derived, same⟩ :=
        spelled.complete_signed op.isTight operand
      rw [readOperator] at h
      have whole := derives_of_readOperand h (spelled'.applied settled derived)
      rw [← same] at whole
      simpa using whole
  | .close :: ts =>
      obtain ⟨before', us', spelled', settled, derived, same⟩ :=
        spelled.complete_signed false operand
      rcases completed : complete false e stack with ⟨e', stack'⟩
      rw [completed] at spelled' settled derived
      simp only [readOperator, completed] at h
      cases spelled' with
      | nil => cases h
      | negated | applied => cases settled
      | @bracket stack' before' below =>
          have whole := derives_of_readOperator h below (.atom (.bracket derived))
          rw [← List.append_assoc, same]
          simpa using whole
  | .number n :: ts | .quoted content :: ts | .name name :: ts | .open :: ts =>
      rcases completed : complete false e stack with ⟨e', _ | ⟨top, stack'⟩⟩
      all_goals
        simp only [readOperator, completed] at h
        cases h

end

theorem ofTokens_eq_ok_iff : ofTokens ts = .ok e ↔ Derives .sum ts e := by
  rw [ofTokens]
  constructor
  · intro h
    split at h
    · cases h
    · exact derives_of_readOperand h .nil
  · intro h
    rw [if_neg (by simpa using h.ne_nil)]
    have read : readOperand (ts ++ []) [] = readOperator e [] [] := readOperand_derived h rfl nofun
    rwa [List.append_nil] at read

end Expr

end ScreenScript
