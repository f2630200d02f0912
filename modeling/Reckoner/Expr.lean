import Reckoner.Arithmetic
import Reckoner.Postfix

/-!
# Expression trees

* `Expr`: a number, or an operator on two expressions.
* `Expr.postorder`: the postfix sequence of a tree.
* `Expr.ofPostfix`: the tree that a postfix sequence denotes, or why it denotes none.
* `Expr.eval`: the value of a tree, the left operand before the right one.
* `Expr.ofPostfix_postorder`, `Expr.postorder_injective`: a tree is read back from its postfix
  sequence, so no other tree has the same.
-/

namespace Reckoner

/-- An arithmetic expression over numbers. -/
inductive Expr where
  | number (value : Float)
  | operation (operator : Operator) (left right : Expr)
  deriving DecidableEq, Repr

namespace Expr

/-- The tokens of a tree in postfix order: those of the left operand, those of the right one, the
operator. -/
def postorder : Expr → List Token
  | number value => [.number value]
  | operation o left right => left.postorder ++ (right.postorder ++ [.op o])

/-- The value of a tree. Operands come before their operator, and the left one before the right
one, so the first division by zero in that order decides. -/
def eval : Expr → Except EvaluationFault Float
  | number value => .ok value
  | operation o left right => do
    let l ← left.eval
    let r ← right.eval
    o.apply l r

/-- The trees that wait after one token, the latest first. -/
def graft (trees : List Expr) : Token → Except Malformation (List Expr)
  | .number value => .ok (number value :: trees)
  | .op o =>
    match trees with
    | right :: left :: below => .ok (operation o left right :: below)
    | _ => .error (.underflow o)
  | t => .error (.badToken t.text)

/-- The one tree that tokens leave above trees that wait already. -/
def ofTokensFrom (trees : List Expr) : List Token → Except Malformation Expr
  | [] =>
    match trees with
    | [e] => .ok e
    | _ => .error (.operands trees.length)
  | t :: ts =>
    match graft trees t with
    | .ok trees' => ofTokensFrom trees' ts
    | .error fault => .error fault

/-- The tree that a postfix sequence denotes. -/
def ofPostfix (p : Postfix) : Except Malformation Expr :=
  ofTokensFrom [] p.tokens

private theorem ofTokensFrom_postorder (e : Expr) (trees : List Expr) (ts : List Token) :
    ofTokensFrom trees (e.postorder ++ ts) = ofTokensFrom (e :: trees) ts := by
  induction e generalizing trees ts with
  | number value => rfl
  | operation o left right ihl ihr =>
    simp only [postorder, List.append_assoc, ihl, ihr]
    rfl

@[simp] theorem ofPostfix_postorder (e : Expr) : ofPostfix ⟨e.postorder⟩ = .ok e := by
  have := ofTokensFrom_postorder e [] []
  rw [List.append_nil] at this
  exact this

/-- A postfix sequence is that of one tree at most. -/
theorem postorder_injective {e f : Expr} (h : e.postorder = f.postorder) : e = f := by
  have := ofPostfix_postorder e
  rw [h, ofPostfix_postorder] at this
  exact (Except.ok.inj this).symm

end Expr

end Reckoner
