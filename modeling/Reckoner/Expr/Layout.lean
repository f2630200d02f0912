import Reckoner.Expr

/-!
# Infix text

`Expr.text` writes a tree in infix notation with the fewest parentheses that keep its grouping.

* `Expr.needsParens`: when an operand is put in parentheses.
* `Postfix.infixText`: the infix text of what a postfix sequence denotes.
-/

namespace Reckoner

namespace Expr

/-- An operand needs parentheses on a side of an operator if it binds looser than the operator, or
as tight and the operator groups to the other side. A number never does. -/
def needsParens (o : Operator) (side : Grouping) : Expr → Bool
  | number _ => false
  | operation p _ _ =>
    p.binding.level < o.binding.level ||
      (p.binding.level == o.binding.level && o.binding.grouping != side)

/-- A text in parentheses if they are needed. -/
def enclose (needed : Bool) (text : String) : String :=
  if needed then "(" ++ text ++ ")" else text

/-- The infix text of a tree: an operator has a space on each side. -/
def text : Expr → String
  | number value => Number.text value
  | operation o left right =>
    enclose (needsParens o .left left) left.text ++ " " ++ o.text ++ " " ++
      enclose (needsParens o .right right) right.text

end Expr

/-- The infix text of the tree that a postfix sequence denotes. -/
def Postfix.infixText (p : Postfix) : Except Malformation String :=
  (Expr.ofPostfix p).map Expr.text

end Reckoner
