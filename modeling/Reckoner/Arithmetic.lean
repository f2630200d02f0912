import Reckoner.Fault

/-!
# Arithmetic

`Operator.apply` computes with doubles. The one division that it refuses is the one by zero, of
either sign: every other result, infinite or not a number, is a value like any other.
-/

namespace Reckoner

/-- The result of an operator on its left and its right operand. -/
def Operator.apply (operator : Operator) (left right : Float) : Except EvaluationFault Float :=
  match operator with
  | .add => .ok (left + right)
  | .sub => .ok (left - right)
  | .mul => .ok (left * right)
  | .div => if right == 0.0 then .error .divisionByZero else .ok (left / right)

end Reckoner
