import Reckoner.Operator
import Reckoner.Text.Quoted

/-!
# What can be wrong with an expression

Each stage has the causes for which it refuses its input, and each cause its message.

* `ConversionFault`: the tokens are no balanced expression.
* `Malformation`: a postfix sequence does not denote one number.
* `EvaluationFault`: a postfix sequence has no value.
* `CalculationFault`: the text of an expression has no value.
* `bind_eq_ok_iff`, `map_eq_ok_iff`: a stage succeeds if all of its parts do.
-/

namespace Reckoner

/-- One side of a pair of parentheses. -/
inductive Paren where
  | opening
  | closing
  deriving DecidableEq, Repr

def Paren.name : Paren → String
  | opening => "opening"
  | closing => "closing"

/-- Why tokens cannot be brought into postfix order. -/
inductive ConversionFault where
  /-- A text that is no token of an expression. -/
  | invalidToken (text : String)
  /-- A parenthesis whose partner is missing. -/
  | unbalanced (missing : Paren)
  deriving DecidableEq, Repr

def ConversionFault.message : ConversionFault → String
  | invalidToken text => "invalid token " ++ Text.quote text
  | unbalanced missing => "unbalanced parentheses: missing " ++ missing.name ++ " paren"

/-- Why a postfix sequence does not denote a single number. -/
inductive Malformation where
  /-- An operator with fewer than two operands before it. -/
  | underflow (operator : Operator)
  /-- A sequence that ends with other than one operand. -/
  | operands (count : Nat)
  /-- A token that is neither number nor operator. -/
  | badToken (text : String)
  deriving DecidableEq, Repr

def Malformation.message : Malformation → String
  | underflow operator => "not enough operands for '" ++ operator.text ++ "'"
  | operands count => "expected a single result, found " ++ Nat.repr count ++ " values"
  | badToken text => "bad token " ++ Text.quote text

/-- Why a postfix sequence has no value. -/
inductive EvaluationFault where
  | divisionByZero
  | malformed (cause : Malformation)
  deriving DecidableEq, Repr

def EvaluationFault.message : EvaluationFault → String
  | divisionByZero => "division by zero"
  | malformed cause => "malformed expression: " ++ cause.message

/-- Why the text of an expression has no value. -/
inductive CalculationFault where
  | conversion (cause : ConversionFault)
  | evaluation (cause : EvaluationFault)
  deriving DecidableEq, Repr

def CalculationFault.message : CalculationFault → String
  | conversion cause => "parse error: " ++ cause.message
  | evaluation cause => "eval error: " ++ cause.message

/-! ## Stages that succeed -/

section Stages

variable {ε α β : Type} {x : Except ε α} {b : β}

theorem bind_eq_ok_iff {f : α → Except ε β} :
    x.bind f = .ok b ↔ ∃ a, x = .ok a ∧ f a = .ok b := by
  cases x with
  | error e => simp [Except.bind]
  | ok a => simp [Except.bind]

theorem map_eq_ok_iff {f : α → β} : x.map f = .ok b ↔ ∃ a, x = .ok a ∧ f a = b := by
  cases x with
  | error e => simp [Except.map]
  | ok a => simp [Except.map]

end Stages

end Reckoner
