import Reckoner.Postfix.Conversion
import Reckoner.Postfix.Evaluation

/-!
# Calculation

The text of an expression is brought into postfix order and evaluated.

* `toPostfix`: the postfix lexemes of an expression.
* `evaluate`: the value of postfix lexemes.
* `calculate`: the value of an expression.
* `resultText`: the text of a value as a result.

`calculation` records the events as well.
-/

namespace Reckoner

/-- The lexemes of an expression in postfix order. -/
def toPostfix (text : String) : Except ConversionFault (List String) :=
  (Postfix.ofText text).result.map Postfix.lexemes

/-- The value of lexemes in postfix order. -/
def evaluate (lexemes : List String) : Except EvaluationFault Float :=
  (Postfix.evaluateLexemes lexemes).result

/-- The outcome of a calculation: its result and its events. -/
structure Calculation where
  result : Except CalculationFault Float
  log : List Event

/-- Converts the text of an expression and, if that succeeds, evaluates it. -/
def calculation (text : String) : Calculation :=
  let conversion := Postfix.ofText text
  match conversion.result with
  | .error fault => ⟨.error (.conversion fault), conversion.log⟩
  | .ok p =>
    let evaluation := p.evaluate
    ⟨evaluation.result.mapError .evaluation, conversion.log ++ evaluation.log⟩

/-- The value of the text of an expression. -/
def calculate (text : String) : Except CalculationFault Float :=
  (calculation text).result

/-- A result is written as its number, but negative zero as plain zero. -/
def resultText (value : Float) : String :=
  if value == 0.0 then "0" else Number.text value

end Reckoner
