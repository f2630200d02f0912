import Reckoner.Arithmetic
import Reckoner.Event
import Reckoner.Postfix

/-!
# The value of a postfix sequence

Numbers wait as operands, the latest on top. An operator takes the upper two, the right operand
from above the left one, and puts its result in their place. A sequence has a value if in the end
one operand is left.

* `reduce`: what one token makes of the operands.
* `Postfix.evaluate`: the value of a sequence, or the first fault, with the events on the way.
-/

namespace Reckoner.Postfix

/-- The operands after one token. -/
def reduce (operands : List Float) : Token → Except EvaluationFault (List Float)
  | .number value => .ok (value :: operands)
  | .op o =>
    match operands with
    | right :: left :: below => (o.apply left right).map (· :: below)
    | _ => .error (.malformed (.underflow o))
  | t => .error (.malformed (.badToken t.text))

/-- The value that the end leaves. -/
def settle : List Float → Except EvaluationFault Float
  | [value] => .ok value
  | operands => .error (.malformed (.operands operands.length))

/-- The outcome of an evaluation: its result and its events. -/
structure Evaluation where
  result : Except EvaluationFault Float
  log : List Event

/-- The value of tokens above operands that wait already, and the event of each token read. -/
def evaluateFrom (operands : List Float) : List Token → Except EvaluationFault Float × List Event
  | [] => (settle operands, [])
  | t :: ts =>
    match reduce operands t with
    | .error fault => (.error fault, [.reducing t operands.length])
    | .ok operands' =>
      let (result, log) := evaluateFrom operands' ts
      (result, .reducing t operands.length :: log)

/-- The event that reports the outcome of an evaluation. -/
def evaluationEvent : Except EvaluationFault Float → Event
  | .ok value => .evaluated value
  | .error fault => .evaluationFailed fault

/-- Evaluates a sequence, up to its end or the first fault. -/
def evaluate (p : Postfix) : Evaluation :=
  let (result, log) := evaluateFrom [] p.tokens
  ⟨result, log ++ [evaluationEvent result]⟩

/-- Evaluates the sequence that lexemes write. Lexemes that write none are refused before
evaluation begins, and so without an event. -/
def evaluateLexemes (lexemes : List String) : Evaluation :=
  match ofLexemes lexemes with
  | .ok p => p.evaluate
  | .error fault => ⟨.error (.malformed fault), []⟩

end Reckoner.Postfix
