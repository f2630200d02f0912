import Reckoner.Fault
import Reckoner.Token

/-!
# Events

Conversion and evaluation each record one event for every token they read, before acting on it,
and one event for their outcome.

* `Event`: what happened.
* `Event.level`, `Event.message`, `Event.fields`: how an event is reported.
-/

namespace Reckoner

/-- What conversion and evaluation record. -/
inductive Event where
  /-- Conversion reads a token while so many operators and parentheses wait. -/
  | shunting (token : Token) (depth : Nat)
  /-- Conversion has produced so many tokens. -/
  | converted (tokens : Nat)
  | conversionFailed (fault : ConversionFault)
  /-- Evaluation reads a token while so many operands wait. -/
  | reducing (token : Token) (depth : Nat)
  | evaluated (value : Float)
  | evaluationFailed (fault : EvaluationFault)
  deriving DecidableEq, Repr

/-- How much an event matters: steps are for tracing, outcomes for debugging. -/
inductive Event.Level where
  | trace
  | debug
  deriving DecidableEq, Repr

/-- The value of a field of an event. -/
inductive Event.Field where
  | text (value : String)
  | count (value : Nat)
  | number (value : Float)
  deriving DecidableEq, Repr

namespace Event

def level : Event → Level
  | shunting .. | reducing .. => .trace
  | converted .. | conversionFailed .. | evaluated .. | evaluationFailed .. => .debug

def message : Event → String
  | shunting .. => "shunting"
  | converted .. => "converted to postfix"
  | conversionFailed .. => "conversion failed"
  | reducing .. => "reducing"
  | evaluated .. => "evaluated postfix expression"
  | evaluationFailed .. => "evaluation failed"

/-- The named values that an event carries. -/
def fields : Event → List (String × Field)
  | shunting token depth => [("token", .text token.text), ("depth", .count depth)]
  | converted tokens => [("tokens", .count tokens)]
  | conversionFailed fault => [("err", .text fault.message)]
  | reducing token depth => [("token", .text token.text), ("depth", .count depth)]
  | evaluated value => [("value", .number value)]
  | evaluationFailed fault => [("err", .text fault.message)]

end Event

end Reckoner
