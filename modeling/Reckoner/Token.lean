import Reckoner.Number.Text
import Reckoner.Numeral
import Reckoner.Operator

/-!
# Tokens

* `Token`: what an expression is written with. A text that is neither numeral, operator nor
  parenthesis is a token too, `Token.unknown`.
* `Token.ofNumeral`, `Token.ofChar`: the token that a numeral or a single character writes.
* `Token.text`: how a token is written.
* `Token.agrees`: equality of tokens that compares numbers as numbers.
-/

namespace Reckoner

/-- The tokens of an expression. -/
inductive Token where
  | number (value : Float)
  | op (operator : Operator)
  | openParen
  | closeParen
  | unknown (text : String)
  deriving DecidableEq, Repr

namespace Token

/-- How a token is written. -/
def text : Token → String
  | number value => Number.text value
  | op operator => operator.text
  | openParen => "("
  | closeParen => ")"
  | unknown text => text

/-- The number that a numeral writes. A numeral beyond the largest double writes no number, and is
unknown as a whole. -/
def ofNumeral (numeral : String) : Token :=
  match numeralValue? numeral.toList with
  | some value => if value.isFinite then number value else unknown numeral
  | none => unknown numeral

/-- The token that a character writes when it starts no numeral. -/
def ofChar (c : Char) : Token :=
  if c = '(' then openParen
  else if c = ')' then closeParen
  else match Operator.ofSymbol? c with
    | some operator => op operator
    | none => unknown (String.singleton c)

/-- Tokens agree when they are equal, where numbers are compared as numbers: zero agrees with
negative zero, and `NaN` with nothing. -/
def agrees : Token → Token → Bool
  | number x, number y => x == y
  | number _, _ => false
  | _, number _ => false
  | s, t => s == t

end Token

end Reckoner
