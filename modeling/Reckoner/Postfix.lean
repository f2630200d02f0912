import Reckoner.Fault
import Reckoner.Token.Lexeme

/-!
# Postfix sequences

In a `Postfix` sequence an operator stands after its two operands, so that no parentheses are
needed. The type holds any tokens; whether they denote a number is for evaluation to say.

* `Postfix.lexemes`, `Postfix.text`: how a sequence is written.
* `Postfix.ofLexemes`: the sequence that lexemes write, if each is a number or an operator.
-/

namespace Reckoner

/-- Tokens in postfix order. -/
structure Postfix where
  tokens : List Token
  deriving DecidableEq, Repr

namespace Postfix

/-- The texts of the tokens. -/
def lexemes (p : Postfix) : List String :=
  p.tokens.map Token.text

/-- The lexemes with a space between each two. -/
def text (p : Postfix) : String :=
  " ".intercalate p.lexemes

/-- Sequences agree when they are of one length and their tokens agree one by one. -/
def agrees (p q : Postfix) : Bool :=
  p.tokens.isEqv q.tokens Token.agrees

/-- The number or operator that a lexeme writes. Any other lexeme is a bad token, which the fault
names as it was given. -/
def tokenOfLexeme (lexeme : String) : Except Malformation Token :=
  match Token.ofLexeme lexeme with
  | .ok (.number value) => .ok (.number value)
  | .ok (.op operator) => .ok (.op operator)
  | _ => .error (.badToken lexeme)

/-- The sequence that lexemes write. The first bad lexeme decides the fault. -/
def ofLexemes (lexemes : List String) : Except Malformation Postfix :=
  (lexemes.mapM tokenOfLexeme).map Postfix.mk

end Postfix

end Reckoner
