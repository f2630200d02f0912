import Reckoner.Token.Lexer

/-!
# Single lexemes

A lexeme is a text that writes exactly one token, blanks around it aside. A text that writes none,
several or an unknown one is refused.
-/

namespace Reckoner

/-- A text that is not the lexeme of one known token. -/
structure BadLexeme where
  lexeme : String
  deriving DecidableEq, Repr

/-- The refused text stands in the message as it was given. -/
def BadLexeme.message (e : BadLexeme) : String :=
  "Bad token: " ++ e.lexeme

/-- The one token that a lexeme writes. -/
def Token.ofLexeme (lexeme : String) : Except BadLexeme Token :=
  match Lexer.tokens lexeme with
  | [.unknown _] => .error ⟨lexeme⟩
  | [t] => .ok t
  | _ => .error ⟨lexeme⟩

end Reckoner
