import Reckoner.Token.Source
import Reckoner.Window.Numeral

/-!
# Splitting a text into tokens

A `Lexer` yields the tokens of a text: blanks are skipped, the longest numeral is one token, and
any other character is a token of its own.

* `Lexer.next`: the next token and the lexer after it.
* `Lexer.remaining_next_lt`: each token takes at least one character.
* `Lexer.tokens`: all tokens of a text.
-/

namespace Reckoner

/-- A text that is being split into tokens. -/
structure Lexer where
  source : Window Char
  deriving DecidableEq, Repr

namespace Lexer

/-- A lexer at the start of a text. -/
def ofString (text : String) : Lexer :=
  ⟨Window.ofList text.toList⟩

/-- The next token, if the text holds more than blanks, and the lexer after it. -/
def next (l : Lexer) : Option Token × Lexer :=
  match l.source.skipBlanks.numeral? with
  | (some numeral, w) => (some (.ofNumeral numeral), ⟨w⟩)
  | (none, w) =>
    match w.advance with
    | (some c, w') => (some (.ofChar c), ⟨w'.discard⟩)
    | (none, w') => (none, ⟨w'⟩)

/-- The number of characters that no token has taken yet. -/
def remaining (l : Lexer) : Nat :=
  l.source.upcoming.length

private theorem length_upcoming_skipBlanks_le (w : Window Char) :
    w.skipBlanks.upcoming.length ≤ w.upcoming.length := by
  rw [Window.upcoming_skipBlanks]
  exact (List.dropWhile_sublist _).length_le

/-- Each token takes at least one character. -/
theorem remaining_next_lt {l : Lexer} {t : Token} (h : l.next.1 = some t) :
    l.next.2.remaining < l.remaining := by
  have hb := length_upcoming_skipBlanks_le l.source
  unfold next at h ⊢
  split
  · next numeral w hn =>
    have := Window.length_upcoming_numeral? (w := l.source.skipBlanks) (by rw [hn])
    rw [hn] at this
    exact Nat.lt_of_lt_of_le this hb
  · next w hn =>
    have hu := Window.upcoming_numeral?_of_none (w := l.source.skipBlanks) (by rw [hn])
    rw [hn] at hu h
    have ha := Window.upcoming_advance w
    have hf := Window.fst_advance w
    simp only at hu h ⊢
    split
    · next c w' hw =>
      rw [hw] at ha hf
      have : 0 < w.upcoming.length := by
        rw [List.length_pos_iff]
        rintro hn
        simp [hn] at hf
      simp only [remaining, Window.upcoming_discard, ha, List.length_tail, ← hu] at hb ⊢
      omega
    · next w' hw => simp [hw] at h

instance : TokenSource Lexer where
  next := next
  size := remaining
  size_next_lt := remaining_next_lt

/-- All tokens of a text. -/
def tokens (text : String) : List Token :=
  TokenSource.toList (ofString text)

end Lexer

end Reckoner
