import Reckoner.Token

/-!
# Sources of tokens

A source yields tokens one at a time and ends. A list of tokens is one, and so is a lexer on its
text, so that a consumer of tokens can be run on either and be told what it leaves.

* `TokenSource.toList`: all tokens that a source yields.
* `TokenSource.toList_of_none`, `TokenSource.toList_of_some`: its equations.
-/

namespace Reckoner

/-- A state that yields tokens, each time with the state after it. A token makes the source
smaller. -/
class TokenSource (σ : Type) where
  next : σ → Option Token × σ
  size : σ → Nat
  size_next_lt : ∀ {s : σ} {t : Token}, (next s).1 = some t → size (next s).2 < size s

namespace TokenSource

/-- All tokens of a source, in the order in which it yields them. -/
def toList {σ : Type} [TokenSource σ] (s : σ) : List Token :=
  match h : next s with
  | (none, _) => []
  | (some t, s') =>
    have : size s' < size s := by
      have := size_next_lt (s := s) (t := t) (by rw [h])
      rwa [h] at this
    t :: toList s'
termination_by size s

theorem toList_of_none {σ : Type} [TokenSource σ] {s s' : σ} (h : next s = (none, s')) :
    toList s = [] := by
  rw [toList]
  split <;> simp_all

theorem toList_of_some {σ : Type} [TokenSource σ] {s s' : σ} {t : Token}
    (h : next s = (some t, s')) : toList s = t :: toList s' := by
  rw [toList]
  split <;> simp_all

/-- A list yields its members from the front. -/
instance : TokenSource (List Token) where
  next ts := (ts.head?, ts.tail)
  size ts := ts.length
  size_next_lt {ts t} h := by
    cases ts with
    | nil => simp at h
    | cons t ts => simp

end TokenSource

end Reckoner
