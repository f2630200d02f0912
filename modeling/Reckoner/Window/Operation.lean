import Reckoner.Window

/-!
# Operations of a window as data

A user of a window is a sequence of operations, each with an answer.

* `Window.perform`: one operation.
* `Window.performAll`: a sequence of them, with the answer to each and the window after it.
* `Window.items_perform`: reading and stepping back lose no item of the stream.
-/

namespace Reckoner.Window

universe u

variable {α : Type u}

/-- What can be asked of a window over items. -/
inductive Operation (α : Type u) where
  | advance
  | peek
  | last
  | seek (position : Nat)
  | discard
  | cut
  | accept (item : α)
  | acceptIn (set : List α)
  | skipIn (set : List α)
  deriving DecidableEq, Repr

/-- What a window answers. -/
inductive Answer (α : Type u) where
  | item (found : Option α)
  | flag (holds : Bool)
  | items (found : List α)
  | done
  deriving DecidableEq, Repr

/-- An operation that keeps the lexeme it finds, or at least what it has seen of it. The others
start a new lexeme. -/
def Operation.keepsLexeme : Operation α → Bool
  | discard | cut => false
  | _ => true

/-- Performs one operation. -/
def perform [BEq α] (w : Window α) : Operation α → Answer α × Window α
  | .advance => (.item w.advance.1, w.advance.2)
  | .peek => (.item w.peek.1, w.peek.2)
  | .last => (.item w.last?, w)
  | .seek position => (.flag (w.seek position).1, (w.seek position).2)
  | .discard => (.done, w.discard)
  | .cut => (.items w.cut.1, w.cut.2)
  | .accept item => (.item (w.accept item).1, (w.accept item).2)
  | .acceptIn set => (.item (w.acceptIn set).1, (w.acceptIn set).2)
  | .skipIn set => (.flag (w.skipIn set).1, (w.skipIn set).2)

/-- Performs operations in order. -/
def performAll [BEq α] (w : Window α) : List (Operation α) → List (Answer α × Window α)
  | [] => []
  | o :: os => w.perform o :: (w.perform o).2.performAll os

/-- Until a new lexeme starts, the lexeme and what follows it stay the same items. -/
theorem items_perform [BEq α] {w : Window α} {o : Operation α} (h : o.keepsLexeme = true) :
    (w.perform o).2.items = w.items := by
  cases o with
  | discard => cases h
  | cut => cases h
  | _ => simp [perform, accept]

end Reckoner.Window
