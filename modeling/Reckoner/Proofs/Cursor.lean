import Reckoner.Window.Operation

/-!
# A window is a cursor

A window keeps items, those before the place it has reached and those after it. A `Cursor` keeps
only where it is in the list. Whatever is done with a window over a list, nothing but the cursor can
be told from its answers.

* `Cursor`: where the lexeme begins, how long it is, and how far the list has been looked at.
* `Cursor.advance`, `Cursor.peek`, `Cursor.seek`, …: what the operations do to it.
* `Window.At`: the window is where the cursor is.
* `Window.At.perform`: an operation gives both the same answer and leaves them at one place.
* `performAll_eq_cursor`: so does any sequence of operations.
-/

namespace Reckoner

universe u

/-- A place in a list. The lexeme begins at `base` and has `pos` items, and the items before `high`
have been looked at. -/
structure Cursor {α : Type u} (source : List α) where
  base : Nat
  pos : Nat
  high : Nat
  place_le : base + pos ≤ high
  high_le : high ≤ source.length

namespace Cursor

variable {α : Type u} {source : List α}

/-- At the start, with nothing looked at. -/
def start (source : List α) : Cursor source :=
  ⟨0, 0, 0, Nat.le_refl 0, Nat.zero_le _⟩

/-- Where the next item stands. -/
def place (c : Cursor source) : Nat :=
  c.base + c.pos

/-- The items of the lexeme. -/
def view (c : Cursor source) : List α :=
  (source.drop c.base).take c.pos

/-- The last item of the lexeme. -/
def last? (c : Cursor source) : Option α :=
  c.view.getLast?

/-- Answers the next item, which has then been looked at. At the end nothing changes. -/
def peek (c : Cursor source) : Option α × Cursor source :=
  if h : c.place < source.length then
    (some source[c.place],
      { c with
        high := max c.high (c.place + 1)
        place_le := by have := c.place_le; omega
        high_le := by have := c.high_le; omega })
  else (none, c)

/-- Answers the next item and moves behind it. At the end nothing changes. -/
def advance (c : Cursor source) : Option α × Cursor source :=
  if h : c.place < source.length then
    (some source[c.place],
      { c with
        pos := c.pos + 1
        high := max c.high (c.place + 1)
        place_le := by unfold place; omega
        high_le := by have := c.high_le; omega })
  else (none, c)

/-- Moves to position `p` of the lexeme if the items before it have been looked at. -/
def seek (c : Cursor source) (p : Nat) : Bool × Cursor source :=
  if h : c.base + p ≤ c.high then (true, { c with pos := p, place_le := h }) else (false, c)

/-- Begins a new lexeme where the old one ends. -/
def discard (c : Cursor source) : Cursor source :=
  { c with base := c.place, pos := 0, place_le := c.place_le }

/-- Begins a new lexeme and answers the old one. -/
def cut (c : Cursor source) : List α × Cursor source :=
  (c.view, c.discard)

section Sets

variable [BEq α]

/-- Moves behind the next item if it is one of `set`, and only looks at it if not. -/
def acceptIn (c : Cursor source) (set : List α) : Option α × Cursor source :=
  if c.peek.1.any set.contains then c.peek.2.advance else (none, c.peek.2)

/-- The number of items of `set` that come next in a row. -/
def run (c : Cursor source) (set : List α) : Nat :=
  ((source.drop c.place).takeWhile set.contains).length

theorem place_add_run_le (c : Cursor source) (set : List α) :
    c.place + c.run set ≤ source.length := by
  have hrun := (List.takeWhile_prefix (l := source.drop c.place) set.contains).length_le
  have hplace := c.place_le
  have hhigh := c.high_le
  rw [List.length_drop] at hrun
  unfold run
  unfold place at *
  omega

/-- Moves behind all items of `set` that come next in a row, and looks at the one after them. It
answers whether there was any. -/
def skipIn (c : Cursor source) (set : List α) : Bool × Cursor source :=
  (0 < c.run set,
    { c with
      pos := c.pos + c.run set
      high := max c.high (min (c.place + c.run set + 1) source.length)
      place_le := by
        have := c.place_add_run_le set
        unfold place at *
        omega
      high_le := by have := c.high_le; omega })

/-- Performs one operation. -/
def perform (c : Cursor source) : Window.Operation α → Window.Answer α × Cursor source
  | .advance => (.item c.advance.1, c.advance.2)
  | .peek => (.item c.peek.1, c.peek.2)
  | .last => (.item c.last?, c)
  | .seek position => (.flag (c.seek position).1, (c.seek position).2)
  | .discard => (.done, c.discard)
  | .cut => (.items c.cut.1, c.cut.2)
  | .accept item => (.item (c.acceptIn [item]).1, (c.acceptIn [item]).2)
  | .acceptIn set => (.item (c.acceptIn set).1, (c.acceptIn set).2)
  | .skipIn set => (.flag (c.skipIn set).1, (c.skipIn set).2)

/-- Performs operations in order. -/
def performAll (c : Cursor source) :
    List (Window.Operation α) → List (Window.Answer α × Cursor source)
  | [] => []
  | o :: os => c.perform o :: (c.perform o).2.performAll os

end Sets

end Cursor

namespace Window

variable {α : Type u} {source : List α} {w : Window α} {c : Cursor source}

/-- The window is where the cursor is: it has the items from `base` on, its lexeme has as many of
them as that of the cursor, and it has looked as far. -/
structure At (w : Window α) (c : Cursor source) : Prop where
  items : w.items = source.drop c.base
  pos : w.pos = c.pos
  high : c.base + w.pos + w.ahead.length = c.high

namespace At

theorem start (source : List α) : (ofList source).At (Cursor.start source) :=
  ⟨rfl, rfl, rfl⟩

theorem length_lexeme (h : w.At c) : w.lexeme.length = c.pos := by
  rw [Window.length_lexeme, h.pos]

theorem lexeme (h : w.At c) : w.lexeme = c.view := by
  rw [Cursor.view, ← h.items, Window.items, ← h.length_lexeme, List.take_left]

theorem upcoming (h : w.At c) : w.upcoming = source.drop c.place := by
  rw [Cursor.place, ← List.drop_drop, ← h.items, Window.items, ← h.length_lexeme, List.drop_left]

theorem last? (h : w.At c) : w.last? = c.last? := by
  rw [Cursor.last?, ← h.lexeme, Window.lexeme, List.getLast?_reverse, Window.last?]

theorem length (h : w.At c) : c.place + w.upcoming.length = source.length := by
  have hplace := c.place_le
  have hhigh := c.high_le
  rw [h.upcoming, List.length_drop]
  unfold Cursor.place
  omega

/-- At the end of the list there is nothing to read. -/
theorem upcoming_eq_nil (h : w.At c) (hend : ¬ c.place < source.length) : w.upcoming = [] := by
  rw [h.upcoming, List.drop_eq_nil_iff]
  omega

theorem upcoming_ne_nil (h : w.At c) (hlt : c.place < source.length) : w.upcoming ≠ [] := by
  rw [h.upcoming, Ne, List.drop_eq_nil_iff]
  omega

theorem head? (h : w.At c) (hlt : c.place < source.length) :
    w.upcoming.head? = some source[c.place] := by
  rw [h.upcoming, List.head?_drop, List.getElem?_eq_getElem hlt]

theorem peek (h : w.At c) : w.peek.1 = c.peek.1 ∧ w.peek.2.At c.peek.2 := by
  by_cases hlt : c.place < source.length
  · obtain ⟨hpos, hahead⟩ := seen_peek (h.upcoming_ne_nil hlt)
    rw [Cursor.peek, dif_pos hlt]
    refine ⟨by rw [fst_peek, h.head? hlt], by rw [items_peek, h.items], by rw [hpos, h.pos], ?_⟩
    have := h.pos
    have := h.high
    simp only [hpos, hahead, Cursor.place]
    omega
  · rw [peek_of_nil (h.upcoming_eq_nil hlt), Cursor.peek, dif_neg hlt]
    exact ⟨rfl, h⟩

theorem advance (h : w.At c) : w.advance.1 = c.advance.1 ∧ w.advance.2.At c.advance.2 := by
  by_cases hlt : c.place < source.length
  · obtain ⟨hpos, hahead⟩ := seen_advance (h.upcoming_ne_nil hlt)
    rw [Cursor.advance, dif_pos hlt]
    refine ⟨by rw [fst_advance, h.head? hlt], by rw [items_advance, h.items], by rw [hpos, h.pos],
      ?_⟩
    have := h.pos
    have := h.high
    simp only [hpos, hahead, Cursor.place]
    omega
  · rw [advance_of_nil (h.upcoming_eq_nil hlt), Cursor.advance, dif_neg hlt]
    exact ⟨rfl, h⟩

theorem seek (h : w.At c) (p : Nat) :
    (w.seek p).1 = (c.seek p).1 ∧ (w.seek p).2.At (c.seek p).2 := by
  have hhigh := h.high
  by_cases hp : c.base + p ≤ c.high
  · have hle : p ≤ w.pos + w.ahead.length := by omega
    obtain ⟨hpos, hahead⟩ := seen_seek hle
    rw [Cursor.seek, dif_pos hp]
    refine ⟨by rw [Window.seek, if_pos hle], by rw [items_seek, h.items], hpos, ?_⟩
    simp only [hpos, hahead]
    omega
  · rw [Window.seek, if_neg (by omega), Cursor.seek, dif_neg hp]
    exact ⟨rfl, h⟩

theorem discard (h : w.At c) : w.discard.At c.discard := by
  have hhigh := h.high
  have hpos := h.pos
  refine ⟨h.upcoming, rfl, ?_⟩
  change c.base + c.pos + 0 + w.ahead.length = c.high
  omega

section Sets

variable [BEq α]

theorem acceptIn (h : w.At c) (set : List α) :
    (w.acceptIn set).1 = (c.acceptIn set).1 ∧ (w.acceptIn set).2.At (c.acceptIn set).2 := by
  obtain ⟨hfst, hpeek⟩ := h.peek
  rw [Window.acceptIn, Cursor.acceptIn, ← hfst]
  rcases hw : w.peek with ⟨_ | x, w'⟩
  · rw [hw] at hpeek
    exact ⟨rfl, hpeek⟩
  · rw [hw] at hpeek
    by_cases hx : set.contains x = true
    · simp only [Option.any_some, hx, if_true]
      exact hpeek.advance
    · simp only [Option.any_some, hx]
      exact ⟨rfl, hpeek⟩

theorem run (h : w.At c) (set : List α) :
    (w.upcoming.takeWhile set.contains).length = c.run set := by
  rw [h.upcoming, Cursor.run]

theorem skipIn (h : w.At c) (set : List α) :
    (w.skipIn set).1 = (c.skipIn set).1 ∧ (w.skipIn set).2.At (c.skipIn set).2 := by
  obtain ⟨hpos, hahead⟩ := seen_skipIn w set
  rw [h.run] at hpos hahead
  have hfound : (w.skipIn set).1 = decide (0 < c.run set) := by
    rw [fst_skipIn, ← h.run]
    cases w.upcoming with
    | nil => rfl
    | cons x rest => cases hx : set.contains x <;> simp [hx]
  refine ⟨hfound, by rw [items_skipIn, h.items]; rfl, by rw [hpos, h.pos]; rfl, ?_⟩
  have hp := h.pos
  have hh := h.high
  have hlen := h.length
  have hrun := c.place_add_run_le set
  have hseen : w.ahead.length ≤ w.upcoming.length := by simp [Window.upcoming]
  rw [hpos, hahead]
  simp only [Cursor.skipIn]
  unfold Cursor.place at *
  omega

/-- An operation gives both the same answer and leaves them at one place. -/
theorem perform (h : w.At c) (o : Operation α) :
    (w.perform o).1 = (c.perform o).1 ∧ (w.perform o).2.At (c.perform o).2 := by
  cases o with
  | advance => exact ⟨congrArg Answer.item h.advance.1, h.advance.2⟩
  | peek => exact ⟨congrArg Answer.item h.peek.1, h.peek.2⟩
  | last => exact ⟨congrArg Answer.item h.last?, h⟩
  | seek p => exact ⟨congrArg Answer.flag (h.seek p).1, (h.seek p).2⟩
  | discard => exact ⟨rfl, h.discard⟩
  | cut => exact ⟨congrArg Answer.items h.lexeme, h.discard⟩
  | accept x => exact ⟨congrArg Answer.item (h.acceptIn [x]).1, (h.acceptIn [x]).2⟩
  | acceptIn set => exact ⟨congrArg Answer.item (h.acceptIn set).1, (h.acceptIn set).2⟩
  | skipIn set => exact ⟨congrArg Answer.flag (h.skipIn set).1, (h.skipIn set).2⟩

end Sets

end At

/-! ## Sequences of operations -/

/-- What can be told after an operation: its answer, and what the window then shows. -/
structure Observation (α : Type u) where
  answer : Answer α
  pos : Nat
  view : List α
  last : Option α
  deriving DecidableEq, Repr

/-- What a window shows after an operation. -/
def observe (step : Answer α × Window α) : Observation α :=
  ⟨step.1, step.2.pos, step.2.lexeme, step.2.last?⟩

end Window

/-- What a cursor shows after an operation. -/
def Cursor.observe {α : Type u} {source : List α} (step : Window.Answer α × Cursor source) :
    Window.Observation α :=
  ⟨step.1, step.2.pos, step.2.view, step.2.last?⟩

open Window

variable {α : Type u} {source : List α} {w : Window α} {c : Cursor source}

theorem Window.At.observe {r : Answer α × Window α} {s : Answer α × Cursor source}
    (hanswer : r.1 = s.1) (h : r.2.At s.2) : Window.observe r = Cursor.observe s := by
  rw [Window.observe, Cursor.observe, hanswer, h.pos, h.lexeme, h.last?]

theorem Window.At.performAll [BEq α] (h : w.At c) (os : List (Operation α)) :
    (w.performAll os).map Window.observe = (c.performAll os).map Cursor.observe := by
  induction os generalizing w c with
  | nil => rfl
  | cons o os ih =>
    obtain ⟨hanswer, hat⟩ := h.perform o
    rw [Window.performAll, Cursor.performAll, List.map_cons, List.map_cons, ih hat,
      At.observe hanswer hat]

/-- **Cursor.** Whatever operations are performed on a window over a list, their answers are those
of a cursor that starts at the front of the list, and after each of them the window shows what the
cursor shows. -/
theorem performAll_eq_cursor [BEq α] (source : List α) (os : List (Operation α)) :
    ((ofList source).performAll os).map Window.observe =
      ((Cursor.start source).performAll os).map Cursor.observe :=
  (At.start source).performAll os

end Reckoner
