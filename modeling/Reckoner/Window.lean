/-!
# A window over a stream

A `Window` reads a stream item by item. It keeps the *lexeme*, the items consumed since the last
cut, and the items it has looked at without consuming them, so that reading can step back over
both.

* `upcoming_advance`, `upcoming_peek`, `upcoming_seek`, …: what each operation leaves to be read.
* `items_advance`, `items_seek`, …: reading moves the boundary of the lexeme and loses no item.
* `upcoming_skipIn`, `lexeme_skipIn`: skipping consumes the longest run of items of a set.
  `skipIn_eq`: that is accepting again and again.
* `seen_advance`, `seen_seek`, …: how far the window has consumed and looked.

An operation that may consume or look ahead returns its answer and the window after it.
-/

namespace Reckoner

universe u

/-- A stream read through a window of consumed and looked-at items. -/
structure Window (α : Type u) where
  /-- The items consumed since the last cut, the latest first. -/
  back : List α
  /-- The items looked at and not consumed, in reading order. -/
  ahead : List α
  /-- The items that no operation has seen yet. -/
  unread : List α
  deriving DecidableEq, Repr

namespace Window

variable {α : Type u}

/-- A fresh window at the start of a stream. -/
def ofList (source : List α) : Window α :=
  ⟨[], [], source⟩

/-! ## Views -/

/-- The items consumed since the last cut, in reading order. -/
def lexeme (w : Window α) : List α :=
  w.back.reverse

/-- The number of items in the lexeme. -/
def pos (w : Window α) : Nat :=
  w.back.length

/-- The item consumed last, if it still belongs to the lexeme. -/
def last? (w : Window α) : Option α :=
  w.back.head?

/-- The items still to be consumed: first those looked at, then the unread ones. -/
def upcoming (w : Window α) : List α :=
  w.ahead ++ w.unread

/-- All items since the last cut, consumed or not. -/
def items (w : Window α) : List α :=
  w.lexeme ++ w.upcoming

theorem length_lexeme (w : Window α) : w.lexeme.length = w.pos := by
  rw [lexeme, List.length_reverse, pos]

/-! ## Reading -/

/-- Consumes the next item and answers it; at the end of the stream nothing changes. -/
def advance (w : Window α) : Option α × Window α :=
  match w.ahead, w.unread with
  | x :: ahead, unread => (some x, ⟨x :: w.back, ahead, unread⟩)
  | [], x :: unread => (some x, ⟨x :: w.back, [], unread⟩)
  | [], [] => (none, w)

/-- Answers the next item without consuming it. -/
def peek (w : Window α) : Option α × Window α :=
  match w.ahead, w.unread with
  | x :: _, _ => (some x, w)
  | [], x :: unread => (some x, ⟨w.back, [x], unread⟩)
  | [], [] => (none, w)

/-- Moves to the position `p` of the lexeme and the looked-at items after it. It answers whether
that position has been seen; if not, nothing changes. -/
def seek (w : Window α) (p : Nat) : Bool × Window α :=
  if p ≤ w.pos + w.ahead.length then
    (true, ⟨((w.lexeme ++ w.ahead).take p).reverse, (w.lexeme ++ w.ahead).drop p, w.unread⟩)
  else (false, w)

/-- Starts a new lexeme and forgets the old one. Looked-at items stay. -/
def discard (w : Window α) : Window α :=
  { w with back := [] }

/-- Starts a new lexeme and answers the old one. -/
def cut (w : Window α) : List α × Window α :=
  (w.lexeme, w.discard)

/-! ## Reading by sets of items -/

section Sets

variable [BEq α]

/-- Consumes the next item if it is one of `set`. -/
def acceptIn (w : Window α) (set : List α) : Option α × Window α :=
  match w.peek with
  | (some x, w') => if set.contains x then w'.advance else (none, w')
  | (none, w') => (none, w')

/-- Consumes the next item if it is `x`. -/
def accept (w : Window α) (x : α) : Option α × Window α :=
  w.acceptIn [x]

/-- Consumes the longest run of items of `set`, looking at the one item after the run, and answers
whether there was such a run. -/
def skipIn (w : Window α) (set : List α) : Bool × Window α :=
  let found := (w.ahead.head?.or w.unread.head?).any set.contains
  match w.ahead.dropWhile set.contains with
  | x :: ahead =>
    (found, ⟨(w.ahead.takeWhile set.contains).reverse ++ w.back, x :: ahead, w.unread⟩)
  | [] =>
    let rest := w.unread.dropWhile set.contains
    (found, ⟨(w.unread.takeWhile set.contains).reverse ++ (w.ahead.reverse ++ w.back),
      rest.take 1, rest.drop 1⟩)

end Sets

/-! ## What the operations leave to be read -/

@[simp] theorem upcoming_discard (w : Window α) : w.discard.upcoming = w.upcoming := rfl

theorem fst_advance (w : Window α) : w.advance.1 = w.upcoming.head? := by
  obtain ⟨back, ahead, unread⟩ := w
  cases ahead <;> cases unread <;> rfl

@[simp] theorem upcoming_advance (w : Window α) : w.advance.2.upcoming = w.upcoming.tail := by
  obtain ⟨back, ahead, unread⟩ := w
  cases ahead <;> cases unread <;> rfl

theorem fst_peek (w : Window α) : w.peek.1 = w.upcoming.head? := by
  obtain ⟨back, ahead, unread⟩ := w
  cases ahead <;> cases unread <;> rfl

@[simp] theorem upcoming_peek (w : Window α) : w.peek.2.upcoming = w.upcoming := by
  obtain ⟨back, ahead, unread⟩ := w
  cases ahead <;> cases unread <;> rfl

@[simp] theorem lexeme_peek (w : Window α) : w.peek.2.lexeme = w.lexeme := by
  obtain ⟨back, ahead, unread⟩ := w
  cases ahead <;> cases unread <;> rfl

@[simp] theorem items_advance (w : Window α) : w.advance.2.items = w.items := by
  obtain ⟨back, ahead, unread⟩ := w
  cases ahead <;> cases unread <;> simp [advance, items, lexeme, upcoming]

@[simp] theorem items_peek (w : Window α) : w.peek.2.items = w.items := by
  simp [items]

/-- Seeking moves the boundary between the lexeme and what follows it, and loses nothing. -/
@[simp] theorem items_seek (w : Window α) (p : Nat) : (w.seek p).2.items = w.items := by
  unfold seek
  split
  · simp only [items, lexeme, upcoming, List.reverse_reverse]
    rw [← List.append_assoc, List.take_append_drop, List.append_assoc]
  · rfl

private theorem items_eq (w : Window α) : w.items = (w.lexeme ++ w.ahead) ++ w.unread :=
  (List.append_assoc ..).symm

theorem upcoming_seek {w : Window α} {p : Nat} (h : p ≤ w.pos + w.ahead.length) :
    (w.seek p).2.upcoming = w.items.drop p := by
  have seen : p ≤ (w.lexeme ++ w.ahead).length := by
    rw [List.length_append, length_lexeme]
    exact h
  rw [items_eq, List.drop_append_of_le_length seen, seek, if_pos h]
  rfl

section Sets

variable [BEq α]

theorem fst_acceptIn (w : Window α) (set : List α) :
    (w.acceptIn set).1 = w.upcoming.head?.filter set.contains := by
  obtain ⟨back, ahead, unread⟩ := w
  rcases ahead with _ | ⟨x, ahead⟩ <;> rcases unread with _ | ⟨y, unread⟩ <;>
    simp [acceptIn, peek, upcoming, Option.filter, advance, apply_ite Prod.fst]

/-- Accepting consumes an item exactly when it answers it. -/
theorem upcoming_acceptIn (w : Window α) (set : List α) :
    (w.acceptIn set).2.upcoming =
      if (w.acceptIn set).1.isSome then w.upcoming.tail else w.upcoming := by
  rw [fst_acceptIn]
  obtain ⟨back, ahead, unread⟩ := w
  rcases ahead with _ | ⟨x, ahead⟩ <;> rcases unread with _ | ⟨y, unread⟩ <;>
    simp [acceptIn, peek, upcoming, Option.filter, advance] <;> split <;> simp_all

theorem lexeme_acceptIn (w : Window α) (set : List α) :
    (w.acceptIn set).2.lexeme = w.lexeme ++ (w.acceptIn set).1.toList := by
  rw [fst_acceptIn]
  obtain ⟨back, ahead, unread⟩ := w
  rcases ahead with _ | ⟨x, ahead⟩ <;> rcases unread with _ | ⟨y, unread⟩ <;>
    simp [acceptIn, peek, lexeme, upcoming, Option.filter, advance] <;> split <;> simp_all

theorem fst_skipIn (w : Window α) (set : List α) :
    (w.skipIn set).1 = w.upcoming.head?.any set.contains := by
  obtain ⟨back, ahead, unread⟩ := w
  simp only [skipIn, upcoming, List.head?_append]
  split <;> rfl

/-- Skipping leaves what follows the longest run of the set. -/
@[simp] theorem upcoming_skipIn (w : Window α) (set : List α) :
    (w.skipIn set).2.upcoming = w.upcoming.dropWhile set.contains := by
  simp only [skipIn, upcoming, List.dropWhile_append]
  split
  · next h => simp [h]
  · next h => simp only [h, List.isEmpty_nil, if_true, List.take_append_drop]

/-- Skipping moves the longest run of the set into the lexeme. -/
@[simp] theorem lexeme_skipIn (w : Window α) (set : List α) :
    (w.skipIn set).2.lexeme = w.lexeme ++ w.upcoming.takeWhile set.contains := by
  have split_ahead := List.takeWhile_append_dropWhile (p := set.contains) (l := w.ahead)
  simp only [skipIn, upcoming, lexeme, List.takeWhile_append]
  split
  · next h =>
    have : (w.ahead.takeWhile set.contains).length ≠ w.ahead.length := by
      have lengths := congrArg List.length split_ahead
      simp only [h, List.length_append, List.length_cons] at lengths
      omega
    simp [this]
  · next h =>
    rw [h, List.append_nil] at split_ahead
    simp [split_ahead]

/-- Skipping accepts items as long as it can. -/
theorem skipIn_eq (w : Window α) (set : List α) :
    w.skipIn set =
      match w.acceptIn set with
      | (some _, w') => (true, (w'.skipIn set).2)
      | (none, w') => (false, w') := by
  obtain ⟨back, ahead, unread⟩ := w
  rcases ahead with _ | ⟨x, ahead⟩
  · rcases unread with _ | ⟨x, unread⟩
    · rfl
    · by_cases hx : set.contains x = true
      · simp [skipIn, acceptIn, peek, advance, hx]
      · simp [skipIn, acceptIn, peek, hx]
  · by_cases hx : set.contains x = true
    · simp only [skipIn, acceptIn, peek, advance, hx, if_true, List.dropWhile_cons_of_pos,
        List.takeWhile_cons_of_pos]
      split <;> simp [hx]
    · simp [skipIn, acceptIn, peek, hx]

@[simp] theorem items_acceptIn (w : Window α) (set : List α) :
    (w.acceptIn set).2.items = w.items := by
  obtain ⟨back, ahead, unread⟩ := w
  rcases ahead with _ | ⟨x, ahead⟩ <;> rcases unread with _ | ⟨y, unread⟩ <;>
    simp [acceptIn, peek, items, lexeme, upcoming, advance] <;> split <;> simp

@[simp] theorem items_skipIn (w : Window α) (set : List α) : (w.skipIn set).2.items = w.items := by
  simp [items]

end Sets

/-! ## How far the window has looked -/

theorem advance_of_nil {w : Window α} (h : w.upcoming = []) : w.advance = (none, w) := by
  obtain ⟨back, ahead, unread⟩ := w
  obtain ⟨rfl, rfl⟩ := List.append_eq_nil_iff.mp h
  rfl

theorem peek_of_nil {w : Window α} (h : w.upcoming = []) : w.peek = (none, w) := by
  obtain ⟨back, ahead, unread⟩ := w
  obtain ⟨rfl, rfl⟩ := List.append_eq_nil_iff.mp h
  rfl

theorem seen_advance {w : Window α} (h : w.upcoming ≠ []) :
    w.advance.2.pos = w.pos + 1 ∧ w.advance.2.ahead.length = w.ahead.length - 1 := by
  obtain ⟨back, ahead, unread⟩ := w
  cases ahead with
  | cons x ahead => exact ⟨rfl, rfl⟩
  | nil =>
    cases unread with
    | cons x unread => exact ⟨rfl, rfl⟩
    | nil => exact absurd rfl h

theorem seen_peek {w : Window α} (h : w.upcoming ≠ []) :
    w.peek.2.pos = w.pos ∧ w.peek.2.ahead.length = max w.ahead.length 1 := by
  obtain ⟨back, ahead, unread⟩ := w
  cases ahead with
  | cons x ahead => exact ⟨rfl, (Nat.max_eq_left (Nat.succ_pos _)).symm⟩
  | nil =>
    cases unread with
    | cons x unread => exact ⟨rfl, rfl⟩
    | nil => exact absurd rfl h

theorem seen_seek {w : Window α} {p : Nat} (h : p ≤ w.pos + w.ahead.length) :
    (w.seek p).2.pos = p ∧ (w.seek p).2.ahead.length = w.pos + w.ahead.length - p := by
  have hl : (w.lexeme ++ w.ahead).length = w.pos + w.ahead.length := by
    rw [List.length_append, length_lexeme]
  rw [seek, if_pos h, pos, List.length_reverse, List.length_take, List.length_drop, hl]
  exact ⟨Nat.min_eq_left h, rfl⟩

/-- Skipping looks at one item after the run. -/
theorem seen_skipIn [BEq α] (w : Window α) (set : List α) :
    (w.skipIn set).2.pos = w.pos + (w.upcoming.takeWhile set.contains).length ∧
      (w.skipIn set).2.ahead.length =
        max (w.ahead.length - (w.upcoming.takeWhile set.contains).length)
          (min 1 (w.upcoming.length - (w.upcoming.takeWhile set.contains).length)) := by
  constructor
  · rw [← length_lexeme, lexeme_skipIn, List.length_append, length_lexeme]
  · have ha := congrArg List.length
      (List.takeWhile_append_dropWhile (p := set.contains) (l := w.ahead))
    have hu := congrArg List.length
      (List.takeWhile_append_dropWhile (p := set.contains) (l := w.unread))
    rw [List.length_append] at ha hu
    simp only [skipIn, upcoming, List.takeWhile_append]
    split
    · next h =>
      -- The run ends among the items looked at.
      rw [h, List.length_cons] at ha
      rw [if_neg (by omega)]
      simp only [List.length_cons, List.length_append]
      omega
    · next h =>
      rw [h, List.length_nil] at ha
      rw [if_pos (by omega)]
      simp only [List.length_take, List.length_append]
      omega

end Window

end Reckoner
