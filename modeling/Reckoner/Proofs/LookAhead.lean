import Reckoner.Window.Operation
import Reckoner.Proofs.Cursor

/-!
# Looking ahead can be undone

A window that reads on and steps back to where it was has looked at more items than before, and that is
all. What it has looked at tells which positions can be sought and nothing else, so such a window and one
that never looked ahead answer alike, as long as no position is sought that the second has not reached.

* `reach`: how many items since the last cut a window has looked at. `reach_advance`, `reach_peek`,
  `reach_acceptIn`, `reach_skipIn`, `reach_seek`: how far each operation makes it reach.
* `reach_le_perform`, `items_reach_after`: within a lexeme a window never reaches less far.
* `SeesAsFar`: two windows stand at the same place, and one has looked at least as far as the other.
* `SeesAsFar.perform`, `SeesAsFar.performAll`: they answer alike and go on to do so.
* `performAll_lookAhead`: what is read ahead and undone leaves no trace.
-/

namespace Reckoner.Window

universe u

variable {α : Type u} {w v : Window α}

/-- How many items since the last cut have been looked at, whether consumed or not. -/
def reach (w : Window α) : Nat :=
  w.pos + w.ahead.length

/-! ## How far operations reach -/

theorem length_items (w : Window α) : w.items.length = w.pos + w.upcoming.length := by
  rw [items, List.length_append, length_lexeme]

theorem pos_le_reach (w : Window α) : w.pos ≤ w.reach :=
  Nat.le_add_right _ _

/-- At the end of the stream all items have been looked at. -/
theorem reach_of_nil (h : w.upcoming = []) :
    w.reach = max w.reach (min (w.pos + 1) w.items.length) := by
  have hlength := length_items w
  have hpos := pos_le_reach w
  rw [h, List.length_nil] at hlength
  omega

@[simp] theorem pos_peek (w : Window α) : w.peek.2.pos = w.pos := by
  rw [← length_lexeme, lexeme_peek, length_lexeme]

theorem reach_peek (w : Window α) :
    w.peek.2.reach = max w.reach (min (w.pos + 1) w.items.length) := by
  by_cases hend : w.upcoming = []
  · rw [peek_of_nil hend]
    exact reach_of_nil hend
  · have hne := List.length_pos_iff.mpr hend
    rw [length_items, reach, (seen_peek hend).2, pos_peek, reach]
    omega

theorem pos_advance (w : Window α) : w.advance.2.pos = min (w.pos + 1) w.items.length := by
  by_cases hend : w.upcoming = []
  · rw [advance_of_nil hend, length_items, hend]
    show w.pos = min (w.pos + 1) w.pos
    omega
  · have hne := List.length_pos_iff.mpr hend
    rw [length_items, (seen_advance hend).1]
    omega

theorem reach_advance (w : Window α) :
    w.advance.2.reach = max w.reach (min (w.pos + 1) w.items.length) := by
  by_cases hend : w.upcoming = []
  · rw [advance_of_nil hend]
    exact reach_of_nil hend
  · have hne := List.length_pos_iff.mpr hend
    rw [length_items, reach, (seen_advance hend).1, (seen_advance hend).2, reach]
    omega

/-- The positions that can be sought are those that have been reached. -/
theorem fst_seek_iff {p : Nat} : (w.seek p).1 = true ↔ p ≤ w.reach := by
  by_cases hp : p ≤ w.pos + w.ahead.length
  · rw [seek, if_pos hp]
    exact iff_of_true rfl hp
  · rw [seek, if_neg hp]
    exact iff_of_false Bool.false_ne_true hp

theorem reach_seek (w : Window α) (p : Nat) : (w.seek p).2.reach = w.reach := by
  by_cases hp : p ≤ w.pos + w.ahead.length
  · rw [reach, (seen_seek hp).1, (seen_seek hp).2, reach]
    omega
  · rw [seek, if_neg hp]

section Sets

variable [BEq α]

theorem pos_acceptIn (w : Window α) (set : List α) :
    (w.acceptIn set).2.pos = w.pos + (w.acceptIn set).1.toList.length := by
  rw [← length_lexeme, lexeme_acceptIn, List.length_append, length_lexeme]

/-- Accepting looks at the next item and no further, whether it consumes it or not. -/
theorem reach_acceptIn (w : Window α) (set : List α) :
    (w.acceptIn set).2.reach = max w.reach (min (w.pos + 1) w.items.length) := by
  have hreach := reach_peek w
  have hpos := pos_peek w
  have hitems := items_peek w
  rcases hpeek : w.peek with ⟨_ | x, w'⟩
  · simp only [acceptIn, hpeek]
    rwa [hpeek] at hreach
  · rw [hpeek] at hreach hpos hitems
    by_cases hx : set.contains x = true
    · simp only [acceptIn, hpeek, hx, if_true]
      rw [reach_advance, hreach, hpos, hitems]
      omega
    · simp only [acceptIn, hpeek, hx]
      exact hreach

theorem pos_skipIn (w : Window α) (set : List α) :
    (w.skipIn set).2.pos = w.pos + (w.upcoming.takeWhile set.contains).length :=
  (seen_skipIn w set).1

/-- Skipping looks at one item after the run. -/
theorem reach_skipIn (w : Window α) (set : List α) :
    (w.skipIn set).2.reach =
      max w.reach (min (w.pos + (w.upcoming.takeWhile set.contains).length + 1) w.items.length) := by
  have hrun := (List.takeWhile_prefix (l := w.upcoming) set.contains).length_le
  rw [reach, (seen_skipIn w set).1, (seen_skipIn w set).2, length_items, reach]
  omega

/-- Within a lexeme a window never reaches less far than before. -/
theorem reach_le_perform {o : Operation α} (h : o.keepsLexeme = true) :
    w.reach ≤ (w.perform o).2.reach := by
  cases o with
  | advance => rw [perform, reach_advance]; omega
  | peek => rw [perform, reach_peek]; omega
  | last => exact Nat.le_refl _
  | seek p => exact Nat.le_of_eq (reach_seek w p).symm
  | discard => cases h
  | cut => cases h
  | accept x => rw [perform, accept, reach_acceptIn]; omega
  | acceptIn set => rw [perform, reach_acceptIn]; omega
  | skipIn set => rw [perform, reach_skipIn]; omega

end Sets

/-! ## Windows at the same place -/

/-- `v` stands where `w` does, in the same items, and has looked at least as far. -/
structure SeesAsFar (v w : Window α) : Prop where
  items : v.items = w.items
  pos : v.pos = w.pos
  reach_le : w.reach ≤ v.reach

namespace SeesAsFar

theorem lexeme (h : v.SeesAsFar w) : v.lexeme = w.lexeme := by
  have hitems := h.items
  refine (List.append_inj hitems ?_).1
  rw [length_lexeme, length_lexeme, h.pos]

theorem upcoming (h : v.SeesAsFar w) : v.upcoming = w.upcoming := by
  have hitems := h.items
  rw [Window.items, Window.items, h.lexeme] at hitems
  exact List.append_cancel_left hitems

theorem last? (h : v.SeesAsFar w) : v.last? = w.last? := by
  have hlexeme := congrArg List.getLast? h.lexeme
  rwa [Window.lexeme, Window.lexeme, List.getLast?_reverse, List.getLast?_reverse] at hlexeme

/-- After the same answer they show the same. -/
theorem observe {r s : Answer α × Window α} (hanswer : r.1 = s.1) (h : r.2.SeesAsFar s.2) :
    Window.observe r = Window.observe s := by
  rw [Window.observe, Window.observe, hanswer, h.pos, h.lexeme, h.last?]

/-- Looking at the next item leaves a window where it is. -/
theorem of_peek (w : Window α) : w.peek.2.SeesAsFar w :=
  ⟨items_peek w, pos_peek w, by rw [reach_peek]; omega⟩

theorem peek (h : v.SeesAsFar w) : v.peek.1 = w.peek.1 ∧ v.peek.2.SeesAsFar w.peek.2 := by
  have hreach := h.reach_le
  refine ⟨by rw [fst_peek, fst_peek, h.upcoming], ?_, ?_, ?_⟩
  · rw [items_peek, items_peek, h.items]
  · rw [pos_peek, pos_peek, h.pos]
  · rw [reach_peek, reach_peek, h.pos, h.items]
    omega

theorem advance (h : v.SeesAsFar w) :
    v.advance.1 = w.advance.1 ∧ v.advance.2.SeesAsFar w.advance.2 := by
  have hreach := h.reach_le
  refine ⟨by rw [fst_advance, fst_advance, h.upcoming], ?_, ?_, ?_⟩
  · rw [items_advance, items_advance, h.items]
  · rw [pos_advance, pos_advance, h.pos, h.items]
  · rw [reach_advance, reach_advance, h.pos, h.items]
    omega

/-- A position that one window has reached, both have. -/
theorem seek (h : v.SeesAsFar w) {p : Nat} (hp : (w.seek p).1 = true) :
    (v.seek p).1 = (w.seek p).1 ∧ (v.seek p).2.SeesAsFar (w.seek p).2 := by
  have hreach := h.reach_le
  have hw : p ≤ w.reach := fst_seek_iff.mp hp
  have hv : p ≤ v.reach := Nat.le_trans hw hreach
  refine ⟨by rw [hp, fst_seek_iff.mpr hv], ?_, ?_, ?_⟩
  · rw [items_seek, items_seek, h.items]
  · rw [(seen_seek hv).1, (seen_seek hw).1]
  · rwa [reach_seek, reach_seek]

theorem discard (h : v.SeesAsFar w) : v.discard.SeesAsFar w.discard := by
  refine ⟨h.upcoming, rfl, ?_⟩
  have hreach := h.reach_le
  have hpos := h.pos
  rw [reach, reach] at hreach ⊢
  show 0 + w.ahead.length ≤ 0 + v.ahead.length
  omega

section Sets

variable [BEq α]

theorem acceptIn (h : v.SeesAsFar w) (set : List α) :
    (v.acceptIn set).1 = (w.acceptIn set).1 ∧ (v.acceptIn set).2.SeesAsFar (w.acceptIn set).2 := by
  have hreach := h.reach_le
  have hanswer : (v.acceptIn set).1 = (w.acceptIn set).1 := by
    rw [fst_acceptIn, fst_acceptIn, h.upcoming]
  refine ⟨hanswer, ?_, ?_, ?_⟩
  · rw [items_acceptIn, items_acceptIn, h.items]
  · rw [pos_acceptIn, pos_acceptIn, hanswer, h.pos]
  · rw [reach_acceptIn, reach_acceptIn, h.pos, h.items]
    omega

theorem skipIn (h : v.SeesAsFar w) (set : List α) :
    (v.skipIn set).1 = (w.skipIn set).1 ∧ (v.skipIn set).2.SeesAsFar (w.skipIn set).2 := by
  have hreach := h.reach_le
  refine ⟨by rw [fst_skipIn, fst_skipIn, h.upcoming], ?_, ?_, ?_⟩
  · rw [items_skipIn, items_skipIn, h.items]
  · rw [pos_skipIn, pos_skipIn, h.pos, h.upcoming]
  · rw [reach_skipIn, reach_skipIn, h.pos, h.items, h.upcoming]
    omega

/-- An operation is answered alike and keeps the windows at one place, unless it seeks a position that
only one of them has reached. -/
theorem perform (h : v.SeesAsFar w) {o : Operation α}
    (hseek : ∀ p, o = .seek p → (w.seek p).1 = true) :
    (v.perform o).1 = (w.perform o).1 ∧ (v.perform o).2.SeesAsFar (w.perform o).2 := by
  cases o with
  | advance => exact ⟨congrArg Answer.item h.advance.1, h.advance.2⟩
  | peek => exact ⟨congrArg Answer.item h.peek.1, h.peek.2⟩
  | last => exact ⟨congrArg Answer.item h.last?, h⟩
  | seek p =>
    obtain ⟨hanswer, hsees⟩ := h.seek (hseek p rfl)
    exact ⟨congrArg Answer.flag hanswer, hsees⟩
  | discard => exact ⟨rfl, h.discard⟩
  | cut => exact ⟨congrArg Answer.items h.lexeme, h.discard⟩
  | accept x => exact ⟨congrArg Answer.item (h.acceptIn [x]).1, (h.acceptIn [x]).2⟩
  | acceptIn set => exact ⟨congrArg Answer.item (h.acceptIn set).1, (h.acceptIn set).2⟩
  | skipIn set => exact ⟨congrArg Answer.flag (h.skipIn set).1, (h.skipIn set).2⟩

end Sets

end SeesAsFar

/-! ## Runs of operations -/

section Runs

variable [BEq α] {os os' : List (Operation α)}

/-- Each position that the operations seek has been reached by then. -/
def SeeksSucceed (w : Window α) : List (Operation α) → Prop
  | [] => True
  | o :: os => (∀ p, o = .seek p → (w.seek p).1 = true) ∧ (w.perform o).2.SeeksSucceed os

/-- The window after operations. -/
def after (w : Window α) : List (Operation α) → Window α
  | [] => w
  | o :: os => (w.perform o).2.after os

theorem performAll_append (w : Window α) (os os' : List (Operation α)) :
    w.performAll (os ++ os') = w.performAll os ++ (w.after os).performAll os' := by
  induction os generalizing w with
  | nil => rfl
  | cons o os ih => exact congrArg _ (ih (w.perform o).2)

/-- Operations that keep the lexeme lose no item, and nothing that has been looked at. -/
theorem items_reach_after (w : Window α) (h : ∀ o ∈ os, o.keepsLexeme = true) :
    (w.after os).items = w.items ∧ w.reach ≤ (w.after os).reach := by
  induction os generalizing w with
  | nil => exact ⟨rfl, Nat.le_refl _⟩
  | cons o os ih =>
    obtain ⟨ho, hos⟩ := List.forall_mem_cons.mp h
    obtain ⟨hitems, hreach⟩ := ih (w.perform o).2 hos
    exact ⟨hitems.trans (items_perform ho), Nat.le_trans (reach_le_perform ho) hreach⟩

/-- Windows at one place show the same after each of the operations. -/
theorem SeesAsFar.performAll (h : v.SeesAsFar w) (hs : w.SeeksSucceed os) :
    (v.performAll os).map Window.observe = (w.performAll os).map Window.observe := by
  induction os generalizing v w with
  | nil => rfl
  | cons o os ih =>
    obtain ⟨hanswer, hsees⟩ := h.perform hs.1
    rw [Window.performAll, Window.performAll, List.map_cons, List.map_cons,
      SeesAsFar.observe hanswer hsees, ih hsees hs.2]

/-- Stepping back to where a window was leaves it there, with all that it has looked at since. -/
theorem seek_after (w : Window α) (h : ∀ o ∈ os, o.keepsLexeme = true) :
    ((w.after os).seek w.pos).1 = true ∧ ((w.after os).seek w.pos).2.SeesAsFar w := by
  obtain ⟨hitems, hreach⟩ := w.items_reach_after h
  have hle : w.pos ≤ (w.after os).reach := Nat.le_trans (pos_le_reach w) hreach
  refine ⟨fst_seek_iff.mpr hle, ?_, (seen_seek hle).1, ?_⟩
  · rw [items_seek, hitems]
  · rwa [reach_seek]

/-- **Look-ahead.** Whatever operations a window performs without starting a new lexeme, it can step
back to where it was. What it shows from then on, through any operations, is what it would have shown
without them, as long as it seeks only positions that it would have reached. A peek needs no step back:
it answers the item that comes next and shows nothing else that is new. -/
theorem performAll_lookAhead (w : Window α) (hs : w.SeeksSucceed os') :
    ((∀ o ∈ os, o.keepsLexeme = true) →
      (w.performAll (os ++ .seek w.pos :: os')).map Window.observe =
        (w.performAll os).map Window.observe ++
          ⟨.flag true, w.pos, w.lexeme, w.last?⟩ :: (w.performAll os').map Window.observe) ∧
    (w.performAll (.peek :: os')).map Window.observe =
      ⟨.item w.advance.1, w.pos, w.lexeme, w.last?⟩ :: (w.performAll os').map Window.observe := by
  constructor
  · intro hos
    obtain ⟨hanswer, hsees⟩ := w.seek_after hos
    rw [performAll_append, List.map_append, performAll, List.map_cons, perform,
      hsees.performAll hs, Window.observe, hanswer, hsees.pos, hsees.lexeme, hsees.last?]
  · have hsees := SeesAsFar.of_peek w
    rw [performAll, List.map_cons, perform, hsees.performAll hs, Window.observe, hsees.pos,
      hsees.lexeme, hsees.last?, fst_peek, ← fst_advance]

end Runs

/-- A window on `12+3` behind the first digit. -/
def midway : Window Char :=
  ⟨['1'], [], ['2', '+', '3']⟩

/-- Operations that go to the end of the stream and back to its start, and some that fail. -/
def wandering : List (Operation Char) :=
  [.accept '+', .skipIn ['2', '+'], .seek 9, .peek, .advance, .advance, .seek 0, .last]

/-- Operations that step back once more and cut the lexeme. -/
def resuming : List (Operation Char) :=
  [.advance, .seek 0, .advance, .cut, .skipIn ['2', '3'], .seek 0, .acceptIn ['2']]

theorem keepsLexeme_wandering : ∀ o ∈ wandering, o.keepsLexeme = true := by decide

theorem seeksSucceed_resuming : midway.SeeksSucceed resuming := by
  refine ⟨?_, ?_, ?_, ?_, ?_, ?_, ?_, trivial⟩ <;> rintro _ ⟨⟩ <;> rfl

theorem performAll_lookAhead_midway :
    (∀ o ∈ wandering, o.keepsLexeme = true) ∧ midway.SeeksSucceed resuming ∧
      (midway.performAll (wandering ++ .seek 1 :: resuming)).map observe =
        (midway.performAll wandering).map observe ++
          ⟨.flag true, 1, ['1'], some '1'⟩ :: (midway.performAll resuming).map observe ∧
      (midway.performAll (.peek :: resuming)).map observe =
        ⟨.item (some '2'), 1, ['1'], some '1'⟩ :: (midway.performAll resuming).map observe := by
  obtain ⟨hundone, hpeek⟩ := @performAll_lookAhead _ _ wandering _ midway seeksSucceed_resuming
  exact ⟨keepsLexeme_wandering, seeksSucceed_resuming, hundone keepsLexeme_wandering, hpeek⟩

end Reckoner.Window
