import Reckoner.Numeral
import Reckoner.Window

/-!
# Reading numerals and blanks through a window

* `Window.skipBlanks` drops blanks, `Window.numeral?` reads the longest numeral that comes next.
* `Window.lexeme_numeralRun`, `Window.fst_numeralRun`: what the scan consumes, and when it is a
  numeral.
* `Window.length_upcoming_numeral?`: reading a numeral consumes at least one character.
* `Window.upcoming_numeral?_of_none`: where no numeral comes next, nothing is consumed.
* `Window.numeral?_of_digit`, `Window.numeral?_of_no_digit`: what is read, by the span of the
  characters that come next.

Blanks are space, line feed, carriage return and tab. No other space is skipped.
-/

namespace Reckoner

/-- The characters that may stand between tokens. -/
def blanks : List Char :=
  [' ', '\n', '\r', '\t']

namespace Window

/-- Starts a new lexeme and answers the old one as text. -/
def cutText (w : Window Char) : String × Window Char :=
  (String.ofList w.lexeme, w.discard)

/-- Forgets the lexeme and the blanks after it. -/
def skipBlanks (w : Window Char) : Window Char :=
  (w.skipIn blanks).2.discard

/-- Consumes digits, a point and digits, as far as they come next, and answers whether there was
a digit among them. -/
def numeralRun (w : Window Char) : Bool × Window Char :=
  let (whole, w₁) := w.skipIn digits
  let (point, w₂) := w₁.accept '.'
  let (fraction, w₃) := if point.isSome then w₂.skipIn digits else (false, w₂)
  (whole || fraction, w₃)

/-- Reads the longest numeral that comes next and cuts the lexeme that ends with it. A point with
no digit on either side is no numeral: then the window steps back to where it was. -/
def numeral? (w : Window Char) : Option String × Window Char :=
  match w.numeralRun with
  | (true, w') => (some w'.cutText.1, w'.cutText.2)
  | (false, w') => (none, (w'.seek w.pos).2)

/-! ## What reading a numeral consumes -/

@[simp] theorem upcoming_skipBlanks (w : Window Char) :
    w.skipBlanks.upcoming = w.upcoming.dropWhile blanks.contains := by
  simp [skipBlanks]

private theorem any_head? {α} (p : α → Bool) (l : List α) :
    l.head?.any p = (l.takeWhile p).any p := by
  cases l with
  | nil => rfl
  | cons x l => by_cases h : p x = true <;> simp [h]

private theorem numeralRun_eq (w : Window Char) :
    w.numeralRun.2.lexeme = w.lexeme ++ numeralSpan w.upcoming ∧
    w.numeralRun.1 = (numeralSpan w.upcoming).any digits.contains := by
  have hw := fst_skipIn w digits
  rw [any_head?] at hw
  have hp := fst_acceptIn (w.skipIn digits).2 ['.']
  have hl := lexeme_acceptIn (w.skipIn digits).2 ['.']
  have hu := upcoming_acceptIn (w.skipIn digits).2 ['.']
  simp only [upcoming_skipIn, lexeme_skipIn] at hp hl hu
  by_cases h : (w.upcoming.dropWhile digits.contains).head? = some '.'
  · obtain ⟨more, hd⟩ : ∃ more, w.upcoming.dropWhile digits.contains = '.' :: more := by
      cases hd : w.upcoming.dropWhile digits.contains with
      | nil => simp [hd] at h
      | cons c more => simp [hd] at h; exact ⟨more, by rw [h]⟩
    have hp' : ((w.skipIn digits).2.acceptIn ['.']).1 = some '.' := by rw [hp, hd]; rfl
    rw [hp', hd] at hu
    rw [hp'] at hl
    simp only [numeralRun, numeralSpan, accept, hp', hd, Option.isSome_some, if_true,
      lexeme_skipIn, fst_skipIn, hl, hu, any_head?]
    simp [show '.' ∉ digits by decide]
  · have hp' : ((w.skipIn digits).2.acceptIn ['.']).1 = none := by
      rw [hp, Option.filter_eq_none_iff]
      rintro c hc
      have : c ≠ '.' := by rintro rfl; exact h hc
      simpa using this
    rw [hp'] at hl
    simp [numeralRun, numeralSpan_of_head?_ne h, accept, hp', hl, hw]

/-- The run ends the lexeme with the digits, the point and the digits that come next. -/
theorem lexeme_numeralRun (w : Window Char) :
    w.numeralRun.2.lexeme = w.lexeme ++ numeralSpan w.upcoming :=
  (numeralRun_eq w).1

/-- The run reports a numeral exactly when it holds a digit. -/
theorem fst_numeralRun (w : Window Char) :
    w.numeralRun.1 = (numeralSpan w.upcoming).any digits.contains :=
  (numeralRun_eq w).2

theorem le_pos_numeralRun (w : Window Char) : w.pos ≤ w.numeralRun.2.pos := by
  have := congrArg List.length (lexeme_numeralRun w)
  simp [lexeme] at this
  simp [pos, this]

theorem items_numeralRun (w : Window Char) : w.numeralRun.2.items = w.items := by
  by_cases h : ((w.skipIn digits).2.acceptIn ['.']).1.isSome = true <;>
    simp [numeralRun, accept, h]

/-- Reading a numeral consumes at least one character. -/
theorem length_upcoming_numeral? {w : Window Char} {text : String} (h : w.numeral?.1 = some text) :
    w.numeral?.2.upcoming.length < w.upcoming.length := by
  have hl := lexeme_numeralRun w
  have hf := fst_numeralRun w
  have hi := items_numeralRun w
  unfold numeral? at h ⊢
  rcases hr : w.numeralRun with ⟨found, w'⟩
  rw [hr] at h hl hf hi
  cases found with
  | false => simp at h
  | true =>
    have : numeralSpan w.upcoming ≠ [] := by rintro hn; simp [hn] at hf
    have lengths := congrArg List.length hi
    have := List.length_pos_iff.mpr this
    simp only [items, hl, List.length_append] at lengths
    simp only [cutText, upcoming_discard]
    omega

/-- Where no numeral comes next, the window ends where it began. -/
theorem upcoming_numeral?_of_none {w : Window Char} (h : w.numeral?.1 = none) :
    w.numeral?.2.upcoming = w.upcoming := by
  have hi := items_numeralRun w
  have hp := le_pos_numeralRun w
  unfold numeral? at h ⊢
  rcases hr : w.numeralRun with ⟨found, w'⟩
  rw [hr] at h hi hp
  cases found with
  | true => simp at h
  | false =>
    rw [upcoming_seek (by simp at hp; omega), hi, items, pos]
    simp [lexeme]

/-- Where a numeral comes next, it is read as a whole and ends the lexeme. -/
theorem numeral?_of_digit {w : Window Char} {m rest : List Char} (hu : w.upcoming = m ++ rest)
    (hm : numeralSpan (m ++ rest) = m) (hd : m.any digits.contains = true) :
    w.numeral?.1 = some (String.ofList (w.lexeme ++ m)) ∧ w.numeral?.2.upcoming = rest := by
  have hl := lexeme_numeralRun w
  have hf := fst_numeralRun w
  have hi := items_numeralRun w
  rw [hu, hm] at hl hf
  rw [hd] at hf
  rcases hr : w.numeralRun with ⟨found, w'⟩
  rw [hr] at hl hf hi
  obtain rfl : found = true := hf
  have hrest : w'.upcoming = rest := by
    rw [items, hl, items, hu, List.append_assoc] at hi
    exact List.append_cancel_left (List.append_cancel_left hi)
  simp [numeral?, hr, cutText, hl, hrest]

/-- Where no numeral comes next, nothing is read. -/
theorem numeral?_of_no_digit {w : Window Char}
    (hd : (numeralSpan w.upcoming).any digits.contains = false) :
    w.numeral?.1 = none ∧ w.numeral?.2.upcoming = w.upcoming := by
  have hf := fst_numeralRun w
  rw [hd] at hf
  have hn : w.numeral?.1 = none := by
    unfold numeral?
    rcases hr : w.numeralRun with ⟨found, w'⟩
    obtain rfl : found = false := by rwa [hr] at hf
    rfl
  exact ⟨hn, upcoming_numeral?_of_none hn⟩

end Window

end Reckoner
