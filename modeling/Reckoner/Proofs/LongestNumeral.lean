import Reckoner.Proofs.LookAhead
import Reckoner.Proofs.MaximalMunch

/-!
# Numerals are read from any window

A numeral is read wherever a window stands, whatever it has consumed and looked at before. It is the
longest that comes next, and it is cut off together with the lexeme before it. Where none comes next,
the window has at most looked further: at one item, or at a point and the item after it.

* `LongestLiteral.eq_numeralSpan`, `numeralSpan_of_no_digit`: the span of a text in which a spelling
  comes first, and of one in which none does.
* `Window.reach_numeralRun`: the scan looks at one item after the span.
* `Window.seesAsFar_numeral?`: where no numeral comes next, the window stands where it stood.
* `numeral?_longest`: what is read and what is left.
-/

namespace Reckoner

/-! ## Spans -/

section Spans

variable {cs m : List Char}

/-- The longest spelling that starts a text is its span. -/
theorem LongestLiteral.eq_numeralSpan (h : LongestLiteral cs m) : numeralSpan cs = m := by
  obtain ⟨hliteral, hprefix, hlongest⟩ := h
  obtain ⟨more, hm⟩ := hliteral.prefix_numeralSpan hprefix
  have hdigit : (numeralSpan cs).any digits.contains = true := by
    rw [← hm, List.any_append, hliteral.exists_digit, Bool.true_or]
  have hle := hlongest _ (literal_numeralSpan hdigit) (exists_numeralSpan_append cs)
  exact (List.IsPrefix.eq_of_length_le ⟨more, hm⟩ hle).symm

/-- Where no spelling starts, the span holds no digit. -/
theorem not_any_digit_of_not_prefix (h : ∀ m, Literal m → ¬ m <+: cs) :
    (numeralSpan cs).any digits.contains = false := by
  rw [Bool.eq_false_iff]
  exact fun hdigit => h _ (literal_numeralSpan hdigit) (exists_numeralSpan_append cs)

/-- A span without a digit is a point, if one comes first, or empty. -/
theorem numeralSpan_of_no_digit (h : (numeralSpan cs).any digits.contains = false) :
    numeralSpan cs = if cs.head? = some '.' then ['.'] else [] := by
  cases cs with
  | nil => rfl
  | cons c cs =>
    by_cases hpoint : c = '.'
    · subst hpoint
      have hspan := numeralSpan_digits_point (List.forall_mem_nil _) cs
      rw [List.nil_append, List.nil_append] at hspan
      rw [hspan, List.any_cons, Bool.or_eq_false_iff, List.any_eq_false] at h
      have hrun : cs.takeWhile digits.contains = [] := by
        refine List.eq_nil_iff_forall_not_mem.mpr fun d hd => h.2 d hd ?_
        exact List.all_eq_true.mp List.all_takeWhile d hd
      rw [hspan, hrun, List.head?_cons, if_pos rfl]
    · have hends : EndsNumeral (c :: cs) := by
        rintro d ⟨⟩
        refine ⟨Bool.eq_false_iff.mpr fun hdigit => ?_, hpoint⟩
        have hmem : c ∈ numeralSpan (c :: cs) := by
          rw [numeralSpan, List.takeWhile_cons_of_pos hdigit]
          exact List.mem_append_left _ List.mem_cons_self
        exact List.any_eq_false.mp h c hmem hdigit
      rw [numeralSpan_of_ends hends, List.head?_cons, if_neg fun hc => hpoint (Option.some.inj hc)]

end Spans

/-! ## Windows -/

namespace Window

variable {w : Window Char} {text : String}

theorem pos_numeralRun (w : Window Char) :
    w.numeralRun.2.pos = w.pos + (numeralSpan w.upcoming).length := by
  rw [← length_lexeme, lexeme_numeralRun, List.length_append, length_lexeme]

/-- The scan looks at one item after the digits, the point and the digits. -/
theorem reach_numeralRun (w : Window Char) :
    w.numeralRun.2.reach =
      max w.reach (min (w.pos + (numeralSpan w.upcoming).length + 1) w.items.length) := by
  have hpoint : ((w.skipIn digits).2.accept '.').2.reach =
      max (w.skipIn digits).2.reach
        (min ((w.skipIn digits).2.pos + 1) (w.skipIn digits).2.items.length) :=
    reach_acceptIn _ ['.']
  have hpos : ((w.skipIn digits).2.accept '.').2.pos =
      (w.skipIn digits).2.pos + ((w.skipIn digits).2.accept '.').1.toList.length :=
    pos_acceptIn _ ['.']
  have hitems : ((w.skipIn digits).2.accept '.').2.items = (w.skipIn digits).2.items :=
    items_acceptIn _ ['.']
  rw [items_skipIn, reach_skipIn, pos_skipIn] at hpoint
  rw [pos_skipIn] at hpos
  rw [items_skipIn] at hitems
  rw [← pos_numeralRun]
  simp only [numeralRun]
  by_cases hfound : ((w.skipIn digits).2.accept '.').1.isSome = true
  · rw [if_pos hfound, reach_skipIn, ← pos_skipIn, hitems, hpoint, pos_skipIn, hpos]
    omega
  · -- Without a point, looking for it has looked once more at the item after the digits.
    rw [Option.not_isSome_iff_eq_none] at hfound
    rw [hfound, Option.toList_none, List.length_nil] at hpos
    simp only [hfound, Option.isSome_none, Bool.false_eq_true, if_false]
    rw [hpoint, hpos]
    omega

/-- A numeral that is read is cut off. -/
theorem lexeme_numeral?_of_some (h : w.numeral?.1 = some text) : w.numeral?.2.lexeme = [] := by
  unfold numeral? at h ⊢
  rcases hr : w.numeralRun with ⟨_ | _, w'⟩
  · rw [hr] at h
    cases h
  · rfl

/-- Where no numeral comes next, the window steps back to where it stood, having looked one item
further than the span. -/
theorem seesAsFar_numeral? (h : (numeralSpan w.upcoming).any digits.contains = false) :
    w.numeral?.2.SeesAsFar w ∧ w.numeral?.2.reach = w.numeralRun.2.reach := by
  have hfound := fst_numeralRun w
  have hitems := items_numeralRun w
  have hreach := reach_numeralRun w
  have hpos := le_pos_numeralRun w
  rw [h] at hfound
  rcases hr : w.numeralRun with ⟨found, w'⟩
  rw [hr] at hfound hitems hreach hpos
  obtain rfl : found = false := hfound
  have hstep : w.numeral?.2 = (w'.seek w.pos).2 := by rw [numeral?, hr]
  have hle : w.pos ≤ w'.reach := Nat.le_trans hpos (pos_le_reach w')
  rw [hstep]
  refine ⟨⟨(items_seek w' w.pos).trans hitems, (seen_seek hle).1, ?_⟩, reach_seek w' w.pos⟩
  rw [reach_seek]
  exact Nat.le_trans (Nat.le_max_left _ _) (Nat.le_of_eq hreach.symm)

/-- **Longest numeral.** From any window the longest numeral that comes next is read. It is answered
with the lexeme before it, the lexeme is then empty, and what follows the numeral is left. Where no
numeral comes next, nothing is answered and the window shows what it showed, but it has looked at the
next item, and at one more if that is a point. -/
theorem numeral?_longest (w : Window Char) :
    (∀ m, LongestLiteral w.upcoming m →
      w.numeral?.1 = some (String.ofList (w.lexeme ++ m)) ∧ w.numeral?.2.lexeme = [] ∧
        w.upcoming = m ++ w.numeral?.2.upcoming) ∧
    ((∀ m, Literal m → ¬ m <+: w.upcoming) →
      w.numeral?.1 = none ∧ w.numeral?.2.lexeme = w.lexeme ∧ w.numeral?.2.pos = w.pos ∧
        w.numeral?.2.last? = w.last? ∧ w.numeral?.2.upcoming = w.upcoming ∧
        w.numeral?.2.ahead.length = max w.ahead.length
          (min (if w.upcoming.head? = some '.' then 2 else 1) w.upcoming.length)) := by
  constructor
  · intro m hm
    have hspan := hm.eq_numeralSpan
    obtain ⟨rest, hrest⟩ : ∃ rest, m ++ rest = w.upcoming := hm.2.1
    rw [← hrest] at hspan
    obtain ⟨htext, hleft⟩ := numeral?_of_digit hrest.symm hspan hm.1.exists_digit
    exact ⟨htext, lexeme_numeral?_of_some htext, by rw [hleft, hrest]⟩
  · intro hnone
    have hdigit := not_any_digit_of_not_prefix hnone
    obtain ⟨hsees, hreach⟩ := seesAsFar_numeral? hdigit
    refine ⟨(numeral?_of_no_digit hdigit).1, hsees.lexeme, hsees.pos, hsees.last?, hsees.upcoming, ?_⟩
    rw [reach_numeralRun, numeralSpan_of_no_digit hdigit, length_items, reach, hsees.pos, reach]
      at hreach
    by_cases hpoint : w.upcoming.head? = some '.'
    · rw [if_pos hpoint, List.length_singleton] at hreach
      rw [if_pos hpoint]
      omega
    · rw [if_neg hpoint, List.length_nil] at hreach
      rw [if_neg hpoint]
      omega

/-- A window on `-1.5.2` behind the sign that has looked at the first digit and the first point. -/
def signed : Window Char :=
  ⟨['-'], ['1', '.'], ['5', '.', '2']⟩

/-- A window on `7.x` behind the digit. -/
def pointed : Window Char :=
  ⟨['7'], [], ['.', 'x']⟩

theorem longestLiteral_signed : LongestLiteral signed.upcoming ['1', '.', '5'] :=
  longestLiteral_of_span rfl rfl

theorem not_prefix_pointed (m : List Char) : Literal m → ¬ m <+: pointed.upcoming :=
  not_prefix_of_span rfl

/-- A numeral that begins among the items looked at and ends among the unread ones, and a point that is
none and was not looked at before. -/
theorem numeral?_longest_signed :
    LongestLiteral signed.upcoming ['1', '.', '5'] ∧
      signed.numeral?.1 = some "-1.5" ∧ signed.numeral?.2.lexeme = [] ∧
      signed.upcoming = ['1', '.', '5'] ++ signed.numeral?.2.upcoming ∧
      (∀ m, Literal m → ¬ m <+: pointed.upcoming) ∧
      pointed.numeral?.1 = none ∧ pointed.numeral?.2.lexeme = ['7'] ∧
      pointed.numeral?.2.upcoming = ['.', 'x'] ∧ pointed.numeral?.2.ahead.length = 2 := by
  obtain ⟨htext, hlexeme, hleft⟩ := (numeral?_longest signed).1 _ longestLiteral_signed
  obtain ⟨hnone, hsame, -, -, hupcoming, hahead⟩ := (numeral?_longest pointed).2 not_prefix_pointed
  exact ⟨longestLiteral_signed, htext, hlexeme, hleft, not_prefix_pointed, hnone, hsame, hupcoming,
    hahead⟩

end Window

end Reckoner
