import Reckoner.Number.Nearest

/-!
# Numerals

A numeral is a run of decimal digits with at most one point inside, before or after it: `12`,
`1.5`, `.5` and `3.` are numerals, a point alone is not. Its value is the double nearest to it.

* `numeralSpan` is the part of a text that a numeral at its start can cover.
* `isNumeral` holds of a text that is one numeral and nothing more.
* `numeralValue?` reads a numeral.
* `numeralValue?_of_digits`, `numeralValue?_of_point`: the value of digits, and of digits with a
  point among them.
-/

namespace Reckoner

/-- The decimal digits. No other character counts as one. -/
def digits : List Char :=
  ['0', '1', '2', '3', '4', '5', '6', '7', '8', '9']

/-- The digits, the point and the digits at the start of a text, as far as they are there. -/
def numeralSpan (cs : List Char) : List Char :=
  cs.takeWhile digits.contains ++
    match cs.dropWhile digits.contains with
    | '.' :: more => '.' :: more.takeWhile digits.contains
    | _ => []

/-- A numeral covers its whole text and holds a digit. -/
def isNumeral (cs : List Char) : Bool :=
  numeralSpan cs == cs && cs.any digits.contains

/-- The value of a numeral: its digits as a whole number, divided by ten for each digit after the
point, and rounded to the nearest double. -/
def numeralValue? (cs : List Char) : Option Float :=
  let fraction := (cs.dropWhile (· != '.')).drop 1
  if isNumeral cs then
    some (Number.nearest (Nat.ofDigitChars 10 (cs.filter (· != '.')) 0) (10 ^ fraction.length))
  else none

/-- Without a point to follow, a run of digits is all of the span. -/
theorem numeralSpan_of_head?_ne {cs : List Char}
    (h : (cs.dropWhile digits.contains).head? ≠ some '.') :
    numeralSpan cs = cs.takeWhile digits.contains := by
  unfold numeralSpan
  split
  · next hd => simp [hd] at h
  · simp

/-- A run of digits is a span of its own. -/
theorem numeralSpan_of_digits {cs : List Char} (h : ∀ c ∈ cs, digits.contains c = true) :
    numeralSpan cs = cs := by
  have ht := @List.takeWhile_append_of_pos _ _ _ [] h
  have hd := @List.dropWhile_append_of_pos _ _ _ [] h
  rw [List.append_nil] at ht hd
  simp [numeralSpan, ht, hd]

/-- So are two runs of digits with a point between them. -/
theorem numeralSpan_of_point {cs ds : List Char} (hc : ∀ c ∈ cs, digits.contains c = true)
    (hd : ∀ c ∈ ds, digits.contains c = true) :
    numeralSpan (cs ++ '.' :: ds) = cs ++ '.' :: ds := by
  have hds := @List.takeWhile_append_of_pos _ _ _ [] hd
  have ht : ('.' :: ds).takeWhile digits.contains = [] := rfl
  have hp : ('.' :: ds).dropWhile digits.contains = '.' :: ds := rfl
  rw [List.append_nil, List.takeWhile_nil, List.append_nil] at hds
  rw [numeralSpan, List.takeWhile_append_of_pos hc, List.dropWhile_append_of_pos hc, ht, hp,
    List.append_nil]
  simp only [hds]

private theorem ne_point_of_digit {c : Char} (h : digits.contains c = true) :
    (c != '.') = true := by
  rw [bne_iff_ne]
  rintro rfl
  exact absurd h (by decide)

private theorem filter_point {cs : List Char} (h : ∀ c ∈ cs, digits.contains c = true) :
    cs.filter (· != '.') = cs :=
  List.filter_eq_self.mpr fun c hc => ne_point_of_digit (h c hc)

/-- The value of a run of digits. -/
theorem numeralValue?_of_digits {cs : List Char} (h : ∀ c ∈ cs, digits.contains c = true)
    (hne : cs ≠ []) : numeralValue? cs = some (Number.nearest (Nat.ofDigitChars 10 cs 0) 1) := by
  have hany : cs.any digits.contains = true := by
    obtain ⟨c, hc⟩ := List.exists_mem_of_ne_nil cs hne
    exact List.any_eq_true.mpr ⟨c, hc, h c hc⟩
  have hdrop := @List.dropWhile_append_of_pos _ _ cs [] fun c hc => ne_point_of_digit (h c hc)
  rw [List.append_nil, List.dropWhile_nil] at hdrop
  simp [numeralValue?, isNumeral, numeralSpan_of_digits h, hany, hdrop, filter_point h]

/-- The value of digits with a point among them. -/
theorem numeralValue?_of_point {cs ds : List Char} (hc : ∀ c ∈ cs, digits.contains c = true)
    (hd : ∀ c ∈ ds, digits.contains c = true) (hne : cs ≠ []) :
    numeralValue? (cs ++ '.' :: ds) =
      some (Number.nearest (Nat.ofDigitChars 10 (cs ++ ds) 0) (10 ^ ds.length)) := by
  have hany : (cs ++ '.' :: ds).any digits.contains = true := by
    obtain ⟨c, hm⟩ := List.exists_mem_of_ne_nil cs hne
    exact List.any_eq_true.mpr ⟨c, List.mem_append_left _ hm, hc c hm⟩
  have hdrop : (cs ++ '.' :: ds).dropWhile (· != '.') = '.' :: ds := by
    rw [List.dropWhile_append_of_pos fun c hm => ne_point_of_digit (hc c hm)]
    rfl
  have hfilter : (cs ++ '.' :: ds).filter (· != '.') = cs ++ ds := by
    rw [List.filter_append, filter_point hc]
    exact congrArg (cs ++ ·) (filter_point hd)
  simp [numeralValue?, isNumeral, numeralSpan_of_point hc hd, hany, hdrop, hfilter]

/-- The digits are those of core. -/
theorem digits_contains_of_isDigit {c : Char} (h : c.isDigit = true) :
    digits.contains c = true := by
  have range : ∀ n < 58, 48 ≤ n → digits.contains (Char.ofNat n) = true := by decide
  simp only [Char.isDigit, Bool.and_eq_true, decide_eq_true_eq] at h
  rw [← Char.ofNat_toNat c]
  exact range c.toNat (by have := UInt32.le_iff_toNat_le.mp h.2; exact Nat.lt_succ_of_le this)
    (UInt32.le_iff_toNat_le.mp h.1)

end Reckoner
