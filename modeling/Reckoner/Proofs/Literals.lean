import Reckoner.Numeral

/-!
# Spellings of numbers

A number is spelled by digits, by digits with a point and maybe digits after it, or by a point and
digits.

* `Literal`: the three forms. `literal_iff`: the numerals are the characters of one of them.
* `exists_numeralSpan_append`, `Literal.numeralSpan_append`: a span stands at the start of its
  text, and a spelling scanned as a whole where neither a digit nor a point follows.
* `numeralSpan_append`: what follows there does not change a span. `numeralSpan_append_of_ne`: nor
  does what follows a text in which the span ends early.
* `literal_numeralSpan`, `literal_of_span`, `Literal.prefix_numeralSpan`: a span with a digit is a
  spelling, and the longest one at the start of its text.
-/

namespace Reckoner

/-- The forms in which a number is spelled. -/
inductive Literal : List Char → Prop
  | whole {ds : List Char} :
      ds ≠ [] → (∀ c ∈ ds, digits.contains c = true) → Literal ds
  | point {ds es : List Char} :
      ds ≠ [] → (∀ c ∈ ds, digits.contains c = true) → (∀ c ∈ es, digits.contains c = true) →
      Literal (ds ++ '.' :: es)
  | fraction {es : List Char} :
      es ≠ [] → (∀ c ∈ es, digits.contains c = true) → Literal ('.' :: es)

/-- Neither a digit nor a point comes next, so a numeral that ends here is not continued. -/
def EndsNumeral (cs : List Char) : Prop :=
  ∀ c ∈ cs.head?, digits.contains c = false ∧ c ≠ '.'

/-- Neither a digit nor a point came last, so a numeral that begins here continues none. -/
def PastNumeral (cs : List Char) : Prop :=
  ∀ c ∈ cs.getLast?, digits.contains c = false ∧ c ≠ '.'

section Spans

variable {m ds es rest : List Char}

/-- A run of a set of characters ends before one that is not of the set. -/
theorem run_append {p : Char → Bool} (hp : ∀ c ∈ ds, p c = true)
    (hr : ∀ c ∈ rest.head?, p c = false) :
    (ds ++ rest).takeWhile p = ds ∧ (ds ++ rest).dropWhile p = rest := by
  rw [List.takeWhile_append_of_pos hp, List.dropWhile_append_of_pos hp]
  cases rest with
  | nil => simp
  | cons c rest =>
    have hc := hr c rfl
    simp [hc]

/-- A run of a set of characters is not changed by what one that is not of the set begins. -/
theorem run_append_of_head {p : Char → Bool} (cs : List Char)
    (hr : ∀ c ∈ rest.head?, p c = false) :
    (cs ++ rest).takeWhile p = cs.takeWhile p ∧
      (cs ++ rest).dropWhile p = cs.dropWhile p ++ rest := by
  induction cs with
  | nil => exact run_append (List.forall_mem_nil _) hr
  | cons c cs ih =>
    by_cases hc : p c = true
    · simp [hc, ih]
    · simp [hc]

/-- A run of a set of characters that has ended is not changed by what follows the text. -/
theorem run_append_of_stop {p : Char → Bool} {cs : List Char} (h : cs.dropWhile p ≠ [])
    (ds : List Char) :
    (cs ++ ds).takeWhile p = cs.takeWhile p ∧
      (cs ++ ds).dropWhile p = cs.dropWhile p ++ ds := by
  induction cs with
  | nil => exact absurd rfl h
  | cons c cs ih =>
    by_cases hc : p c = true
    · rw [List.dropWhile_cons_of_pos hc] at h
      simp [hc, ih h]
    · simp [hc]

theorem numeralSpan_digits_append (hd : ∀ c ∈ ds, digits.contains c = true)
    (hr : EndsNumeral rest) : numeralSpan (ds ++ rest) = ds := by
  obtain ⟨ht, hw⟩ := run_append hd fun c hc => (hr c hc).1
  have hp : rest.head? ≠ some '.' := fun hp => (hr '.' hp).2 rfl
  rw [← hw] at hp
  rw [numeralSpan_of_head?_ne hp, ht]

theorem EndsNumeral.nil : EndsNumeral [] :=
  nofun

theorem numeralSpan_of_ends (hr : EndsNumeral rest) : numeralSpan rest = [] := by
  have := numeralSpan_digits_append (List.forall_mem_nil _) hr
  rwa [List.nil_append] at this

/-- The digits before a point and those after it. -/
theorem numeralSpan_digits_point (hd : ∀ c ∈ ds, digits.contains c = true) (more : List Char) :
    numeralSpan (ds ++ '.' :: more) = ds ++ '.' :: more.takeWhile digits.contains := by
  have hp : ∀ c ∈ ('.' :: more).head?, digits.contains c = false := by
    rintro c ⟨⟩
    rfl
  obtain ⟨ht, hw⟩ := run_append hd hp
  rw [numeralSpan, ht, hw]
  rfl

theorem numeralSpan_point_append (hd : ∀ c ∈ ds, digits.contains c = true)
    (he : ∀ c ∈ es, digits.contains c = true) (hr : ∀ c ∈ rest.head?, digits.contains c = false) :
    numeralSpan (ds ++ '.' :: (es ++ rest)) = ds ++ '.' :: es := by
  rw [numeralSpan_digits_point hd, (run_append he hr).1]

/-- A span is not changed by what follows its text if the runs of digits in it are not, and it is not
all digits before a point. -/
theorem numeralSpan_append_of_runs {cs : List Char}
    (hrun : (cs ++ ds).takeWhile digits.contains = cs.takeWhile digits.contains ∧
      (cs ++ ds).dropWhile digits.contains = cs.dropWhile digits.contains ++ ds)
    (hpoint : cs.dropWhile digits.contains = [] → ds.head? ≠ some '.')
    (hmore : ∀ more, cs.dropWhile digits.contains = '.' :: more →
      (more ++ ds).takeWhile digits.contains = more.takeWhile digits.contains) :
    numeralSpan (cs ++ ds) = numeralSpan cs := by
  obtain ⟨ht, hw⟩ := hrun
  rcases hd : cs.dropWhile digits.contains with _ | ⟨c, more⟩
  · rw [hd, List.nil_append] at hw
    have hp := hpoint hd
    rw [numeralSpan_of_head?_ne (by rwa [hw]), ht, numeralSpan_of_head?_ne (by simp [hd])]
  · rw [hd, List.cons_append] at hw
    by_cases hc : c = '.'
    · subst hc
      simp only [numeralSpan, ht, hw, hd, hmore more hd]
    · rw [numeralSpan_of_head?_ne (by simp [hw, hc]), ht, numeralSpan_of_head?_ne (by simp [hd, hc])]

/-- A span is not changed by what neither a digit nor a point begins. -/
theorem numeralSpan_append (cs : List Char) (hr : EndsNumeral rest) :
    numeralSpan (cs ++ rest) = numeralSpan cs := by
  have hrun (xs : List Char) := run_append_of_head xs fun c hc => (hr c hc).1
  exact numeralSpan_append_of_runs (hrun cs) (fun _ hp => (hr '.' hp).2 rfl)
    fun more _ => (hrun more).1

/-- The span of a numeral stands at the start of the text. -/
theorem exists_numeralSpan_append (cs : List Char) : ∃ rest, numeralSpan cs ++ rest = cs := by
  have hcs := List.takeWhile_append_dropWhile (p := digits.contains) (l := cs)
  unfold numeralSpan
  split
  · next more hm =>
    have hmore := List.takeWhile_append_dropWhile (p := digits.contains) (l := more)
    refine ⟨more.dropWhile digits.contains, ?_⟩
    rw [List.append_assoc, List.cons_append, hmore, ← hm, hcs]
  · exact ⟨cs.dropWhile digits.contains, by rw [List.append_nil, hcs]⟩

/-- A span is made of digits and a point. -/
theorem mem_numeralSpan {cs : List Char} {c : Char} (h : c ∈ numeralSpan cs) :
    digits.contains c = true ∨ c = '.' := by
  unfold numeralSpan at h
  rcases List.mem_append.mp h with h | h
  · exact .inl (List.all_eq_true.mp List.all_takeWhile c h)
  · split at h
    · rcases List.mem_cons.mp h with h | h
      · exact .inr h
      · exact .inl (List.all_eq_true.mp List.all_takeWhile c h)
    · cases h

/-- A span that ends before its text does is not changed by what follows the text. -/
theorem numeralSpan_append_of_ne {cs : List Char} (h : numeralSpan cs ≠ cs) (ds : List Char) :
    numeralSpan (cs ++ ds) = numeralSpan cs := by
  have hcs := List.takeWhile_append_dropWhile (p := digits.contains) (l := cs)
  -- Digits to the end, with a point among them or not, would be a span of the whole text.
  have hstop : cs.dropWhile digits.contains ≠ [] := by
    intro hnil
    rw [hnil, List.append_nil] at hcs
    exact h (by rw [numeralSpan_of_head?_ne (by simp [hnil]), hcs])
  refine numeralSpan_append_of_runs (run_append_of_stop hstop ds) (fun hnil => absurd hnil hstop)
    fun more hd => (run_append_of_stop ?_ ds).1
  intro hnil
  have hmore := List.takeWhile_append_dropWhile (p := digits.contains) (l := more)
  rw [hnil, List.append_nil] at hmore
  rw [hd] at hcs
  exact h (by rw [numeralSpan, hd]; simp only [hmore, hcs])

theorem PastNumeral.of_suffix {cs : List Char} (h : PastNumeral cs) (hr : rest <:+ cs) :
    PastNumeral rest := by
  obtain ⟨m, rfl⟩ := hr
  intro c hc
  exact h c (by rw [List.getLast?_append, Option.mem_def.mp hc]; rfl)

/-- A text that does not end in a digit or a point is not continued by what follows it. -/
theorem PastNumeral.numeralSpan_append {cs : List Char} (h : PastNumeral cs) (hne : cs ≠ [])
    (ds : List Char) : numeralSpan (cs ++ ds) = numeralSpan cs := by
  refine numeralSpan_append_of_ne (fun hspan => ?_) ds
  obtain ⟨c, hc⟩ : ∃ c, cs.getLast? = some c := ⟨_, List.getLast?_eq_some_getLast hne⟩
  have hmem : c ∈ numeralSpan cs := by
    rw [hspan]
    exact List.mem_of_getLast? hc
  obtain ⟨hdigit, hpoint⟩ := h c hc
  rcases mem_numeralSpan hmem with hm | hm
  · rw [hdigit] at hm
    cases hm
  · exact hpoint hm

/-- A spelling is scanned as a whole where nothing continues it. -/
theorem Literal.numeralSpan_append (h : Literal m) (hr : EndsNumeral rest) :
    numeralSpan (m ++ rest) = m := by
  cases h with
  | whole _ hd => exact numeralSpan_digits_append hd hr
  | @point ds es _ hd he =>
    rw [List.append_assoc]
    exact numeralSpan_point_append hd he fun c hc => (hr c hc).1
  | @fraction es _ he =>
    have := numeralSpan_point_append (List.forall_mem_nil _) he fun c hc => (hr c hc).1
    rwa [List.nil_append] at this

theorem Literal.exists_digit (h : Literal m) : m.any digits.contains = true := by
  have any {ds : List Char} (hne : ds ≠ []) (hd : ∀ c ∈ ds, digits.contains c = true) :
      ds.any digits.contains = true := by
    obtain ⟨c, hc⟩ := List.exists_mem_of_ne_nil ds hne
    exact List.any_eq_true.mpr ⟨c, hc, hd c hc⟩
  cases h with
  | whole hne hd => exact any hne hd
  | point hne hd _ => rw [List.any_append, any hne hd, Bool.true_or]
  | fraction hne he => rw [List.any_cons, any hne he, Bool.or_true]

/-- A span that holds a digit is a spelling. -/
theorem literal_numeralSpan {cs : List Char} (h : (numeralSpan cs).any digits.contains = true) :
    Literal (numeralSpan cs) := by
  have run (cs : List Char) : ∀ c ∈ cs.takeWhile digits.contains, digits.contains c = true :=
    List.all_eq_true.mp List.all_takeWhile
  have hd := run cs
  unfold numeralSpan at h ⊢
  split at h
  · next more _ =>
    have he := run more
    generalize cs.takeWhile digits.contains = ds at hd h ⊢
    generalize more.takeWhile digits.contains = es at he h ⊢
    by_cases hne : ds = []
    · subst hne
      refine .fraction ?_ he
      rintro rfl
      exact absurd h (by decide)
    · exact .point hne hd he
  · rw [List.append_nil] at h ⊢
    refine .whole ?_ hd
    intro hnil
    rw [hnil] at h
    exact absurd h (by decide)

/-- What is scanned as a whole and holds a digit is a spelling. -/
theorem literal_of_span (ha : m.any digits.contains = true) (hm : numeralSpan (m ++ rest) = m) :
    Literal m := by
  have := literal_numeralSpan (hm.symm ▸ ha)
  rwa [hm] at this

theorem literal_iff : Literal m ↔ isNumeral m = true := by
  constructor
  · intro h
    have := h.numeralSpan_append .nil
    rw [List.append_nil] at this
    simp only [isNumeral, this, h.exists_digit, beq_self_eq_true, Bool.and_self]
  · intro h
    obtain ⟨hs, ha⟩ : numeralSpan m = m ∧ m.any digits.contains = true := by
      simpa [isNumeral] using h
    exact literal_of_span ha (by rw [List.append_nil, hs])

/-- A spelling at the start of a text does not reach beyond the span. -/
theorem Literal.prefix_numeralSpan {cs : List Char} (h : Literal m) (hm : m <+: cs) :
    m <+: numeralSpan cs := by
  obtain ⟨rest, rfl⟩ := hm
  cases h with
  | whole _ hd =>
    rw [numeralSpan, List.takeWhile_append_of_pos hd, List.append_assoc]
    exact List.prefix_append _ _
  | @point ds es _ hd he =>
    rw [List.append_assoc, List.cons_append, numeralSpan_digits_point hd,
      List.takeWhile_append_of_pos he, ← List.cons_append, ← List.append_assoc]
    exact List.prefix_append _ _
  | @fraction es _ he =>
    have := numeralSpan_digits_point (List.forall_mem_nil _) (es ++ rest)
    rw [List.nil_append, List.nil_append, List.takeWhile_append_of_pos he] at this
    rw [List.cons_append, this, ← List.cons_append]
    exact List.prefix_append _ _

end Spans

end Reckoner
