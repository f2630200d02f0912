import Reckoner.Proofs.Literals
import Reckoner.Token.Lexer

/-!
# The tokens of a text

`Scans cs ts` says how characters are split into tokens: blanks are dropped, a numeral is taken as
far as it goes, and any other character stands for itself.

* `Lexer.next_of_numeral`, `Lexer.next_of_no_numeral`: a step of the lexer, by the characters that
  it has before it.
* `scans_iff`: the lexer and the judgement agree.
* `Scans.append`, `Scans.append_of_past`: texts that follow one another are split one by one, if no
  numeral could go on from one to the other.
* `Scans.exists_numeral`: where the numbers of a text come from.
-/

namespace Reckoner

/-- The characters are split into the tokens. -/
inductive Scans : List Char → List Token → Prop
  | nil : Scans [] []
  | blank {c : Char} {cs : List Char} {ts : List Token} :
      blanks.contains c = true → Scans cs ts → Scans (c :: cs) ts
  | numeral {m rest : List Char} {ts : List Token} :
      m.any digits.contains = true → numeralSpan (m ++ rest) = m → Scans rest ts →
      Scans (m ++ rest) (.ofNumeral (String.ofList m) :: ts)
  | char {c : Char} {cs : List Char} {ts : List Token} :
      blanks.contains c = false → (numeralSpan (c :: cs)).any digits.contains = false →
      Scans cs ts → Scans (c :: cs) (.ofChar c :: ts)

namespace Lexer

variable {l : Lexer} {cs : List Char}

/-- The characters before a lexer that its next token can depend on. -/
def unblanked (l : Lexer) : List Char :=
  l.source.upcoming.dropWhile blanks.contains

private theorem upcoming_skipBlanks (h : l.unblanked = cs) :
    l.source.skipBlanks.upcoming = cs := by
  rw [Window.upcoming_skipBlanks, ← h, unblanked]

/-- Where a numeral comes next, it is read as a whole. -/
theorem next_of_numeral {m rest : List Char} (h : l.unblanked = m ++ rest)
    (ha : m.any digits.contains = true) (hm : numeralSpan (m ++ rest) = m) :
    l.next.1 = some (.ofNumeral (String.ofList m)) ∧ l.next.2.source.upcoming = rest := by
  obtain ⟨hn, hu⟩ := Window.numeral?_of_digit (upcoming_skipBlanks h) hm ha
  rcases hr : l.source.skipBlanks.numeral? with ⟨found, w⟩
  obtain rfl : found = some (String.ofList m) := by rwa [hr] at hn
  rw [hr] at hu
  have hnext : l.next = (some (.ofNumeral (String.ofList m)), ⟨w⟩) := by
    rw [next, hr]
  rw [hnext]
  exact ⟨rfl, hu⟩

/-- Where no numeral comes next, one character is read if there is one. -/
theorem next_of_no_numeral (h : l.unblanked = cs)
    (hd : (numeralSpan cs).any digits.contains = false) :
    l.next.1 = cs.head?.map .ofChar ∧ l.next.2.source.upcoming = cs.tail := by
  have hs := upcoming_skipBlanks h
  obtain ⟨hn, hu⟩ := Window.numeral?_of_no_digit (hs.symm ▸ hd)
  rw [hs] at hu
  rcases hr : l.source.skipBlanks.numeral? with ⟨found, w⟩
  obtain rfl : found = none := by rwa [hr] at hn
  rw [hr] at hu
  have hf := Window.fst_advance w
  have ha := Window.upcoming_advance w
  rw [hu] at hf ha
  rcases hw : w.advance with ⟨c, w'⟩
  rw [hw] at hf ha
  obtain rfl : c = cs.head? := hf
  cases cs with
  | nil =>
    have hnext : l.next = (none, ⟨w'⟩) := by
      simp only [next, hr, hw, List.head?_nil]
    rw [hnext]
    exact ⟨rfl, ha⟩
  | cons c cs =>
    have hnext : l.next = (some (.ofChar c), ⟨w'.discard⟩) := by
      simp only [next, hr, hw, List.head?_cons]
    rw [hnext]
    exact ⟨rfl, ha⟩

/-- A lexer that answers nothing has nothing but blanks before it. -/
theorem fst_next_eq_none_iff : l.next.1 = none ↔ l.unblanked = [] := by
  constructor
  · intro h
    by_cases hd : (numeralSpan l.unblanked).any digits.contains = true
    · obtain ⟨rest, hr⟩ := exists_numeralSpan_append l.unblanked
      have hn := (next_of_numeral hr.symm hd (by rw [hr])).1
      rw [h] at hn
      cases hn
    · have hn := (next_of_no_numeral rfl (Bool.eq_false_iff.mpr hd)).1
      rwa [h, eq_comm, Option.map_eq_none_iff, List.head?_eq_none_iff] at hn
  · intro h
    exact (next_of_no_numeral h rfl).1

/-- And it never answers again. -/
theorem fst_next_next_of_none (h : l.next.1 = none) : l.next.2.next.1 = none := by
  have hu := (next_of_no_numeral (fst_next_eq_none_iff.mp h) rfl).2
  rw [fst_next_eq_none_iff, unblanked, hu]
  rfl

end Lexer

/-! ## The lexer and the judgement -/

variable {cs : List Char} {ts : List Token} {l : Lexer}

/-- A blank ends a numeral. -/
theorem EndsNumeral.of_blank {c : Char} (h : blanks.contains c = true) : EndsNumeral (c :: cs) := by
  have hends : blanks.all (fun b => !digits.contains b && b != '.') = true := rfl
  have hc := List.all_eq_true.mp hends c (List.contains_iff_mem.mp h)
  rw [Bool.and_eq_true, Bool.not_eq_true', bne_iff_ne] at hc
  rintro b ⟨⟩
  exact hc

/-- A numeral does not begin with a blank. -/
theorem blanks_not_contains_head {m rest : List Char} (ha : m.any digits.contains = true)
    (hm : numeralSpan (m ++ rest) = m) : ∀ c ∈ (m ++ rest).head?, blanks.contains c = false := by
  cases m with
  | nil => cases ha
  | cons c m =>
    rintro b ⟨⟩
    rw [Bool.eq_false_iff]
    intro hb
    rw [List.cons_append, numeralSpan_of_ends (.of_blank hb)] at hm
    cases hm

/-- A lexer yields the tokens that the characters before it are split into. -/
theorem Scans.toList (h : Scans cs ts) (hl : l.unblanked = cs.dropWhile blanks.contains) :
    TokenSource.toList l = ts := by
  have after {l' : Lexer} {rest : List Char} (hu : l'.source.upcoming = rest) :
      l'.unblanked = rest.dropWhile blanks.contains := congrArg _ hu
  induction h generalizing l with
  | nil => exact TokenSource.toList_of_none (Prod.ext (Lexer.next_of_no_numeral hl rfl).1 rfl)
  | blank hb _ ih =>
    rw [List.dropWhile_cons_of_pos hb] at hl
    exact ih hl
  | @numeral m rest ts ha hm _ ih =>
    have hfirst := (run_append (List.forall_mem_nil _) (blanks_not_contains_head ha hm)).2
    rw [List.nil_append] at hfirst
    rw [hfirst] at hl
    obtain ⟨hn, hu⟩ := Lexer.next_of_numeral hl ha hm
    have hnext : TokenSource.next l = (some (.ofNumeral (String.ofList m)), l.next.2) :=
      Prod.ext hn rfl
    rw [TokenSource.toList_of_some hnext, ih (after hu)]
  | @char c cs ts hb hd _ ih =>
    rw [List.dropWhile_cons_of_neg (by rw [hb]; exact Bool.false_ne_true)] at hl
    obtain ⟨hn, hu⟩ := Lexer.next_of_no_numeral hl hd
    have hnext : TokenSource.next l = (some (.ofChar c), l.next.2) := Prod.ext hn rfl
    rw [TokenSource.toList_of_some hnext, ih (after hu)]

/-- All characters can be split. -/
theorem exists_scans (cs : List Char) : ∃ ts, Scans cs ts := by
  induction hn : cs.length using Nat.strongRecOn generalizing cs with
  | ind n ih =>
    cases cs with
    | nil => exact ⟨[], .nil⟩
    | cons c cs =>
      by_cases hb : blanks.contains c = true
      · obtain ⟨ts, h⟩ := ih cs.length (by simp [← hn]) cs rfl
        exact ⟨ts, .blank hb h⟩
      · by_cases hd : (numeralSpan (c :: cs)).any digits.contains = true
        · obtain ⟨rest, hr⟩ := exists_numeralSpan_append (c :: cs)
          have hlen := congrArg List.length hr
          have hpos : 0 < (numeralSpan (c :: cs)).length := by
            rw [List.length_pos_iff]
            rintro hnil
            simp [hnil] at hd
          rw [List.length_append, hn] at hlen
          obtain ⟨ts, h⟩ := ih rest.length (by omega) rest rfl
          have := Scans.numeral hd (by rw [hr]) h
          rw [hr] at this
          exact ⟨_, this⟩
        · obtain ⟨ts, h⟩ := ih cs.length (by simp [← hn]) cs rfl
          exact ⟨_, .char (by simpa using hb) (by simpa using hd) h⟩

/-- The tokens of a text are those that its characters are split into. -/
theorem scans_iff {text : String} : Scans text.toList ts ↔ Lexer.tokens text = ts := by
  have tokens {ts : List Token} (h : Scans text.toList ts) : Lexer.tokens text = ts :=
    h.toList rfl
  refine ⟨tokens, ?_⟩
  rintro rfl
  obtain ⟨ts, h⟩ := exists_scans text.toList
  exact tokens h ▸ h

theorem scans_tokens (text : String) : Scans text.toList (Lexer.tokens text) :=
  scans_iff.mpr rfl

/-! ## Texts that follow one another -/

theorem Scans.blanks_append {ws : List Char} (hw : ∀ c ∈ ws, blanks.contains c = true)
    (h : Scans cs ts) : Scans (ws ++ cs) ts := by
  induction ws with
  | nil => exact h
  | cons c ws ih =>
    exact .blank (hw c List.mem_cons_self) (ih fun b hb => hw b (List.mem_cons_of_mem c hb))

/-- A text is split as it is alone if what follows leaves the spans in it as they are. -/
theorem Scans.append_of_spans {ds : List Char} {us : List Token} (h : Scans cs ts)
    (h' : Scans ds us)
    (hspan : ∀ rest, rest <:+ cs → rest ≠ [] → numeralSpan (rest ++ ds) = numeralSpan rest) :
    Scans (cs ++ ds) (ts ++ us) := by
  induction h with
  | nil => exact h'
  | @blank c cs ts hb _ ih =>
    exact .blank hb (ih fun rest hr => hspan rest (hr.trans (List.suffix_cons c cs)))
  | @numeral m rest ts ha hm _ ih =>
    have hne : m ++ rest ≠ [] := by
      intro hnil
      obtain ⟨rfl, -⟩ := List.append_eq_nil_iff.mp hnil
      cases ha
    rw [List.append_assoc]
    refine .numeral ha ?_ (ih fun more hr => hspan more (hr.trans (List.suffix_append m rest)))
    rw [← List.append_assoc, hspan _ List.suffix_rfl hne, hm]
  | @char c cs ts hb hd _ ih =>
    rw [← hspan _ List.suffix_rfl (List.cons_ne_nil c cs)] at hd
    exact .char hb hd (ih fun rest hr => hspan rest (hr.trans (List.suffix_cons c cs)))

/-- So it is if what follows does not continue a numeral at its end. -/
theorem Scans.append {ds : List Char} {us : List Token} (h : Scans cs ts) (h' : Scans ds us)
    (hends : EndsNumeral ds) : Scans (cs ++ ds) (ts ++ us) :=
  h.append_of_spans h' fun rest _ _ => numeralSpan_append rest hends

/-- And if it does not end in what could be continued. -/
theorem Scans.append_of_past {ds : List Char} {us : List Token} (h : Scans cs ts)
    (h' : Scans ds us) (hpast : PastNumeral cs) : Scans (cs ++ ds) (ts ++ us) :=
  h.append_of_spans h' fun _ hr hne => (hpast.of_suffix hr).numeralSpan_append hne ds

/-! ## Where numbers come from -/

theorem Token.ofNumeral_eq_number_iff {s : String} {x : Float} :
    ofNumeral s = number x ↔ numeralValue? s.toList = some x ∧ x.isFinite = true := by
  unfold ofNumeral
  split
  · next y hy =>
    rw [hy, Option.some.injEq]
    by_cases hf : y.isFinite = true
    · rw [if_pos hf, number.injEq]
      exact ⟨fun h => ⟨h, h ▸ hf⟩, And.left⟩
    · rw [if_neg hf]
      refine ⟨nofun, ?_⟩
      rintro ⟨rfl, h⟩
      exact absurd h hf
  · next hy => simp [hy]

theorem Token.ofChar_ne_number {c : Char} {x : Float} : ofChar c ≠ number x := by
  unfold ofChar
  repeat' split
  all_goals simp

/-- A number of a text is the finite value of a numeral in it. -/
theorem Scans.exists_numeral (h : Scans cs ts) {x : Float} (hx : .number x ∈ ts) :
    ∃ m, numeralValue? m = some x ∧ x.isFinite = true := by
  induction h with
  | nil => cases hx
  | blank _ _ ih => exact ih hx
  | @numeral m rest ts _ _ _ ih =>
    rcases List.mem_cons.mp hx with hx | hx
    · have := Token.ofNumeral_eq_number_iff.mp hx.symm
      rw [String.toList_ofList] at this
      exact ⟨m, this⟩
    · exact ih hx
  | char _ _ _ ih =>
    rcases List.mem_cons.mp hx with hx | hx
    · exact absurd hx.symm Token.ofChar_ne_number
    · exact ih hx

end Reckoner
