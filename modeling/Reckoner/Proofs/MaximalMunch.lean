import Mathlib.Data.List.Forall2
import Reckoner.Proofs.Spelling

/-!
# Maximal munch

A text is cut into blanks and lexemes that alternate. The blanks reach as far as they can, and a
lexeme is the longest spelling of a number that starts there or, where none does, one character.

* `Munches`: the text is cut into these lexemes. `Munches.unique`: in one way only.
* `Denotes`: what a lexeme stands for.
* `Scans.munches`: the tokens that the characters are split into are those of the lexemes.
* `Lexer.fst_next_after`: the calls of a lexer answer its tokens in order, and then nothing.
* `lexer_maximal_munch`: every text is cut, and the lexer answers what its lexemes denote.
-/

namespace Reckoner

/-- The longest spelling of a number that starts a text. -/
def LongestLiteral (cs m : List Char) : Prop :=
  Literal m ∧ m <+: cs ∧ ∀ m', Literal m' → m' <+: cs → m'.length ≤ m.length

/-- The lexeme that starts a text: the longest spelling of a number, or else one character. -/
inductive FirstLexeme : List Char → List Char → Prop
  | numeral {cs m : List Char} : LongestLiteral cs m → FirstLexeme cs m
  | char {c : Char} {cs : List Char} :
      (∀ m, Literal m → ¬ m <+: c :: cs) → FirstLexeme (c :: cs) [c]

/-- The longest run of blanks that starts a text is `ws`, and `rest` comes after it. -/
def BlankRun (ws rest : List Char) : Prop :=
  (∀ c ∈ ws, blanks.contains c = true) ∧ ∀ c ∈ rest.head?, blanks.contains c = false

/-- A text is cut into blanks and lexemes in turn, with blanks before the first lexeme and after
the last. Each run of blanks may be empty. -/
inductive Munches : List Char → List (List Char) → Prop
  | nil {ws : List Char} : BlankRun ws [] → Munches ws []
  | cons {ws m rest : List Char} {ms : List (List Char)} :
      BlankRun ws (m ++ rest) → FirstLexeme (m ++ rest) m → Munches rest ms →
      Munches (ws ++ (m ++ rest)) (m :: ms)

/-- The token that a lexeme stands for. A numeral beyond the largest double is unknown as a whole,
and so is a character that neither spells a digit nor is a symbol. -/
inductive Denotes : List Char → Token → Prop
  | spelled {t : Token} {m : List Char} : Spells t m → Denotes m t
  | overflow {m : List Char} {x : Float} :
      Literal m → numeralValue? m = some x → x.isFinite = false →
      Denotes m (.unknown (String.ofList m))
  | other {c : Char} : ¬ Literal [c] → (∀ t : Token, t.symbol? ≠ some c) →
      Denotes [c] (.unknown (String.singleton c))

/-! ## Lexemes -/

section Lexemes

variable {cs m rest ws : List Char} {ms ms' : List (List Char)} {c : Char} {t : Token}

/-- A span that holds a digit is the longest spelling. -/
theorem longestLiteral_of_span (ha : m.any digits.contains = true)
    (hm : numeralSpan (m ++ rest) = m) : LongestLiteral (m ++ rest) m := by
  refine ⟨literal_of_span ha hm, List.prefix_append m rest, fun m' hl' hp => ?_⟩
  have := hl'.prefix_numeralSpan hp
  rw [hm] at this
  exact this.length_le

/-- Where the span holds no digit, no spelling starts. -/
theorem not_prefix_of_span (hd : (numeralSpan cs).any digits.contains = false) (hl : Literal m) :
    ¬ m <+: cs := by
  intro hp
  obtain ⟨more, hm⟩ := hl.prefix_numeralSpan hp
  rw [← hm, List.any_append, hl.exists_digit] at hd
  cases hd

theorem FirstLexeme.unique {m' : List Char} (h : FirstLexeme cs m) (h' : FirstLexeme cs m') :
    m = m' := by
  cases h with
  | numeral h =>
    obtain ⟨hl, hp, hmax⟩ := h
    cases h' with
    | numeral h' =>
      obtain ⟨hl', hp', hmax'⟩ := h'
      have hlen := Nat.le_antisymm (hmax' m hl hp) (hmax m' hl' hp')
      exact (List.prefix_of_prefix_length_le hp hp' (Nat.le_of_eq hlen)).eq_of_length hlen
    | char hnone => exact absurd hp (hnone m hl)
  | char hnone =>
    cases h' with
    | numeral h' => exact absurd h'.2.1 (hnone m' h'.1)
    | char => rfl

theorem FirstLexeme.ne_nil (h : FirstLexeme cs m) : m ≠ [] := by
  rintro rfl
  cases h with
  | numeral h => exact absurd h.1.exists_digit (by decide)

theorem BlankRun.cons (hc : blanks.contains c = true) (h : BlankRun ws rest) :
    BlankRun (c :: ws) rest := by
  refine ⟨fun b hb => ?_, h.2⟩
  rcases List.mem_cons.mp hb with rfl | hb
  · exact hc
  · exact h.1 b hb

/-- What comes after the blanks is told by the text. -/
theorem BlankRun.unique {ws' rest' : List Char} (h : BlankRun ws rest) (h' : BlankRun ws' rest')
    (heq : ws ++ rest = ws' ++ rest') : rest = rest' := by
  rw [← (run_append h.1 h.2).2, heq, (run_append h'.1 h'.2).2]

theorem Munches.blank (hc : blanks.contains c = true) (h : Munches cs ms) :
    Munches (c :: cs) ms := by
  cases h with
  | nil hw => exact .nil (hw.cons hc)
  | cons hw hm h => exact .cons (hw.cons hc) hm h

/-- Blanks alone are cut into no lexemes. -/
theorem Munches.eq_nil (h : Munches ws ms) (hw : BlankRun ws []) : ms = [] := by
  generalize hcs : ws = cs at h
  cases h with
  | nil => rfl
  | cons hw' hm =>
    have hrest := hw.unique hw' (by rw [List.append_nil, hcs])
    exact absurd (List.append_eq_nil_iff.mp hrest.symm).1 hm.ne_nil

/-- A text is cut in one way only. -/
theorem Munches.unique (h : Munches cs ms) (h' : Munches cs ms') : ms = ms' := by
  induction h generalizing ms' with
  | nil hw => exact (h'.eq_nil hw).symm
  | @cons ws m rest ms hw hm h ih =>
    generalize hcs : ws ++ (m ++ rest) = cs at h'
    cases h' with
    | nil hw' =>
      have hrest := hw'.unique hw (by rw [List.append_nil, hcs])
      exact absurd (List.append_eq_nil_iff.mp hrest.symm).1 hm.ne_nil
    | cons hw' hm' h' =>
      have hrest := hw.unique hw' hcs
      obtain rfl := hm.unique (hrest ▸ hm')
      obtain rfl := List.append_cancel_left hrest
      rw [ih h']

end Lexemes

/-! ## What lexemes denote -/

section Denotes

variable {cs m : List Char} {ts : List Token} {c : Char} {t : Token}

theorem Token.ofNumeral_of_not_finite {x : Float} (hv : numeralValue? m = some x)
    (hf : x.isFinite = false) : ofNumeral (String.ofList m) = unknown (String.ofList m) := by
  simp [ofNumeral, hv, hf]

theorem Token.ofChar_of_symbol?_ne (h : ∀ t : Token, t.symbol? ≠ some c) :
    ofChar c = unknown (String.singleton c) := by
  have hopen : c ≠ '(' := fun hc => h openParen (by rw [hc]; rfl)
  have hclose : c ≠ ')' := fun hc => h closeParen (by rw [hc]; rfl)
  have hop : Operator.ofSymbol? c = none := by
    cases ho : Operator.ofSymbol? c with
    | none => rfl
    | some o => exact absurd (by rw [Operator.ofSymbol?_eq_some_iff.mp ho]; rfl) (h (op o))
  simp [ofChar, hopen, hclose, hop]

/-- No symbol spells a number. -/
theorem Token.not_literal_of_symbol? (h : t.symbol? = some c) : ¬ Literal [c] := by
  intro hl
  have hends := (Token.symbol?_ends h []).2 c rfl
  have hdigit := hl.exists_digit
  rw [List.any_cons, hends.1] at hdigit
  cases hdigit

/-- A spelling of a number denotes the token that it is read as. -/
theorem denotes_numeral_iff (h : Literal m) : Denotes m t ↔ t = .ofNumeral (String.ofList m) := by
  constructor
  · rintro (hs | ⟨-, hv, hf⟩ | ⟨hn, -⟩)
    · cases hs with
      | number _ hv hf =>
        exact (Token.ofNumeral_eq_number_iff.mpr ⟨by rwa [String.toList_ofList], hf⟩).symm
      | symbol hs => exact absurd h (Token.not_literal_of_symbol? hs)
    · exact (Token.ofNumeral_of_not_finite hv hf).symm
    · exact absurd h hn
  · rintro rfl
    obtain ⟨x, hv⟩ : ∃ x, numeralValue? m = some x := by
      simp [numeralValue?, literal_iff.mp h]
    cases hf : x.isFinite with
    | true =>
      rw [Token.ofNumeral_eq_number_iff.mpr ⟨by rwa [String.toList_ofList], hf⟩]
      exact .spelled (.number h hv hf)
    | false =>
      rw [Token.ofNumeral_of_not_finite hv hf]
      exact .overflow h hv hf

/-- Any other character denotes the token that it is read as. -/
theorem denotes_char_iff (h : ¬ Literal [c]) : Denotes [c] t ↔ t = .ofChar c := by
  constructor
  · intro hd
    generalize hm : [c] = m at hd
    cases hd with
    | spelled hs =>
      cases hs with
      | number hl => exact absurd (hm ▸ hl) h
      | symbol hs =>
        cases hm
        exact (Token.ofChar_symbol? hs).symm
    | overflow hl => exact absurd (hm ▸ hl) h
    | other _ hs =>
      cases hm
      exact (Token.ofChar_of_symbol?_ne hs).symm
  · rintro rfl
    by_cases hs : ∃ t : Token, t.symbol? = some c
    · obtain ⟨t, hs⟩ := hs
      rw [Token.ofChar_symbol? hs]
      exact .spelled (.symbol hs)
    · have hs : ∀ t : Token, t.symbol? ≠ some c := fun t ht => hs ⟨t, ht⟩
      rw [Token.ofChar_of_symbol?_ne hs]
      exact .other h hs

/-- A span that holds a digit is a lexeme, and denotes the token that it is read as. -/
theorem firstLexeme_numeral {rest : List Char} (ha : m.any digits.contains = true)
    (hm : numeralSpan (m ++ rest) = m) :
    FirstLexeme (m ++ rest) m ∧ ∀ u, Denotes m u ↔ u = .ofNumeral (String.ofList m) := by
  have hlong := longestLiteral_of_span ha hm
  exact ⟨.numeral hlong, fun u => denotes_numeral_iff hlong.1⟩

/-- Where the span holds no digit, a character is a lexeme, and denotes the token that it is read as. -/
theorem firstLexeme_char (hd : (numeralSpan (c :: cs)).any digits.contains = false) :
    FirstLexeme (c :: cs) [c] ∧ ∀ u, Denotes [c] u ↔ u = .ofChar c := by
  have hnone : ∀ m, Literal m → ¬ m <+: c :: cs := fun m => not_prefix_of_span hd
  have hchar : ¬ Literal [c] := fun hl => hnone [c] hl (List.prefix_append [c] cs)
  exact ⟨.char hnone, fun u => denotes_char_iff hchar⟩

/-- The characters of a text are split into the tokens of its lexemes. -/
theorem Scans.munches (h : Scans cs ts) :
    ∃ ms, Munches cs ms ∧ List.Forall₂ (fun m t => ∀ u, Denotes m u ↔ u = t) ms ts := by
  induction h with
  | nil => exact ⟨[], .nil ⟨List.forall_mem_nil _, nofun⟩, .nil⟩
  | blank hc _ ih =>
    obtain ⟨ms, hms, hts⟩ := ih
    exact ⟨ms, hms.blank hc, hts⟩
  | @numeral m rest ts ha hm _ ih =>
    obtain ⟨ms, hms, hts⟩ := ih
    obtain ⟨hlexeme, hdenotes⟩ := firstLexeme_numeral ha hm
    refine ⟨m :: ms, ?_, .cons hdenotes hts⟩
    have hfirst : BlankRun [] (m ++ rest) :=
      ⟨List.forall_mem_nil _, blanks_not_contains_head ha hm⟩
    exact .cons hfirst hlexeme hms
  | @char c cs ts hb hd _ ih =>
    obtain ⟨ms, hms, hts⟩ := ih
    obtain ⟨hlexeme, hdenotes⟩ := firstLexeme_char hd
    refine ⟨[c] :: ms, ?_, .cons hdenotes hts⟩
    have hfirst : BlankRun [] ([c] ++ cs) := ⟨List.forall_mem_nil _, by rintro b ⟨⟩; exact hb⟩
    exact .cons hfirst hlexeme hms

end Denotes

/-! ## The calls of a lexer -/

namespace Lexer

/-- The lexer after `n` calls. -/
def after : Nat → Lexer → Lexer
  | 0, l => l
  | n + 1, l => after n l.next.2

theorem fst_next_after_of_none {l : Lexer} (h : l.next.1 = none) (n : Nat) :
    (after n l).next.1 = none := by
  induction n generalizing l with
  | zero => exact h
  | succ n ih => exact ih (fst_next_next_of_none h)

/-- The calls of a lexer answer its tokens in order, and then nothing. -/
theorem fst_next_after (l : Lexer) (n : Nat) : (after n l).next.1 = (TokenSource.toList l)[n]? := by
  induction n generalizing l with
  | zero =>
    rcases h : l.next with ⟨_ | t, l'⟩
    · rw [TokenSource.toList_of_none h, after, h]
      rfl
    · rw [TokenSource.toList_of_some h, after, h]
      rfl
  | succ n ih =>
    rcases h : l.next with ⟨_ | t, l'⟩
    · rw [fst_next_after_of_none (by rw [h]), TokenSource.toList_of_none h, List.getElem?_nil]
    · have hlist : TokenSource.toList l = t :: TokenSource.toList l' :=
        TokenSource.toList_of_some h
      rw [hlist, List.getElem?_cons_succ, ← ih, after, h]

end Lexer

/-- **Maximal munch.** Every text is cut into blanks and lexemes, and in one way only. Each lexeme
denotes one token. The calls of a lexer answer these tokens in order, and after the last of them
nothing, however many calls follow. -/
theorem lexer_maximal_munch (text : String) :
    ∃ ms, (∀ ms', Munches text.toList ms' ↔ ms' = ms) ∧
      List.Forall₂ (fun m t => ∀ u, Denotes m u ↔ u = t) ms (Lexer.tokens text) ∧
      ∀ n, (Lexer.after n (.ofString text)).next.1 = (Lexer.tokens text)[n]? := by
  obtain ⟨ms, hms, hts⟩ := (scans_tokens text).munches
  refine ⟨ms, fun ms' => ⟨fun h => h.unique hms, ?_⟩, hts, Lexer.fst_next_after _⟩
  rintro rfl
  exact hms

/-- The first point ends a number, and the second begins one. -/
example : (List.range 3).map (fun n => (Lexer.after n (.ofString "1..2")).next.1) =
    [some (.number 1), some (.number 0.2), none] := by decide +kernel

end Reckoner
