import Reckoner.Proofs.Grammar
import Reckoner.Proofs.Scanning

/-!
# Texts that spell tokens

`Writes ts cs`: the characters spell the tokens in order, a number in any of its forms, with any
blanks before, between and after them.

* `Writes.append`: texts follow one another as the tokens do.
* `Writes.tokens`: a text that spells tokens is split into them, if no two numbers touch.
-/

namespace Reckoner

/-- The character that writes an operator or a parenthesis. -/
def Token.symbol? : Token → Option Char
  | op o => some o.symbol
  | openParen => some '('
  | closeParen => some ')'
  | _ => none

/-- A spelling of a token. A number is the value of each of its spellings, and is finite. -/
inductive Spells : Token → List Char → Prop
  | number {x : Float} {cs : List Char} :
      Literal cs → numeralValue? cs = some x → x.isFinite = true → Spells (.number x) cs
  | symbol {t : Token} {c : Char} : t.symbol? = some c → Spells t [c]

/-- The characters are spellings of the tokens and blanks. -/
inductive Writes : List Token → List Char → Prop
  | nil {ws : List Char} : (∀ c ∈ ws, blanks.contains c = true) → Writes [] ws
  | cons {t : Token} {ts : List Token} {ws cs rest : List Char} :
      (∀ c ∈ ws, blanks.contains c = true) → Spells t cs → Writes ts rest →
      Writes (t :: ts) (ws ++ (cs ++ rest))

variable {t : Token} {ts us : List Token} {c : Char} {ws cs ds : List Char}

/-- A finite value is spelled by each numeral that has it. -/
theorem Spells.numeral {x : Float} (hv : numeralValue? cs = some x) (hf : x.isFinite = true) :
    Spells (.number x) cs := by
  have hn : isNumeral cs = true := by
    by_contra hn
    simp [numeralValue?, hn] at hv
  exact .number (literal_iff.mpr hn) hv hf

/-! ## Symbols -/

theorem Token.ofChar_symbol? (h : t.symbol? = some c) : ofChar c = t := by
  cases t with
  | op o => cases h; cases o <;> rfl
  | openParen => cases h; rfl
  | closeParen => cases h; rfl
  | number x => cases h
  | unknown s => cases h

/-- A symbol is no blank and ends a numeral. -/
theorem Token.symbol?_ends (h : t.symbol? = some c) (cs : List Char) :
    blanks.contains c = false ∧ EndsNumeral (c :: cs) := by
  have hc : c ∈ ['+', '-', '*', '/', '(', ')'] := by
    cases t with
    | op o => cases h; cases o <;> decide
    | openParen => cases h; decide
    | closeParen => cases h; decide
    | number x => cases h
    | unknown s => cases h
  have hends : ['+', '-', '*', '/', '(', ')'].all
      (fun b => !blanks.contains b && (!digits.contains b && b != '.')) = true := rfl
  have hc := List.all_eq_true.mp hends c hc
  rw [Bool.and_eq_true, Bool.and_eq_true, Bool.not_eq_true', Bool.not_eq_true', bne_iff_ne] at hc
  refine ⟨hc.1, ?_⟩
  rintro b ⟨⟩
  exact hc.2

/-- An operator or a parenthesis is written as its symbol. -/
theorem Token.spells_text (h : t.symbol? = some c) : Spells t t.text.toList := by
  have htext : t.text.toList = [c] := by
    cases t with
    | op o => cases h; simp [text, Operator.text]
    | openParen => cases h; rfl
    | closeParen => cases h; rfl
    | number x => cases h
    | unknown s => cases h
  rw [htext]
  exact .symbol h

/-- A spelling is split off as its token, that of a number where nothing continues it. -/
theorem Spells.scans (h : Spells t cs) (hends : t.isNumber = true → EndsNumeral ds)
    (hd : Scans ds ts) : Scans (cs ++ ds) (t :: ts) := by
  cases h with
  | @number x _ hl hv hf =>
    have hx : Token.ofNumeral (String.ofList cs) = .number x :=
      Token.ofNumeral_eq_number_iff.mpr (by rw [String.toList_ofList]; exact ⟨hv, hf⟩)
    rw [← hx]
    exact .numeral hl.exists_digit (hl.numeralSpan_append (hends rfl)) hd
  | symbol hs =>
    obtain ⟨hb, hends⟩ := Token.symbol?_ends hs ds
    rw [← Token.ofChar_symbol? hs, List.singleton_append]
    exact .char hb (by rw [numeralSpan_of_ends hends]; rfl) hd

namespace Writes

/-! ## Texts -/

theorem blanks_append (hw : ∀ c ∈ ws, blanks.contains c = true) (h : Writes ts cs) :
    Writes ts (ws ++ cs) := by
  have hboth {vs : List Char} (hv : ∀ c ∈ vs, blanks.contains c = true) :
      ∀ c ∈ ws ++ vs, blanks.contains c = true := fun c hc =>
    (List.mem_append.mp hc).elim (hw c) (hv c)
  cases h with
  | nil hv => exact .nil (hboth hv)
  | cons hv ht h =>
    rw [← List.append_assoc]
    exact .cons (hboth hv) ht h

theorem append (h : Writes ts cs) (h' : Writes us ds) : Writes (ts ++ us) (cs ++ ds) := by
  induction h with
  | nil hw => exact h'.blanks_append hw
  | cons hw ht _ ih =>
    rw [List.append_assoc, List.append_assoc]
    exact .cons hw ht ih

theorem single (h : Spells t cs) : Writes [t] cs := by
  have := Writes.cons (List.forall_mem_nil _) h (.nil (List.forall_mem_nil _))
  rwa [List.append_nil, List.nil_append] at this

theorem blank (hc : blanks.contains c = true) (h : Writes ts cs) : Writes ts (c :: cs) := by
  have hw : ∀ b ∈ [c], blanks.contains b = true := by simpa using hc
  exact h.blanks_append hw

/-- A numeral spells its value. -/
theorem number {x : Float} (cs : List Char) (hv : numeralValue? cs = some x) (hf : x.isFinite = true)
    (h : Writes ts ds) : Writes (.number x :: ts) (cs ++ ds) :=
  (single (.numeral hv hf)).append h

theorem symbol (ht : t.symbol? = some c) (h : Writes ts cs) : Writes (t :: ts) (c :: cs) :=
  (single (.symbol ht)).append h

/-- What does not begin with a number ends a numeral before it. -/
theorem endsNumeral (h : Writes ts cs) (hn : ∀ t ∈ ts.head?, t.isNumber = false) :
    EndsNumeral cs := by
  have blank {ws cs : List Char} (hw : ∀ c ∈ ws, blanks.contains c = true)
      (h : EndsNumeral cs) : EndsNumeral (ws ++ cs) := by
    cases ws with
    | nil => exact h
    | cons b ws => exact .of_blank (hw b List.mem_cons_self)
  cases h with
  | nil hw =>
    have := blank hw .nil
    rwa [List.append_nil] at this
  | cons hw ht _ =>
    refine blank hw ?_
    cases ht with
    | number => cases hn _ rfl
    | symbol hs => exact (Token.symbol?_ends hs _).2

/-- A text is split into the tokens that it spells. -/
theorem scans (h : Writes ts cs) (ha : ts.IsChain Token.Apart) : Scans cs ts := by
  induction h with
  | nil hw =>
    have := Scans.nil.blanks_append hw
    rwa [List.append_nil] at this
  | cons hw ht h ih =>
    obtain ⟨hnext, hts⟩ := List.isChain_cons.mp ha
    refine (ht.scans (fun hn => ?_) (ih hts)).blanks_append hw
    refine h.endsNumeral fun u hu => ?_
    have := hnext u hu
    simpa [Token.Apart, hn] using this

theorem tokens {text : String} (h : Writes ts text.toList) (ha : ts.IsChain Token.Apart) :
    Lexer.tokens text = ts :=
  scans_iff.mp (h.scans ha)

end Writes

end Reckoner
