import Reckoner.Proofs.Folding
import Reckoner.Proofs.Lexemes
import Reckoner.Proofs.Nesting

/-!
# A value in place of a text

A text in parentheses that has a value counts for the value, whatever stands around it. The lexer
splits it apart from the rest, the conversion emits its sequence in one piece, and the evaluation
puts the value of the sequence on the operands that wait, as the number does. None of this asks for
a sentence, in the parentheses or around them.

* `tokens_parenthesized`, `tokens_spaced`: the tokens of a text with a part in parentheses, and of
  one with a lexeme between blanks.
* `resultText_of_plain`: the text of a result is that of the number.
* `calculate_replace`: a part in parentheses may be replaced by the text of its value.
-/

namespace Reckoner

variable {s m : String} {t : Token} {v : Float}

/-- A text in parentheses is split as it is alone, and so is what stands around it. -/
theorem tokens_parenthesized (a s b : String) :
    Lexer.tokens (a ++ "(" ++ s ++ ")" ++ b) =
      Lexer.tokens a ++ (.openParen :: (Lexer.tokens s ++ [.closeParen]) ++ Lexer.tokens b) := by
  have hopen : Spells .openParen ['('] := .symbol rfl
  have hclose : Spells .closeParen [')'] := .symbol rfl
  have hb := hclose.scans nofun (scans_tokens b)
  have hs := (scans_tokens s).append hb
    (Token.symbol?_ends (t := .closeParen) rfl _).2
  have ha := (scans_tokens a).append (hopen.scans nofun hs)
    (Token.symbol?_ends (t := .openParen) rfl _).2
  apply scans_iff.mp
  simpa using ha

/-- A lexeme between blanks is split off, and what stands around it is split as it is alone. -/
theorem tokens_spaced (h : Spells t m.toList) (a b : String) :
    Lexer.tokens (a ++ " " ++ m ++ " " ++ b) =
      Lexer.tokens a ++ ([t] ++ Lexer.tokens b) := by
  have hb := Scans.blank (c := ' ') rfl (scans_tokens b)
  have hm := Scans.blank (c := ' ') rfl (h.scans (fun _ => .of_blank rfl) hb)
  have ha := (scans_tokens a).append hm (.of_blank rfl)
  apply scans_iff.mp
  simpa using ha

/-- Among plain numbers, zero is the one that is written as zero. -/
theorem resultText_of_plain (h : Number.Plain v) : resultText v = Number.text v := by
  unfold resultText
  split
  · next hz =>
    rw [Number.eq_zero_of_beq hz h.2]
    decide
  · rfl

/-- **Replacement.** A part in parentheses that has a plain value alone may be replaced by the text
of the value: the outcome is the same, a value or a fault, whatever stands around. -/
theorem calculate_replace (h : calculate s = .ok v) (hv : Number.Plain v) (a b : String) :
    calculate (a ++ "(" ++ s ++ ")" ++ b) = calculate (a ++ " " ++ resultText v ++ " " ++ b) := by
  obtain ⟨p, hp, heval⟩ := exists_result_ofText h
  have hpart := Postfix.SelfContained.paren (Postfix.result_ofText s ▸ hp)
  have hvalue := Postfix.SelfContained.number v
  have htokens := tokens_spaced hv.spells a b
  rw [← resultText_of_plain hv] at htokens
  have hleft := Postfix.result_ofText (a ++ "(" ++ s ++ ")" ++ b)
  have hright := Postfix.result_ofText (a ++ " " ++ resultText v ++ " " ++ b)
  rw [tokens_parenthesized] at hleft
  rw [htokens] at hright
  -- Either both conversions fail at what stands around, or they emit the same but for two sequences
  -- of one value.
  obtain ⟨fault, hfault⟩ | ⟨before, after, hconvert⟩ :=
    Postfix.convert_between (Lexer.tokens a) (Lexer.tokens b)
  · rw [hfault hpart] at hleft
    rw [hfault hvalue] at hright
    rw [calculate_of_fault hleft, calculate_of_fault hright]
  · rw [hconvert hpart] at hleft
    rw [hconvert hvalue] at hright
    rw [calculate_of_result_ofText hleft, calculate_of_result_ofText hright,
      Postfix.result_evaluate_fold heval]

theorem calculate_misplaced : calculate "1(+2)" = .ok 3 := by
  rw [calculate_of_result_ofText result_ofText_misplaced, result_evaluate_summed]
  rfl

theorem plain_three : Number.Plain 3 :=
  ⟨by decide, by decide⟩

theorem resultText_three : resultText 3 = "3" := by decide

/-- A value in a sentence, in a text that is none but has a value, and in one that is refused. -/
theorem calculate_replace_misplaced :
    calculate "1(+2)" = .ok 3 ∧ Number.Plain 3 ∧ calculate "4*(1(+2))" = calculate "4* 3 " ∧
      calculate "7(1(+2))+" = calculate "7 3 +" ∧ calculate "7(1(+2)))" = calculate "7 3 )" := by
  have hsame := calculate_replace calculate_misplaced plain_three
  rw [resultText_three] at hsame
  exact ⟨calculate_misplaced, plain_three, hsame "4*" "", hsame "7" "+", hsame "7" ")"⟩

end Reckoner
