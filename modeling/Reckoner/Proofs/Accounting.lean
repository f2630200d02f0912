import Reckoner.Proofs.Conservation
import Reckoner.Proofs.Operands
import Reckoner.Proofs.Rendering

/-!
# Accounting for tokens

A conversion keeps the numbers and operators of a text. So the count of operands, taken on the
text, tells how its calculation can end.

* `calculate_accounts`: how a calculation ends is told by the numbers and operators of the text.
-/

namespace Reckoner

variable {text : String} {lexemes : List String}

/-- **Accounting.** Let a text be converted. Its calculation reports no bad token. It has a value
only if the text holds one number more than operators, and reports a number of operands only if
that is how many more. If the text holds operators, and numbers no more than these, then one of the
operators lacks an operand or there is a division by zero. -/
theorem calculate_accounts (h : toPostfix text = .ok lexemes) :
    (∀ s, calculate text ≠ .error (.evaluation (.malformed (.badToken s)))) ∧
      (∀ v, calculate text = .ok v →
        (Lexer.tokens text).countP Token.isNumber =
          (Lexer.tokens text).countP Token.isOperator + 1) ∧
      (∀ k, calculate text = .error (.evaluation (.malformed (.operands k))) →
        (Lexer.tokens text).countP Token.isNumber =
          (Lexer.tokens text).countP Token.isOperator + k ∧ k ≠ 1) ∧
      (0 < (Lexer.tokens text).countP Token.isOperator →
        (Lexer.tokens text).countP Token.isNumber ≤
          (Lexer.tokens text).countP Token.isOperator →
        (∃ o, .op o ∈ Lexer.tokens text ∧
          calculate text = .error (.evaluation (.malformed (.underflow o)))) ∨
        calculate text = .error (.evaluation .divisionByZero)) := by
  obtain ⟨p, hp, -⟩ := map_eq_ok_iff.mp h
  have hconv := Postfix.result_ofText text ▸ hp
  have hmem : ∀ o, .op o ∈ p.tokens → .op o ∈ Lexer.tokens text := fun o ho =>
    (List.mem_filter.mp ((Postfix.perm_of_convert hconv).mem_iff.mp ho)).1
  rw [calculate_of_result_ofText hp, ← Postfix.countP_isNumber_of_convert hconv,
    ← Postfix.countP_isOperator_of_convert hconv]
  obtain ⟨v, hr, hs⟩ | ⟨k, hr, hs, hk, hnil⟩ | hr | ⟨o, ho, hr⟩ :=
    Postfix.result_of_isTerm fun t => Postfix.isTerm_of_convert hconv (t := t)
  · rw [hr]
    rw [surplus] at hs
    refine ⟨?_, fun _ _ => by omega, ?_, fun _ _ => by omega⟩
    · rintro _ ⟨⟩
    · rintro _ ⟨⟩
  · rw [hr]
    rw [surplus] at hs
    refine ⟨?_, ?_, ?_, fun hm hle => ?_⟩
    · rintro _ ⟨⟩
    · rintro _ ⟨⟩
    · rintro _ ⟨⟩
      exact ⟨by omega, hk⟩
    · rw [hnil (by omega)] at hm
      exact absurd hm (Nat.lt_irrefl 0)
  · rw [hr]
    refine ⟨?_, ?_, ?_, fun _ _ => .inr rfl⟩ <;> rintro _ ⟨⟩
  · rw [hr]
    refine ⟨?_, ?_, ?_, fun _ _ => .inl ⟨o, hmem o ho, rfl⟩⟩ <;> rintro _ ⟨⟩

/-- The sequence `1 0 / /`. -/
def overdrawn : Postfix :=
  ⟨[.number 1, .number 0, .op .div, .op .div]⟩

/-- The sequence `7 8`. -/
def paired : Postfix :=
  ⟨[.number 7, .number 8]⟩

theorem tokens_overdrawn : Lexer.tokens "(1 0//)" =
    [.openParen, .number 1, .number 0, .op .div, .op .div, .closeParen] := by decide +kernel

theorem result_ofText_overdrawn : (Postfix.ofText "(1 0//)").result = .ok overdrawn := by
  rw [Postfix.result_ofText, tokens_overdrawn]
  simp [Postfix.result_convert, Postfix.fst_convertFrom_cons, Postfix.shunt, Postfix.release,
    Postfix.unwind, Postfix.flush, Operator.binding, Binding.appliesBefore, Except.map, overdrawn]

theorem tokens_paired : Lexer.tokens "7(8)" =
    [.number 7, .openParen, .number 8, .closeParen] := by decide +kernel

theorem result_ofText_paired : (Postfix.ofText "7(8)").result = .ok paired := by
  rw [Postfix.result_ofText, tokens_paired]
  simp [Postfix.result_convert, Postfix.fst_convertFrom_cons, Postfix.shunt, Postfix.unwind,
    Postfix.flush, Except.map, paired]

/-- As many operators as numbers, and no operator between two numbers. -/
theorem calculate_accounts_overdrawn :
    toPostfix "(1 0//)" = .ok overdrawn.lexemes ∧
      ((∃ o, .op o ∈ Lexer.tokens "(1 0//)" ∧
          calculate "(1 0//)" = .error (.evaluation (.malformed (.underflow o)))) ∨
        calculate "(1 0//)" = .error (.evaluation .divisionByZero)) ∧
      toPostfix "7(8)" = .ok paired.lexemes ∧
      calculate "7(8)" = .error (.evaluation (.malformed (.operands 2))) ∧
      (Lexer.tokens "7(8)").countP Token.isNumber =
        (Lexer.tokens "7(8)").countP Token.isOperator + 2 := by
  have hover : toPostfix "(1 0//)" = .ok overdrawn.lexemes := by
    rw [toPostfix, result_ofText_overdrawn]
    rfl
  have hpair : toPostfix "7(8)" = .ok paired.lexemes := by
    rw [toPostfix, result_ofText_paired]
    rfl
  have hcalc : calculate "7(8)" = .error (.evaluation (.malformed (.operands 2))) := by
    rw [calculate_of_result_ofText result_ofText_paired]
    rfl
  have hless := (calculate_accounts hover).2.2.2
  rw [tokens_overdrawn] at hless ⊢
  exact ⟨hover, hless (by decide) (by decide), hpair, hcalc,
    ((calculate_accounts hpair).2.2.1 2 hcalc).1⟩

end Reckoner
