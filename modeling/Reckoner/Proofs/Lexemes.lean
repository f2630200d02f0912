import Reckoner.Proofs.Operands
import Reckoner.Proofs.RoundTrip

/-!
# Lexemes are read back

The tokens that a conversion answers are numbers that a numeral can write, and operators. So each
of them is the one token of its text, and evaluating the texts is evaluating the tokens.

* `Spells.ofLexeme`: a text that spells a token is a lexeme of it.
* `Postfix.ofLexemes_lexemes`: a sequence of plain numbers and operators is read back from its
  lexemes.
* `Postfix.result_evaluate_ne_badToken`: none of its tokens is a bad one.
* `calculate_eq_evaluate_lexemes`: to calculate a text is to evaluate its postfix lexemes.
-/

namespace Reckoner

variable {t : Token} {ts : List Token} {p : Postfix} {text : String}

/-! ## Single lexemes -/

/-- A text that spells a token is a lexeme of it. -/
theorem Spells.ofLexeme (h : Spells t text.toList) : Token.ofLexeme text = .ok t := by
  have htokens : Lexer.tokens text = [t] := (Writes.single h).tokens (.singleton t)
  rw [Token.ofLexeme, htokens]
  generalize text.toList = cs at h
  cases h with
  | number => rfl
  | symbol hs =>
    cases t with
    | unknown s => cases hs
    | _ => rfl

namespace Postfix

/-- The text of a plain number or an operator is a lexeme of it. -/
theorem tokenOfLexeme_text (ht : t.isTerm = true) (hp : ∀ x, t = .number x → Number.Plain x) :
    tokenOfLexeme t.text = .ok t := by
  cases t with
  | number x =>
    have hs : Spells (.number x) (Token.number x).text.toList := (hp x rfl).spells
    rw [tokenOfLexeme, hs.ofLexeme]
  | op o =>
    have hs : Spells (.op o) (Token.op o).text.toList := Token.spells_text rfl
    rw [tokenOfLexeme, hs.ofLexeme]
  | _ => cases ht

/-- A sequence of plain numbers and operators is read back from its lexemes. -/
theorem ofLexemes_lexemes (ht : ∀ t ∈ p.tokens, t.isTerm = true) (hp : p.Plain) :
    ofLexemes p.lexemes = .ok p := by
  have htokens : (p.tokens.map Token.text).mapM tokenOfLexeme = .ok p.tokens := by
    have hread : ∀ t ∈ p.tokens, tokenOfLexeme t.text = .ok t := fun t hm =>
      tokenOfLexeme_text (ht t hm) fun x hx => hp x (hx ▸ hm)
    generalize p.tokens = ts at hread
    induction ts with
    | nil => rfl
    | cons t ts ih =>
      have hrest := ih fun u hu => hread u (List.mem_cons_of_mem t hu)
      rw [List.map_cons, List.mapM_cons, hread t List.mem_cons_self, hrest]
      rfl
  rw [ofLexemes, lexemes, htokens]
  rfl

/-! ## Bad tokens -/

/-- A number or an operator is never reported as a bad token. -/
theorem result_evaluate_ne_badToken (ht : ∀ t ∈ p.tokens, t.isTerm = true) (s : String) :
    p.evaluate.result ≠ .error (.malformed (.badToken s)) := by
  obtain ⟨ts⟩ := p
  obtain ⟨v, hr, -⟩ | ⟨k, hr, -⟩ | hr | ⟨o, -, hr⟩ := result_of_isTerm ht
  all_goals
    rw [hr]
    nofun

end Postfix

/-! ## Calculation by way of lexemes -/

/-- The lexemes of a converted text are evaluated as its tokens are. -/
theorem evaluate_lexemes (h : (Postfix.ofText text).result = .ok p) :
    evaluate p.lexemes = p.evaluate.result := by
  have hread : Postfix.ofLexemes p.lexemes = .ok p :=
    Postfix.ofLexemes_lexemes (fun _ => Postfix.isTerm_of_convert (Postfix.result_ofText text ▸ h))
      (plain_of_result_ofText h)
  rw [evaluate, Postfix.evaluateLexemes, hread]

/-- **Lexemes.** A text that is not converted is not calculated, for the same fault. A text that is
converted is calculated as its lexemes are evaluated, and none of them is a bad token. -/
theorem calculate_eq_evaluate_lexemes (text : String) :
    (∀ fault, toPostfix text = .error fault → calculate text = .error (.conversion fault)) ∧
      ∀ lexemes, toPostfix text = .ok lexemes →
        calculate text = (evaluate lexemes).mapError .evaluation ∧
          ∀ s, evaluate lexemes ≠ .error (.malformed (.badToken s)) := by
  rw [toPostfix]
  cases hc : (Postfix.ofText text).result with
  | error fault =>
    refine ⟨?_, nofun⟩
    rintro fault ⟨⟩
    exact calculate_of_fault hc
  | ok p =>
    refine ⟨nofun, ?_⟩
    rintro lexemes ⟨⟩
    have hterm : ∀ t ∈ p.tokens, t.isTerm = true := fun _ =>
      Postfix.isTerm_of_convert (Postfix.result_ofText text ▸ hc)
    rw [evaluate_lexemes hc]
    exact ⟨calculate_of_result_ofText hc, Postfix.result_evaluate_ne_badToken hterm⟩

theorem lexemes_summed : summed.lexemes = ["1", "2", "+"] := by decide

theorem toPostfix_misplaced : toPostfix "1(+2)" = .ok ["1", "2", "+"] := by
  rw [toPostfix, result_ofText_misplaced, ← lexemes_summed]
  rfl

theorem result_evaluate_summed : summed.evaluate.result = .ok 3 := by
  have htree : summed = ⟨(Expr.operation .add (.number 1) (.number 2)).postorder⟩ := rfl
  have hsum : (1 + 2 : Float) = 3 := by decide +kernel
  rw [htree, Postfix.result_evaluate_postorder]
  exact congrArg Except.ok hsum

theorem evaluate_summed : evaluate ["1", "2", "+"] = .ok 3 := by
  rw [← lexemes_summed, evaluate_lexemes result_ofText_misplaced, result_evaluate_summed]

theorem toPostfix_unclosed : toPostfix " ( " = .error (.unbalanced .closing) := by
  have hw : Writes [.openParen] " ( ".toList :=
    .blank rfl (.symbol rfl (.blank rfl (.nil (List.forall_mem_nil _))))
  rw [toPostfix, Postfix.result_ofText, hw.tokens (.singleton _)]
  simp [Postfix.result_convert, Postfix.fst_convertFrom_cons, Postfix.shunt, Postfix.unwind,
    Postfix.flush, Except.map]

/-- A text that is no sentence but has a value, and one that is not converted. -/
theorem calculate_eq_evaluate_misplaced :
    toPostfix "1(+2)" = .ok ["1", "2", "+"] ∧ calculate "1(+2)" = .ok 3 ∧
      toPostfix " ( " = .error (.unbalanced .closing) ∧
      calculate " ( " = .error (.conversion (.unbalanced .closing)) := by
  have hcalc := ((calculate_eq_evaluate_lexemes _).2 _ toPostfix_misplaced).1
  rw [evaluate_summed] at hcalc
  exact ⟨toPostfix_misplaced, hcalc, toPostfix_unclosed,
    (calculate_eq_evaluate_lexemes _).1 _ toPostfix_unclosed⟩

end Reckoner
