import Reckoner.Calculation
import Reckoner.Proofs.PostfixOrder
import Reckoner.Proofs.Spelling
import Reckoner.Proofs.Trees

/-!
# Calculation of a rendering

A rendering of a tree is a text that spells a sentence of it. It may have more parentheses than the
tree needs, blanks anywhere between lexemes, and any spelling of each number.

* `Renders.result_ofText`: it is converted to the postorder of the tree.
* `calculate_of_result_ofText`, `calculate_of_fault`: what is converted is evaluated, and a fault of
  the conversion is one of the calculation.
* `calculate_rendering`: it is calculated as the tree is evaluated.
-/

namespace Reckoner

variable {text : String} {e : Expr}

/-- The text spells tokens from which the grammar derives the tree. -/
def Renders (text : String) (e : Expr) : Prop :=
  ∃ ts, Sentence .sum ts e ∧ Writes ts text.toList

theorem Renders.result_ofText (h : Renders text e) :
    (Postfix.ofText text).result = .ok ⟨e.postorder⟩ := by
  obtain ⟨ts, hs, hw⟩ := h
  rw [Postfix.result_ofText, hw.tokens hs.apart]
  exact hs.converts

theorem calculate_of_result_ofText {p : Postfix} (h : (Postfix.ofText text).result = .ok p) :
    calculate text = p.evaluate.result.mapError .evaluation := by
  simp only [calculate, calculation, h]

theorem calculate_of_fault {fault : ConversionFault}
    (h : (Postfix.ofText text).result = .error fault) :
    calculate text = .error (.conversion fault) := by
  simp only [calculate, calculation, h]

/-- A text with a value is converted to a sequence with that value. -/
theorem exists_result_ofText {v : Float} (h : calculate text = .ok v) :
    ∃ p, (Postfix.ofText text).result = .ok p ∧ p.evaluate.result = .ok v := by
  cases hp : (Postfix.ofText text).result with
  | error fault =>
    rw [calculate_of_fault hp] at h
    cases h
  | ok p =>
    rw [calculate_of_result_ofText hp] at h
    cases hv : p.evaluate.result with
    | error fault =>
      rw [hv] at h
      cases h
    | ok w =>
      rw [hv] at h
      cases h
      exact ⟨p, rfl, hv⟩

/-- **Calculation.** A rendering of a tree is calculated as the tree is evaluated: it has the value
of the tree if no division meets a zero divisor, and else the one fault is the division by zero. -/
theorem calculate_rendering (h : Renders text e) :
    calculate text = e.eval.mapError .evaluation ∧
      (¬ e.MeetsZeroDivisor → ∃ v, e.eval = .ok v ∧ calculate text = .ok v) ∧
      (e.MeetsZeroDivisor → calculate text = .error (.evaluation .divisionByZero)) := by
  have hcalc : calculate text = e.eval.mapError .evaluation := by
    rw [calculate_of_result_ofText h.result_ofText, Postfix.result_evaluate_postorder]
  refine ⟨hcalc, ?_, ?_⟩
  · intro hz
    obtain ⟨-, v, hv⟩ | ⟨hm, -⟩ := e.eval_spec
    · exact ⟨v, hv, by rw [hcalc, hv]; rfl⟩
    · exact absurd hm hz
  · intro hz
    obtain ⟨hn, -⟩ | ⟨-, he⟩ := e.eval_spec
    · exact absurd hz hn
    · rw [hcalc, he]
      rfl

/-- The tree of `(1.5 + 0.5) * 3`. -/
def mingled : Expr :=
  .operation .mul (.operation .add (.number 1.5) (.number 0.5)) (.number 3)

/-- The tree of `4 / 0`. -/
def divided : Expr :=
  .operation .div (.number 4) (.number 0)

theorem renders_mingled : Renders " ((01.50+\t.5)*3.)\n" mingled := by
  have sum := Sentence.paren (.operation (o := .add) rfl
    (.next (.next (.number 1.5))) (.next (.number 0.5)))
  have product := Sentence.paren (.next (.operation (o := .mul) rfl (.next sum) (.number 3)))
  refine ⟨[.openParen, .openParen, .number 1.5, .op .add, .number 0.5, .closeParen, .op .mul,
    .number 3, .closeParen], .next (.next product), ?_⟩
  refine .blank rfl (.symbol rfl (.symbol rfl ?_))
  refine .number ['0', '1', '.', '5', '0'] (by decide) (by decide) ?_
  refine .symbol rfl (.blank rfl ?_)
  refine .number ['.', '5'] (by decide) (by decide) ?_
  refine .symbol rfl (.symbol rfl ?_)
  refine .number ['3', '.'] (by decide) (by decide) ?_
  exact .symbol rfl (.blank rfl (.nil (List.forall_mem_nil _)))

theorem renders_divided : Renders "4/(.0)" divided := by
  have zero := Sentence.paren (.next (.next (.number 0)))
  refine ⟨[.number 4, .op .div, .openParen, .number 0, .closeParen],
    .next (.operation (o := .div) rfl (.next (.number 4)) zero), ?_⟩
  refine .number ['4'] (by decide) (by decide) ?_
  refine .symbol rfl (.symbol rfl ?_)
  refine .number ['.', '0'] (by decide) (by decide) ?_
  exact .symbol rfl (.nil (List.forall_mem_nil _))

/-- A rendering with a value, and one whose division has the divisor zero. -/
theorem calculate_mingled :
    Renders " ((01.50+\t.5)*3.)\n" mingled ∧ calculate " ((01.50+\t.5)*3.)\n" = .ok 6 ∧
      Renders "4/(.0)" divided ∧ divided.MeetsZeroDivisor ∧
      calculate "4/(.0)" = .error (.evaluation .divisionByZero) := by
  have heval : mingled.eval.mapError CalculationFault.evaluation = .ok 6 := by decide +kernel
  have hzero : divided.MeetsZeroDivisor := .here rfl (by decide)
  exact ⟨renders_mingled, (calculate_rendering renders_mingled).1.trans heval, renders_divided,
    hzero, (calculate_rendering renders_divided).2.2 hzero⟩

end Reckoner
