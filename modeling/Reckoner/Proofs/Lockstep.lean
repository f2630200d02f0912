import Mathlib.Data.List.Forall2
import Reckoner.Expr.Layout
import Reckoner.Proofs.Trees

/-!
# Reading and evaluating in lockstep

A postfix sequence is read as a tree and evaluated to a number by the same steps, on a stack of
trees and on a stack of numbers. As long as no divisor is zero, the numbers are the values of the
trees, both stacks are equally high, and what is missing for one is missing for the other. A zero
divisor ends the evaluation where the reading goes on.

* `Lockstep`: what a reading and an evaluation of the same tokens can come to.
* `Lockstep.bind`: lockstep is kept from one step to the next.
* `lockstep_reduce`, `lockstep_settle`: a token and the end keep it.
* `lockstep_evaluate`: so a sequence does.
* `evaluate_infixText_malformed`: the two find the same sequences malformed, for the same
  reason.
* `Expr.exists_postorder_iff`, `Expr.exists_postorder_of_evaluate`: what has infix text, or a value,
  is the postorder of a tree.
* `evaluate_denoted_tree`: a sequence is evaluated as the tree that it denotes.
-/

namespace Reckoner

/-- A reading and an evaluation come to results that `R` relates, or to the same malformation, or
the evaluation meets a zero divisor. -/
inductive Lockstep {α β : Type} (R : α → β → Prop) :
    Except Malformation α → Except EvaluationFault β → Prop
  | ok {a : α} {b : β} : R a b → Lockstep R (.ok a) (.ok b)
  | malformed (cause : Malformation) : Lockstep R (.error cause) (.error (.malformed cause))
  | zeroDivisor (reading : Except Malformation α) : Lockstep R reading (.error .divisionByZero)

theorem Lockstep.bind {α β γ δ : Type} {R : α → β → Prop} {S : γ → δ → Prop}
    {x : Except Malformation α} {y : Except EvaluationFault β} {f : α → Except Malformation γ}
    {g : β → Except EvaluationFault δ} (h : Lockstep R x y)
    (hnext : ∀ a b, R a b → Lockstep S (f a) (g b)) : Lockstep S (x.bind f) (y.bind g) := by
  cases h with
  | ok hab => exact hnext _ _ hab
  | malformed cause => exact .malformed cause
  | zeroDivisor reading => exact .zeroDivisor _

/-- The tree has this value. -/
def Expr.HasValue (e : Expr) (v : Float) : Prop :=
  e.eval = .ok v

namespace Expr

variable {trees : List Expr} {operands : List Float}

theorem ofTokensFrom_cons (trees : List Expr) (t : Token) (ts : List Token) :
    ofTokensFrom trees (t :: ts) =
      (graft trees t).bind fun trees' => ofTokensFrom trees' ts := by
  rw [ofTokensFrom]
  cases graft trees t <;> rfl

/-- A token does the same to trees and to their values. -/
theorem lockstep_reduce (h : List.Forall₂ HasValue trees operands) (t : Token) :
    Lockstep (List.Forall₂ HasValue) (graft trees t) (Postfix.reduce operands t) := by
  cases t with
  | number x => exact .ok (.cons rfl h)
  | openParen => exact .malformed _
  | closeParen => exact .malformed _
  | unknown s => exact .malformed _
  | op o =>
    cases h with
    | nil => exact .malformed _
    | @cons r y trees operands hr h =>
      cases h with
      | nil => exact .malformed _
      | @cons l x below rest hl h =>
        have hvalue : (operation o l r).eval = o.apply x y := by
          rw [eval_operation, show l.eval = .ok x from hl, show r.eval = .ok y from hr]
          rfl
        rw [graft, Postfix.reduce]
        obtain ⟨v, hv, -⟩ | ⟨-, -, hzero⟩ := o.apply_spec x y
        · rw [hv] at hvalue ⊢
          exact .ok (.cons hvalue h)
        · rw [hzero]
          exact .zeroDivisor _

/-- So does the end. -/
theorem lockstep_settle (h : List.Forall₂ HasValue trees operands) :
    Lockstep HasValue (ofTokensFrom trees []) (Postfix.settle operands) := by
  cases h with
  | nil => exact .malformed (.operands 0)
  | cons he h =>
    cases h with
    | nil => exact .ok he
    | cons hf h =>
      rw [ofTokensFrom, Postfix.settle]
      · simp only [List.length_cons, h.length_eq]
        exact .malformed _
      all_goals simp

/-- And so do all tokens, one after the other. -/
theorem lockstep_evaluateFrom (h : List.Forall₂ HasValue trees operands) (ts : List Token) :
    Lockstep HasValue (ofTokensFrom trees ts) (Postfix.evaluateFrom operands ts).1 := by
  induction ts generalizing trees operands with
  | nil => exact lockstep_settle h
  | cons t ts ih =>
    rw [ofTokensFrom_cons, Postfix.fst_evaluateFrom_cons]
    exact (lockstep_reduce h t).bind fun _ _ h' => ih h'

theorem lockstep_evaluate (p : Postfix) :
    Lockstep HasValue (ofPostfix p) p.evaluate.result :=
  lockstep_evaluateFrom .nil p.tokens

end Expr

/-- **Malformed sequences.** Evaluation and infix notation find the same sequences malformed, and
for the same reason. They can differ in one way only: the evaluation of a sequence, malformed or
not, may end early with a division by zero. -/
theorem evaluate_infixText_malformed (p : Postfix) :
    (∀ cause, p.evaluate.result = .error (.malformed cause) → p.infixText = .error cause) ∧
      (∀ cause, p.infixText = .error cause →
        p.evaluate.result = .error (.malformed cause) ∨
          p.evaluate.result = .error .divisionByZero) ∧
      (∀ text, p.infixText = .ok text →
        (∃ v, p.evaluate.result = .ok v) ∨ p.evaluate.result = .error .divisionByZero) ∧
      (p.evaluate.result ≠ .error .divisionByZero →
        ∀ cause, p.infixText = .error cause ↔ p.evaluate.result = .error (.malformed cause)) := by
  have hstep := Expr.lockstep_evaluate p
  rw [Postfix.infixText]
  generalize Expr.ofPostfix p = reading at hstep ⊢
  generalize p.evaluate.result = result at hstep ⊢
  cases hstep with
  | @ok e v he =>
    exact ⟨nofun, nofun, fun _ _ => .inl ⟨v, rfl⟩, fun _ _ => ⟨nofun, nofun⟩⟩
  | malformed cause =>
    refine ⟨?_, ?_, nofun, fun _ cause' => ⟨?_, ?_⟩⟩
    · rintro _ ⟨⟩
      rfl
    · rintro _ ⟨⟩
      exact .inl rfl
    · rintro ⟨⟩
      rfl
    · rintro ⟨⟩
      rfl
  | zeroDivisor reading =>
    exact ⟨nofun, fun _ _ => .inr rfl, fun _ _ => .inr rfl, fun h => absurd rfl h⟩

/-- The sequence `1 + )`. -/
def truncated : Postfix :=
  ⟨[.number 1, .op .add, .closeParen]⟩

/-- The sequence `4 0 / 2`. -/
def severed : Postfix :=
  ⟨[.number 4, .number 0, .op .div, .number 2]⟩

theorem result_evaluate_truncated :
    truncated.evaluate.result = .error (.malformed (.underflow .add)) := rfl

theorem infixText_severed : severed.infixText = .error (.operands 2) := rfl

/-- An operator that lacks an operand for both, a zero divisor before two operands are left, and a
number alone. -/
theorem evaluate_infixText_malformed_truncated :
    truncated.evaluate.result = .error (.malformed (.underflow .add)) ∧
      truncated.infixText = .error (.underflow .add) ∧
      (∀ cause, truncated.infixText = .error cause ↔
        truncated.evaluate.result = .error (.malformed cause)) ∧
      severed.infixText = .error (.operands 2) ∧
      (severed.evaluate.result = .error (.malformed (.operands 2)) ∨
        severed.evaluate.result = .error .divisionByZero) ∧
      Postfix.infixText ⟨[.number 7]⟩ = .ok (Number.text 7) ∧
      ((∃ v, (Postfix.evaluate ⟨[.number 7]⟩).result = .ok v) ∨
        (Postfix.evaluate ⟨[.number 7]⟩).result = .error .divisionByZero) := by
  obtain ⟨hmalformed, -, -, hsame⟩ := evaluate_infixText_malformed truncated
  have hnonzero : truncated.evaluate.result ≠ .error .divisionByZero := nofun
  have hsevered := (evaluate_infixText_malformed severed).2.1 _ infixText_severed
  have hseven : Postfix.infixText ⟨[.number 7]⟩ = .ok (Number.text 7) := rfl
  exact ⟨result_evaluate_truncated, hmalformed _ result_evaluate_truncated, hsame hnonzero,
    infixText_severed, hsevered, hseven,
    (evaluate_infixText_malformed ⟨[.number 7]⟩).2.2.1 _ hseven⟩

/-! ## The tree that a sequence denotes -/

namespace Expr

variable {p : Postfix}

/-- The sequences that have infix text are the postorders of trees. -/
theorem exists_postorder_iff :
    (∃ e : Expr, p.tokens = e.postorder) ↔ ∃ text, p.infixText = .ok text := by
  constructor
  · rintro ⟨e, he⟩
    have hp : ofPostfix p = .ok e := ofPostfix_eq_ok_iff.mpr (congrArg Postfix.mk he)
    exact ⟨e.text, map_eq_ok_iff.mpr ⟨e, hp, rfl⟩⟩
  · rintro ⟨text, ht⟩
    obtain ⟨e, he, -⟩ := map_eq_ok_iff.mp ht
    exact ⟨e, congrArg Postfix.tokens (ofPostfix_eq_ok_iff.mp he)⟩

/-- A sequence with a value is the postorder of a tree. -/
theorem exists_postorder_of_evaluate {v : Float} (h : p.evaluate.result = .ok v) :
    ∃ e : Expr, p.tokens = e.postorder := by
  have hstep := lockstep_evaluate p
  rw [h] at hstep
  generalize hr : ofPostfix p = reading at hstep
  cases hstep with
  | @ok e _ _ => exact ⟨e, congrArg Postfix.tokens (ofPostfix_eq_ok_iff.mp hr)⟩

end Expr

/-- **Denotation.** A sequence has infix text exactly if it is the postorder of a tree. That tree is
the only one, and the sequence is evaluated as the tree is: to its value, or to a division by zero
exactly if the tree meets a zero divisor. What is the postorder of no tree has no value. -/
theorem evaluate_denoted_tree (p : Postfix) :
    ((∃ e : Expr, p.tokens = e.postorder) ↔ ∃ text, p.infixText = .ok text) ∧
      (∀ e : Expr, p.tokens = e.postorder →
        (∀ f : Expr, p.tokens = f.postorder → f = e) ∧
          p.evaluate.result = e.eval ∧
          (p.evaluate.result = .error .divisionByZero ↔ e.MeetsZeroDivisor) ∧
          ((∃ v, p.evaluate.result = .ok v) ↔ ¬ e.MeetsZeroDivisor)) ∧
      ((∀ e : Expr, p.tokens ≠ e.postorder) → ∀ v, p.evaluate.result ≠ .ok v) := by
  refine ⟨Expr.exists_postorder_iff, fun e he => ?_, fun hnone v hv => ?_⟩
  · have hvalue : p.evaluate.result = e.eval := by
      rw [← Postfix.result_evaluate_postorder e, ← he]
    refine ⟨fun f hf => Expr.postorder_injective (hf.symm.trans he), hvalue, ?_, ?_⟩
    · rw [hvalue, e.eval_eq_divisionByZero_iff]
    · rw [hvalue, e.exists_eval_eq_ok_iff]
  · obtain ⟨e, he⟩ := Expr.exists_postorder_of_evaluate hv
    exact hnone e he

/-- The tree of `(2 - 8) / -0`. -/
def overZero : Expr :=
  .operation .div (.operation .sub (.number 2) (.number 8)) (.number (-0.0))

theorem overZero_meetsZeroDivisor : overZero.MeetsZeroDivisor :=
  .here rfl (by decide)

/-- A tree that divides by negative zero, one number alone that is not a number, and a sequence
that leaves two operands. -/
theorem evaluate_denoted_tree_overZero :
    (∃ text, Postfix.infixText ⟨overZero.postorder⟩ = .ok text) ∧
      (Postfix.evaluate ⟨overZero.postorder⟩).result = .error .divisionByZero ∧
      (∃ v, (Postfix.evaluate ⟨[.number (0.0 / 0.0)]⟩).result = .ok v) ∧
      (∀ e : Expr, severed.tokens ≠ e.postorder) ∧ ∀ v, severed.evaluate.result ≠ .ok v := by
  obtain ⟨htext, htree, -⟩ := evaluate_denoted_tree ⟨overZero.postorder⟩
  obtain ⟨-, -, hzero, -⟩ := htree overZero rfl
  obtain ⟨-, -, -, hnan⟩ :=
    (evaluate_denoted_tree ⟨[.number (0.0 / 0.0)]⟩).2.1 (.number (0.0 / 0.0)) rfl
  have hsevered : ∀ e : Expr, severed.tokens ≠ e.postorder := by
    intro e he
    obtain ⟨text, ht⟩ := (evaluate_denoted_tree severed).1.mp ⟨e, he⟩
    rw [infixText_severed] at ht
    cases ht
  exact ⟨htext.mp ⟨overZero, rfl⟩, hzero.mpr overZero_meetsZeroDivisor, hnan.mpr nofun, hsevered,
    (evaluate_denoted_tree severed).2.2 hsevered⟩

end Reckoner
