import Reckoner.Proofs.Trees

/-!
# Folding of values

An evaluation is a fold of `reduce` over the tokens, and a fold that succeeds leaves the operands
below the ones it uses as they are. So tokens that have a value alone put that value on whatever
operands wait, and can be replaced by it.

* `fst_evaluateFrom`: an evaluation is a fold and a `settle`.
* `reduce_above`, `foldlM_reduce_above`: what succeeds does the same above further operands.
* `reduce_above_of_error`: and what fails, if not for want of operands.
* `result_evaluate_fold`: tokens with a value, and the value, are the same between any others.
-/

namespace Reckoner.Postfix

variable {operands operands' : List Float} {t : Token} {ts : List Token} {v : Float}
variable {fault : EvaluationFault}

/-- An evaluation reduces all tokens and settles what is left. -/
theorem fst_evaluateFrom (operands : List Float) (ts : List Token) :
    (evaluateFrom operands ts).1 = (ts.foldlM reduce operands).bind settle := by
  induction ts generalizing operands with
  | nil => rfl
  | cons t ts ih =>
    rw [fst_evaluateFrom_cons, List.foldlM_cons]
    cases reduce operands t with
    | error fault => rfl
    | ok operands' => exact ih operands'

theorem result_evaluate (p : Postfix) :
    p.evaluate.result = (p.tokens.foldlM reduce []).bind settle :=
  fst_evaluateFrom [] p.tokens

theorem settle_eq_ok_iff : settle operands = .ok v ↔ operands = [v] := by
  constructor
  · intro h
    unfold settle at h
    split at h
    · cases h
      rfl
    · cases h
  · rintro rfl
    rfl

/-- A token that is taken does the same above further operands. -/
theorem reduce_above (h : reduce operands t = .ok operands') (below : List Float) :
    reduce (operands ++ below) t = .ok (operands' ++ below) := by
  cases t with
  | number x =>
    cases h
    rfl
  | op o =>
    rcases operands with _ | ⟨right, _ | ⟨left, rest⟩⟩
    · cases h
    · cases h
    · obtain ⟨value, hv, rfl⟩ := map_eq_ok_iff.mp h
      exact map_eq_ok_iff.mpr ⟨value, hv, rfl⟩
  | _ => cases h

/-- A token that is refused, and not for want of operands, is refused above further ones too. -/
theorem reduce_above_of_error (h : reduce operands t = .error fault)
    (hf : ∀ o, fault ≠ .malformed (.underflow o)) (below : List Float) :
    reduce (operands ++ below) t = .error fault := by
  cases t with
  | number x => cases h
  | op o =>
    rcases operands with _ | ⟨right, _ | ⟨left, rest⟩⟩
    · cases h
      exact absurd rfl (hf o)
    · cases h
      exact absurd rfl (hf o)
    · simp only [List.cons_append, reduce] at h ⊢
      cases ha : o.apply left right with
      | ok value =>
        rw [ha] at h
        cases h
      | error cause =>
        rw [ha] at h
        exact h
  | _ => exact h

/-- And so do tokens that are all taken. -/
theorem foldlM_reduce_above (h : ts.foldlM reduce operands = .ok operands') (below : List Float) :
    ts.foldlM reduce (operands ++ below) = .ok (operands' ++ below) := by
  induction ts generalizing operands with
  | nil =>
    cases h
    rfl
  | cons t ts ih =>
    obtain ⟨middle, ht, hm⟩ := bind_eq_ok_iff.mp h
    exact bind_eq_ok_iff.mpr ⟨middle ++ below, reduce_above ht below, ih hm⟩

/-- Tokens with a value put it on the operands that wait, as the number itself does. -/
theorem foldlM_reduce_of_evaluate (h : (evaluate ⟨ts⟩).result = .ok v) (operands : List Float) :
    ts.foldlM reduce operands = .ok (v :: operands) := by
  obtain ⟨left, hf, hl⟩ := bind_eq_ok_iff.mp (result_evaluate ⟨ts⟩ ▸ h)
  obtain rfl := settle_eq_ok_iff.mp hl
  exact foldlM_reduce_above hf operands

/-- Tokens with a value can be replaced by it, whatever stands before and after them. -/
theorem result_evaluate_fold (h : (evaluate ⟨ts⟩).result = .ok v) (before after : List Token) :
    (evaluate ⟨before ++ (ts ++ after)⟩).result =
      (evaluate ⟨before ++ ([.number v] ++ after)⟩).result := by
  have hv : (evaluate ⟨[.number v]⟩).result = .ok v := rfl
  have hsame : ∀ operands, (ts ++ after).foldlM reduce operands =
      ([Token.number v] ++ after).foldlM reduce operands := by
    intro operands
    rw [List.foldlM_append, List.foldlM_append, foldlM_reduce_of_evaluate h,
      foldlM_reduce_of_evaluate hv]
  rw [result_evaluate, result_evaluate, List.foldlM_append, List.foldlM_append]
  simp only [hsame]

end Reckoner.Postfix
