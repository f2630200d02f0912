import Reckoner.Proofs.Lexemes

/-!
# Parts of a sequence

What a part of a postfix sequence does is told by the part alone, as far as it does not run out of
operands. It never looks at the operands below its own, so a value that it has alone it has anywhere,
and a fault that it meets alone it meets wherever it is reached.

* `EvaluationFault.counts`: the faults that depend on what stands around a part.
* `result_of_part_fails`: any other fault of a part is one of the whole.
* `evaluate_part`: a part with a value is as good as the value, and a division by zero in a part is
  one of the whole.
-/

namespace Reckoner

/-- A fault that is about how many operands there are, so that more of them around can undo it. -/
def EvaluationFault.counts : EvaluationFault → Bool
  | malformed (.underflow _) | malformed (.operands _) => true
  | _ => false

namespace Postfix

variable {operands : List Float} {ts before : List Token} {fault : EvaluationFault}

/-- A part that fails alone for another reason than a count fails so wherever it is reached, whatever
follows it. -/
theorem result_of_part_fails (h : (evaluate ⟨ts⟩).result = .error fault)
    (hf : fault.counts = false) (hb : operandsAfter before = .ok operands) (after : List Token) :
    (evaluate ⟨before ++ (ts ++ after)⟩).result = .error fault := by
  obtain ⟨left, ht⟩ | ⟨first, t, last, middle, cause, rfl, hfirst, ht⟩ := taken_or_stops [] ts
  · -- A part that takes all its tokens can only fail for the operands it leaves.
    rw [result_of_taken ht] at h
    obtain ⟨v, rfl, hv⟩ | ⟨-, hk⟩ := settle_spec left
    · rw [hv] at h
      cases h
    · rw [hk] at h
      cases h
      cases hf
  · obtain rfl : cause = fault := by
      rw [(result_of_stops hfirst ht last).2] at h
      exact Except.error.inj h
    have hunderflow : ∀ o, cause ≠ .malformed (.underflow o) := by
      rintro o rfl
      cases hf
    have htaken : operandsAfter (before ++ first) = .ok (middle ++ operands) := by
      rw [operandsAfter, List.foldlM_append]
      exact bind_eq_ok_iff.mpr ⟨operands, hb, foldlM_reduce_above hfirst operands⟩
    have hrefused := reduce_above_of_error ht hunderflow operands
    have hfails := (result_of_stops htaken hrefused (last ++ after)).2
    rw [List.append_assoc] at hfails
    rwa [List.append_assoc, List.cons_append]

/-- **Constant folding.** A part that has a value alone may be replaced by the value between any
tokens: the outcome is the same, a value or a fault. A part that divides by zero alone makes the
whole divide by zero if no token before it is refused, whatever follows. -/
theorem evaluate_part (ts : List Token) :
    (∀ v, (evaluate ⟨ts⟩).result = .ok v → ∀ before after,
      (evaluate ⟨before ++ (ts ++ after)⟩).result =
        (evaluate ⟨before ++ ([.number v] ++ after)⟩).result) ∧
    ((evaluate ⟨ts⟩).result = .error .divisionByZero →
      ∀ before, (∀ i, faultAt? before i = none) → ∀ after,
        (evaluate ⟨before ++ (ts ++ after)⟩).result = .error .divisionByZero) := by
  refine ⟨fun v => result_evaluate_fold, fun h before hbefore after => ?_⟩
  obtain ⟨operands, hb⟩ := exists_taken hbefore
  exact result_of_part_fails h rfl hb after

/-- The tokens `4 0 /`. -/
def dividing : List Token :=
  [.number 4, .number 0, .op .div]

theorem result_evaluate_dividing : (evaluate ⟨dividing⟩).result = .error .divisionByZero := by
  decide

theorem faultAt?_one (i : Nat) : faultAt? [.number 1] i = none := by
  have htaken : operandsAfter [.number 1] = .ok [1] := rfl
  exact faultAt?_of_taken htaken i

/-- A sum between tokens with which it has a value and between tokens that are refused, and a division
by zero before tokens that would be refused. -/
theorem evaluate_part_summed :
    (evaluate summed).result = .ok 3 ∧
      (evaluate ⟨[Token.number 4] ++ (summed.tokens ++ [Token.op .mul])⟩).result =
        (evaluate ⟨[Token.number 4] ++ ([Token.number 3] ++ [Token.op .mul])⟩).result ∧
      (evaluate ⟨[Token.op .add] ++ (summed.tokens ++ [Token.closeParen])⟩).result =
        (evaluate ⟨[Token.op .add] ++ ([Token.number 3] ++ [Token.closeParen])⟩).result ∧
      (evaluate ⟨dividing⟩).result = .error .divisionByZero ∧
      (∀ i, faultAt? [.number 1] i = none) ∧
      (evaluate ⟨[Token.number 1] ++ (dividing ++ [Token.closeParen])⟩).result =
        .error .divisionByZero := by
  have hsummed := (evaluate_part summed.tokens).1 3 result_evaluate_summed
  have hdividing := (evaluate_part dividing).2 result_evaluate_dividing [.number 1] faultAt?_one
  exact ⟨result_evaluate_summed, hsummed [.number 4] [.op .mul], hsummed [.op .add] [.closeParen],
    result_evaluate_dividing, faultAt?_one, hdividing [.closeParen]⟩

end Postfix

end Reckoner
