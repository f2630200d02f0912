import Reckoner.Proofs.Blocks
import Reckoner.Proofs.Folding
import Reckoner.Proofs.Shunting

/-!
# Operands and the first fault

A number adds an operand and an operator takes one away. So as long as no token is refused, the
numbers less the operators before a token are the operands that wait for it. A token is refused if
it is neither number nor operator, if it is an operator and fewer than two operands wait, or if it
divides by zero. The first such token decides; if there is none, the operands in the end do.

* `surplus`: the numbers less the operators.
* `length_of_reduce`, `length_of_operandsAfter`: they count the operands.
* `refusal?`, `faultAt?`, `FirstFault`: the tokens that are refused, told by those before them.
* `refusal?_eq_some_iff`: they are the ones that `reduce` refuses.
* `result_of_taken`, `result_of_stops`: how an evaluation ends that takes all tokens, and one that
  does not.
* `result_of_isTerm`: the four ways in which numbers and operators can end.
* `evaluate_first_fault`: the first fault decides what an evaluation answers.
-/

namespace Reckoner

/-- The numbers among the tokens, less the operators. -/
def surplus (ts : List Token) : Int :=
  (ts.countP Token.isNumber : Int) - ts.countP Token.isOperator

@[simp] theorem surplus_nil : surplus [] = 0 := rfl

@[simp] theorem surplus_append (ts us : List Token) :
    surplus (ts ++ us) = surplus ts + surplus us := by
  simp only [surplus, List.countP_append]
  omega

@[simp] theorem surplus_op (o : Operator) : surplus [.op o] = -1 := rfl

namespace Postfix

variable {operands operands' : List Float} {t : Token} {ts before after : List Token}
variable {fault : EvaluationFault} {i j : Nat}

/-! ## Counting operands -/

/-- A token that is taken changes the number of operands by its own surplus, and leaves one at
least. -/
theorem length_of_reduce (h : reduce operands t = .ok operands') :
    (operands'.length : Int) = operands.length + surplus [t] ∧ operands' ≠ [] := by
  cases t with
  | number x =>
    cases h
    exact ⟨rfl, List.cons_ne_nil _ _⟩
  | op o =>
    rcases operands with _ | ⟨right, _ | ⟨left, below⟩⟩
    · cases h
    · cases h
    · obtain ⟨value, -, rfl⟩ := map_eq_ok_iff.mp h
      refine ⟨?_, List.cons_ne_nil _ _⟩
      simp only [List.length_cons, surplus_op]
      omega
  | _ => cases h

theorem length_of_foldlM_reduce (h : ts.foldlM reduce operands = .ok operands') :
    (operands'.length : Int) = operands.length + surplus ts := by
  induction ts generalizing operands with
  | nil =>
    cases h
    simp
  | cons t ts ih =>
    obtain ⟨middle, ht, hm⟩ := bind_eq_ok_iff.mp h
    have hstep := (length_of_reduce ht).1
    have hcut : surplus (t :: ts) = surplus [t] + surplus ts := surplus_append [t] ts
    rw [ih hm, hcut]
    omega

/-- The operands that wait after the tokens, the latest first, unless a token is refused. -/
def operandsAfter (ts : List Token) : Except EvaluationFault (List Float) :=
  ts.foldlM reduce []

/-- As many operands wait as there are more numbers than operators. -/
theorem length_of_operandsAfter (h : operandsAfter ts = .ok operands) :
    (operands.length : Int) = surplus ts := by
  simpa using length_of_foldlM_reduce h

/-! ## Refusals -/

/-- The operand that an operator after the tokens would take for its right one. -/
def rightOperand? (before : List Token) : Option Float :=
  match operandsAfter before with
  | .ok operands => operands.head?
  | .error _ => none

/-- Why a token is refused after others, none of which is. -/
def refusal? (before : List Token) : Token → Option EvaluationFault
  | .number _ => none
  | .op o =>
    if surplus before < 2 then some (.malformed (.underflow o))
    else if o = .div ∧ (rightOperand? before).any (· == 0.0) then some .divisionByZero
    else none
  | t => some (.malformed (.badToken t.text))

/-- Why the token at position `i` is refused, if none before it is. -/
def faultAt? (ts : List Token) (i : Nat) : Option EvaluationFault :=
  ts[i]?.bind (refusal? (ts.take i))

/-- The token at position `i` is refused, and none before it is. -/
def FirstFault (ts : List Token) (i : Nat) (fault : EvaluationFault) : Prop :=
  faultAt? ts i = some fault ∧ ∀ j < i, faultAt? ts j = none

instance (ts : List Token) (i : Nat) (fault : EvaluationFault) :
    Decidable (FirstFault ts i fault) :=
  inferInstanceAs (Decidable (_ ∧ ∀ j < i, _))

/-- What `refusal?` tells by the tokens before is what `reduce` refuses. -/
theorem refusal?_eq_some_iff (h : operandsAfter before = .ok operands) :
    refusal? before t = some fault ↔ reduce operands t = .error fault := by
  have hlength := length_of_operandsAfter h
  have hright : rightOperand? before = operands.head? := by rw [rightOperand?, h]
  cases t with
  | number x => simp [refusal?, reduce]
  | op o =>
    rw [refusal?, hright]
    rcases operands with _ | ⟨right, _ | ⟨left, below⟩⟩
    · rw [if_pos (by simp at hlength; omega)]
      simp [reduce]
    · rw [if_pos (by simp at hlength; omega)]
      simp [reduce]
    · rw [if_neg (by simp at hlength; omega)]
      obtain ⟨v, hv, hne⟩ | ⟨rfl, hzero, hv⟩ := o.apply_spec left right
      · rw [if_neg (by simpa using hne), reduce, hv]
        simp [Except.map]
      · rw [if_pos ⟨rfl, hzero⟩, reduce, hv]
        simp [Except.map]
  | _ => simp [refusal?, reduce]

theorem faultAt?_append (before after : List Token) (t : Token) :
    faultAt? (before ++ t :: after) before.length = refusal? before t := by
  simp [faultAt?]

/-- A fault is told by the tokens up to it. -/
theorem faultAt?_take (h : j < i) : faultAt? (ts.take i) j = faultAt? ts j := by
  rw [faultAt?, faultAt?, List.getElem?_take_of_lt h, List.take_take,
    Nat.min_eq_left (Nat.le_of_lt h)]

theorem lt_length_of_faultAt? (h : faultAt? ts i = some fault) : i < ts.length := by
  obtain ⟨t, ht, -⟩ := Option.bind_eq_some_iff.mp h
  exact (List.getElem?_eq_some_iff.mp ht).1

/-! ## How an evaluation ends -/

/-- After tokens that are taken, the evaluation goes on with the operands that they leave. -/
theorem evaluateFrom_append (h : before.foldlM reduce operands = .ok operands')
    (after : List Token) :
    evaluateFrom operands (before ++ after) =
      ((evaluateFrom operands' after).1,
        (evaluateFrom operands before).2 ++ (evaluateFrom operands' after).2) := by
  induction before generalizing operands with
  | nil =>
    cases h
    rfl
  | cons t before ih =>
    obtain ⟨next, ht, hn⟩ := bind_eq_ok_iff.mp h
    rw [List.cons_append, evaluateFrom_cons, evaluateFrom_cons, ht]
    simp only [ih hn, List.cons_append]

/-- All tokens are taken, or one is refused after others that are taken. -/
theorem taken_or_stops (operands : List Float) (ts : List Token) :
    (∃ operands', ts.foldlM reduce operands = .ok operands') ∨
      ∃ before t after middle fault, ts = before ++ t :: after ∧
        before.foldlM reduce operands = .ok middle ∧ reduce middle t = .error fault := by
  induction ts generalizing operands with
  | nil => exact .inl ⟨operands, rfl⟩
  | cons t ts ih =>
    cases ht : reduce operands t with
    | error fault => exact .inr ⟨[], t, ts, operands, fault, rfl, rfl, ht⟩
    | ok next =>
      obtain ⟨operands', h⟩ | ⟨before, u, after, middle, fault, rfl, h, hf⟩ := ih next
      · exact .inl ⟨operands', bind_eq_ok_iff.mpr ⟨next, ht, h⟩⟩
      · exact .inr ⟨t :: before, u, after, middle, fault, rfl,
          bind_eq_ok_iff.mpr ⟨next, ht, h⟩, hf⟩

/-- Tokens that are all taken have no fault. -/
theorem faultAt?_of_taken (h : operandsAfter ts = .ok operands) (i : Nat) :
    faultAt? ts i = none := by
  cases hi : faultAt? ts i with
  | none => rfl
  | some fault =>
    obtain ⟨t, ht, hr⟩ := Option.bind_eq_some_iff.mp hi
    have hcut : ts = ts.take i ++ t :: ts.drop (i + 1) := by
      have hlt := lt_length_of_faultAt? hi
      rw [List.getElem?_eq_getElem hlt] at ht
      rw [← Option.some.inj ht, List.getElem_cons_drop, List.take_append_drop]
    rw [hcut, operandsAfter, List.foldlM_append] at h
    obtain ⟨middle, hm, h⟩ := bind_eq_ok_iff.mp h
    obtain ⟨next, hn, -⟩ := bind_eq_ok_iff.mp h
    rw [(refusal?_eq_some_iff hm).mp hr] at hn
    cases hn

/-- An evaluation that takes all tokens settles the operands that are left. -/
theorem result_of_taken (h : operandsAfter ts = .ok operands) :
    (evaluate ⟨ts⟩).result = settle operands := by
  rw [result_evaluate]
  exact congrArg (Except.bind · settle) h

/-- An evaluation fails at the first token that is refused, whatever follows. -/
theorem result_of_stops (h : operandsAfter before = .ok operands)
    (hf : reduce operands t = .error fault) (after : List Token) :
    FirstFault (before ++ t :: after) before.length fault ∧
      (evaluate ⟨before ++ t :: after⟩).result = .error fault := by
  refine ⟨⟨?_, fun j hj => ?_⟩, ?_⟩
  · rw [faultAt?_append]
    exact (refusal?_eq_some_iff h).mpr hf
  · rw [← faultAt?_take hj, List.take_left]
    exact faultAt?_of_taken h j
  · have hall := congrArg Prod.fst (evaluateFrom_append h (t :: after))
    rwa [evaluateFrom_cons, hf] at hall

theorem FirstFault.unique {fault' : EvaluationFault} (h : FirstFault ts i fault)
    (h' : FirstFault ts j fault') : i = j ∧ fault = fault' := by
  obtain hlt | rfl | hlt := Nat.lt_trichotomy i j
  · exact absurd h.1 (by simp [h'.2 i hlt])
  · exact ⟨rfl, Option.some.inj (h.1.symm.trans h'.1)⟩
  · exact absurd h'.1 (by simp [h.2 j hlt])

/-- At a first fault a token is refused after others that are taken. -/
theorem exists_stops_of_firstFault (h : FirstFault ts i fault) :
    ∃ before t after operands, ts = before ++ t :: after ∧ before.length = i ∧
      operandsAfter before = .ok operands ∧ reduce operands t = .error fault := by
  obtain ⟨operands, ht⟩ | ⟨before, t, after, operands, cause, rfl, hb, hf⟩ := taken_or_stops [] ts
  · have := h.1
    rw [faultAt?_of_taken ht] at this
    cases this
  · obtain ⟨rfl, rfl⟩ := (result_of_stops hb hf after).1.unique h
    exact ⟨before, t, after, operands, rfl, rfl, hb, hf⟩

/-- Without a fault all tokens are taken. -/
theorem exists_taken (h : ∀ j, faultAt? ts j = none) : ∃ operands, operandsAfter ts = .ok operands := by
  obtain ht | ⟨before, t, after, operands, cause, rfl, hb, hf⟩ := taken_or_stops [] ts
  · exact ht
  · have := (result_of_stops hb hf after).1.1
    rw [h] at this
    cases this

/-- A number or an operator is refused for want of an operand or for a division by zero. -/
theorem refusal?_of_isTerm (ht : t.isTerm = true) (h : refusal? before t = some fault) :
    fault = .divisionByZero ∨ ∃ o, t = .op o ∧ fault = .malformed (.underflow o) := by
  cases t with
  | number x => cases h
  | op o =>
    rw [refusal?] at h
    split at h
    · cases h
      exact .inr ⟨o, rfl, rfl⟩
    · split at h
      · cases h
        exact .inl rfl
      · cases h
  | _ => cases ht

/-- The end is refused unless one operand is left. -/
theorem settle_spec (operands : List Float) :
    (∃ v, operands = [v] ∧ settle operands = .ok v) ∨
      (operands.length ≠ 1 ∧ settle operands = .error (.malformed (.operands operands.length))) := by
  rcases operands with _ | ⟨v, _ | ⟨w, operands⟩⟩
  · exact .inr ⟨nofun, rfl⟩
  · exact .inl ⟨v, rfl, rfl⟩
  · exact .inr ⟨by simp, rfl⟩

/-- Tokens that are taken leave an operand, if there are any. -/
theorem eq_nil_of_operandsAfter (h : operandsAfter ts = .ok []) : ts = [] := by
  rcases List.eq_nil_or_concat ts with rfl | ⟨init, t, rfl⟩
  · rfl
  · rw [List.concat_eq_append, operandsAfter, List.foldlM_append] at h
    obtain ⟨middle, -, h⟩ := bind_eq_ok_iff.mp h
    obtain ⟨last, ht, hl⟩ := bind_eq_ok_iff.mp h
    cases hl
    exact absurd rfl (length_of_reduce ht).2

/-- How the evaluation of numbers and operators can end: with a value, with a number of operands
other than one, with a division by zero, or for want of an operand. -/
theorem result_of_isTerm (hterm : ∀ t ∈ ts, t.isTerm = true) :
    (∃ v, (evaluate ⟨ts⟩).result = .ok v ∧ surplus ts = 1) ∨
      (∃ k : Nat, (evaluate ⟨ts⟩).result = .error (.malformed (.operands k)) ∧
        surplus ts = k ∧ k ≠ 1 ∧ (k = 0 → ts = [])) ∨
      (evaluate ⟨ts⟩).result = .error .divisionByZero ∨
      ∃ o, .op o ∈ ts ∧ (evaluate ⟨ts⟩).result = .error (.malformed (.underflow o)) := by
  obtain ⟨operands, h⟩ | ⟨before, t, after, operands, fault, rfl, hb, hf⟩ := taken_or_stops [] ts
  · have hlength := length_of_operandsAfter h
    rw [result_of_taken h]
    obtain ⟨v, rfl, hv⟩ | ⟨hne, hk⟩ := settle_spec operands
    · exact .inl ⟨v, hv, hlength.symm⟩
    · refine .inr (.inl ⟨operands.length, hk, hlength.symm, hne, fun hzero => ?_⟩)
      rw [List.length_eq_zero_iff] at hzero
      exact eq_nil_of_operandsAfter (hzero ▸ h)
  · have hmem : t ∈ before ++ t :: after := List.mem_append_right _ List.mem_cons_self
    have hresult := (result_of_stops hb hf after).2
    have hrefused := (refusal?_eq_some_iff hb).mpr hf
    obtain rfl | ⟨o, rfl, rfl⟩ := refusal?_of_isTerm (hterm t hmem) hrefused
    · exact .inr (.inr (.inl hresult))
    · exact .inr (.inr (.inr ⟨o, hmem, hresult⟩))

/-- **First fault.** As long as no token is refused, as many operands wait as there are more numbers
than operators before. The first token that is refused decides what the evaluation answers,
whatever follows it. If none is, the evaluation has a value if one operand is left, and else
reports how many are. -/
theorem evaluate_first_fault (ts : List Token) :
    (∀ i ≤ ts.length, (∀ j < i, faultAt? ts j = none) →
      ∃ operands, operandsAfter (ts.take i) = .ok operands ∧
        (operands.length : Int) = surplus (ts.take i) ∧
        (evaluate ⟨ts⟩).result = (evaluateFrom operands (ts.drop i)).1) ∧
    (∀ i fault, FirstFault ts i fault →
      (evaluate ⟨ts⟩).result = .error fault ∧
        ∀ after, (evaluate ⟨ts.take (i + 1) ++ after⟩).result = .error fault) ∧
    ((∀ i, faultAt? ts i = none) →
      (surplus ts = 1 → ∃ v, (evaluate ⟨ts⟩).result = .ok v) ∧
      (surplus ts ≠ 1 → ∃ k : Nat, (k : Int) = surplus ts ∧
        (evaluate ⟨ts⟩).result = .error (.malformed (.operands k)))) := by
  refine ⟨fun i hi hnone => ?_, fun i fault hfirst => ?_, fun hnone => ?_⟩
  · have hprefix : ∀ j, faultAt? (ts.take i) j = none := by
      intro j
      by_cases hj : j < i
      · rw [faultAt?_take hj, hnone j hj]
      · rw [faultAt?, List.getElem?_take, if_neg hj]
        rfl
    obtain ⟨operands, h⟩ := exists_taken hprefix
    refine ⟨operands, h, length_of_operandsAfter h, ?_⟩
    have hall := congrArg Prod.fst (evaluateFrom_append h (ts.drop i))
    rwa [List.take_append_drop] at hall
  · obtain ⟨before, t, rest, operands, rfl, rfl, hb, hf⟩ := exists_stops_of_firstFault hfirst
    refine ⟨(result_of_stops hb hf rest).2, fun after => ?_⟩
    have hcut : (before ++ t :: rest).take (before.length + 1) = before ++ [t] := by
      rw [List.append_cons, List.take_left' (by simp)]
    rw [hcut, List.append_assoc, List.singleton_append]
    exact (result_of_stops hb hf after).2
  · obtain ⟨operands, h⟩ := exists_taken hnone
    have hlength := length_of_operandsAfter h
    rw [result_of_taken h]
    obtain ⟨v, rfl, hv⟩ | ⟨hne, hk⟩ := settle_spec operands
    · exact ⟨fun _ => ⟨v, hv⟩, fun hne => absurd hlength.symm hne⟩
    · exact ⟨fun hone => by omega, fun _ => ⟨operands.length, hlength, hk⟩⟩

/-- The tokens `4 0 / + )`. -/
def faulty : List Token :=
  [.number 4, .number 0, .op .div, .op .add, .closeParen]

theorem firstFault_faulty : FirstFault faulty 2 .divisionByZero := by decide

/-- A division by zero, one that lacks an operand and has zero for the other, a token that stands in
no postfix sequence, a number too many, and no number at all. -/
theorem evaluate_first_fault_faulty :
    FirstFault faulty 2 .divisionByZero ∧
      (evaluate ⟨faulty⟩).result = .error .divisionByZero ∧
      FirstFault (faulty.drop 1) 1 (.malformed (.underflow .div)) ∧
      (evaluate ⟨faulty.drop 1⟩).result = .error (.malformed (.underflow .div)) ∧
      FirstFault (faulty.eraseIdx 2) 3 (.malformed (.badToken ")")) ∧
      (evaluate ⟨faulty.eraseIdx 2⟩).result = .error (.malformed (.badToken ")")) ∧
      (∃ k : Nat, (k : Int) = surplus (faulty.take 2) ∧
        (evaluate ⟨faulty.take 2⟩).result = .error (.malformed (.operands k))) ∧
      (∃ k : Nat, (k : Int) = surplus [] ∧
        (evaluate ⟨[]⟩).result = .error (.malformed (.operands k))) ∧
      ∃ v, (evaluate ⟨faulty.take 1⟩).result = .ok v := by
  have hlacking : FirstFault (faulty.drop 1) 1 (.malformed (.underflow .div)) := by decide
  have hbad : FirstFault (faulty.eraseIdx 2) 3 (.malformed (.badToken ")")) := by decide
  have htwo : operandsAfter (faulty.take 2) = .ok [0, 4] := rfl
  have hone : operandsAfter (faulty.take 1) = .ok [4] := rfl
  have hnone : operandsAfter [] = .ok [] := rfl
  exact ⟨firstFault_faulty, ((evaluate_first_fault faulty).2.1 2 _ firstFault_faulty).1,
    hlacking, ((evaluate_first_fault _).2.1 1 _ hlacking).1,
    hbad, ((evaluate_first_fault _).2.1 3 _ hbad).1,
    ((evaluate_first_fault _).2.2 (faultAt?_of_taken htwo)).2 (by decide),
    ((evaluate_first_fault _).2.2 (faultAt?_of_taken hnone)).2 (by decide),
    ((evaluate_first_fault _).2.2 (faultAt?_of_taken hone)).1 rfl⟩

end Postfix

end Reckoner
