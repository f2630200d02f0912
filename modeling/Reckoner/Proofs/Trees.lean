import Reckoner.Expr
import Reckoner.Postfix.Evaluation

/-!
# Trees and their postorder

The tokens of a tree in postorder put the tree on those that wait already when they are read as
trees, and its value on the operands that wait when they are evaluated, or fail as the tree does.

* `Expr.ofPostfix_eq_ok_iff`: the sequences that denote a tree are the postorders of trees.
* `Postfix.result_evaluate_postorder`: the postorder of a tree has the value of the tree.
* `Expr.MeetsZeroDivisor`: a division of the tree has a right operand equal to zero.
* `Expr.eval_spec`: that is the one way in which a tree has no value.
  `Expr.eval_eq_divisionByZero_iff`, `Expr.exists_eval_eq_ok_iff`: its two halves.
-/

namespace Reckoner

/-! ## Reading -/

namespace Expr

variable {trees trees' : List Expr} {t : Token} {ts : List Token} {e : Expr}

/-- The tokens of trees that wait, the latest first. -/
def postorders (trees : List Expr) : List Token :=
  trees.reverse.flatMap postorder

/-- A token that is read as a part of a tree is its last one. -/
theorem postorders_of_graft (h : graft trees t = .ok trees') :
    postorders trees' = postorders trees ++ [t] := by
  unfold graft at h
  split at h
  · cases h
    simp [postorders, postorder]
  · split at h
    · cases h
      simp [postorders, postorder]
    · cases h
  · cases h

theorem postorder_of_ofTokensFrom (h : ofTokensFrom trees ts = .ok e) :
    e.postorder = postorders trees ++ ts := by
  induction ts generalizing trees with
  | nil =>
    unfold ofTokensFrom at h
    split at h
    · cases h
      simp [postorders]
    · cases h
  | cons t ts ih =>
    unfold ofTokensFrom at h
    split at h
    · next trees' hg =>
      rw [ih h, postorders_of_graft hg, List.append_assoc, List.singleton_append]
    · cases h

/-- The sequences that denote a tree are the postorders of trees. -/
theorem ofPostfix_eq_ok_iff {p : Postfix} : ofPostfix p = .ok e ↔ p = ⟨e.postorder⟩ := by
  constructor
  · intro h
    rw [postorder_of_ofTokensFrom h]
    rfl
  · rintro rfl
    exact ofPostfix_postorder e

end Expr

/-! ## Evaluation -/

theorem Expr.eval_operation (o : Operator) (l r : Expr) :
    (operation o l r).eval = l.eval.bind fun x => r.eval.bind fun y => o.apply x y := rfl

namespace Postfix

theorem fst_evaluateFrom_nil (operands : List Float) :
    (evaluateFrom operands []).1 = settle operands := rfl

theorem evaluateFrom_cons (operands : List Float) (t : Token) (ts : List Token) :
    evaluateFrom operands (t :: ts) =
      match reduce operands t with
      | .error fault => (.error fault, [.reducing t operands.length])
      | .ok operands' =>
        ((evaluateFrom operands' ts).1,
          .reducing t operands.length :: (evaluateFrom operands' ts).2) := by
  cases ht : reduce operands t <;> simp only [evaluateFrom, ht]

theorem fst_evaluateFrom_cons (operands : List Float) (t : Token) (ts : List Token) :
    (evaluateFrom operands (t :: ts)).1 =
      (reduce operands t).bind fun operands' => (evaluateFrom operands' ts).1 := by
  rw [evaluateFrom_cons]
  cases reduce operands t <;> rfl

theorem fst_evaluateFrom_postorder (e : Expr) (operands : List Float) (ts : List Token) :
    (evaluateFrom operands (e.postorder ++ ts)).1 =
      e.eval.bind fun v => (evaluateFrom (v :: operands) ts).1 := by
  induction e generalizing operands ts with
  | number x => exact fst_evaluateFrom_cons operands (.number x) ts
  | operation o l r ihl ihr =>
    rw [Expr.postorder, Expr.eval_operation, List.append_assoc, List.append_assoc, ihl]
    cases l.eval with
    | error fault => rfl
    | ok x =>
      simp only [Except.bind, ihr]
      cases r.eval with
      | error fault => rfl
      | ok y =>
        simp only [List.singleton_append, fst_evaluateFrom_cons, reduce]
        cases o.apply x y <;> rfl

/-- The postorder of a tree has the value of the tree. -/
theorem result_evaluate_postorder (e : Expr) : (evaluate ⟨e.postorder⟩).result = e.eval := by
  have := fst_evaluateFrom_postorder e [] []
  rw [List.append_nil] at this
  rw [evaluate]
  refine this.trans ?_
  cases e.eval with
  | error fault => rfl
  | ok v => exact fst_evaluateFrom_nil [v]

end Postfix

/-! ## Division by zero -/

/-- The one operation that is refused is a division by zero, of either sign. -/
theorem Operator.apply_spec (o : Operator) (x y : Float) :
    (∃ v, o.apply x y = .ok v ∧ ¬ (o = .div ∧ (y == 0.0) = true)) ∨
      (o = .div ∧ (y == 0.0) = true ∧ o.apply x y = .error .divisionByZero) := by
  cases o with
  | add => exact .inl ⟨x + y, rfl, nofun⟩
  | sub => exact .inl ⟨x - y, rfl, nofun⟩
  | mul => exact .inl ⟨x * y, rfl, nofun⟩
  | div =>
    by_cases hy : (y == 0.0) = true
    · exact .inr ⟨rfl, hy, if_pos hy⟩
    · exact .inl ⟨x / y, if_neg hy, fun h => hy h.2⟩

namespace Expr

/-- A division in the tree has a right operand with a value equal to zero. -/
inductive MeetsZeroDivisor : Expr → Prop
  | left {o : Operator} {l r : Expr} : MeetsZeroDivisor l → MeetsZeroDivisor (.operation o l r)
  | right {o : Operator} {l r : Expr} : MeetsZeroDivisor r → MeetsZeroDivisor (.operation o l r)
  | here {l r : Expr} {y : Float} :
      r.eval = .ok y → (y == 0.0) = true → MeetsZeroDivisor (.operation .div l r)

/-- A tree has a value, or it meets a zero divisor and fails with the division by it. -/
theorem eval_spec (e : Expr) :
    (¬ e.MeetsZeroDivisor ∧ ∃ v, e.eval = .ok v) ∨
      (e.MeetsZeroDivisor ∧ e.eval = .error .divisionByZero) := by
  induction e with
  | number x => exact .inl ⟨nofun, x, rfl⟩
  | operation o l r ihl ihr =>
    rw [eval_operation]
    obtain ⟨hnl, x, hx⟩ | ⟨hl, hx⟩ := ihl
    · obtain ⟨hnr, y, hy⟩ | ⟨hr, hy⟩ := ihr
      · rw [hx, hy]
        obtain ⟨v, hv, hdiv⟩ | ⟨rfl, hzero, herr⟩ := o.apply_spec x y
        · refine .inl ⟨?_, v, hv⟩
          rintro (h | h | ⟨hy', hzero⟩)
          · exact hnl h
          · exact hnr h
          · rw [hy] at hy'
            cases hy'
            exact hdiv ⟨rfl, hzero⟩
        · exact .inr ⟨.here hy hzero, herr⟩
      · rw [hx, hy]
        exact .inr ⟨.right hr, rfl⟩
    · rw [hx]
      exact .inr ⟨.left hl, rfl⟩

theorem eval_eq_divisionByZero_iff (e : Expr) :
    e.eval = .error .divisionByZero ↔ e.MeetsZeroDivisor := by
  obtain ⟨hn, v, hv⟩ | ⟨hm, he⟩ := e.eval_spec
  · rw [hv]
    exact ⟨nofun, fun hm => absurd hm hn⟩
  · exact ⟨fun _ => hm, fun _ => he⟩

theorem exists_eval_eq_ok_iff (e : Expr) : (∃ v, e.eval = .ok v) ↔ ¬ e.MeetsZeroDivisor := by
  obtain ⟨hn, v, hv⟩ | ⟨hm, he⟩ := e.eval_spec
  · exact ⟨fun _ => hn, fun _ => ⟨v, hv⟩⟩
  · rw [he]
    exact ⟨nofun, fun hn => absurd hm hn⟩

end Expr

end Reckoner
