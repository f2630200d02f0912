import Reckoner.Expr.Layout
import Reckoner.Number.ReadBack
import Reckoner.Proofs.Rendering

/-!
# Infix text is read back

The printer puts an operand in parentheses where it is of a lower rank than the grammar asks for on
its side of the operator. So it writes the sentence of the tree, and what it writes is a rendering.

* `Number.Plain`: the numbers that a numeral can write. `Scans.plain`: a text has no others.
* `Expr.needsParens_left`, `Expr.needsParens_right`: the rule of the printer is that of the grammar.
* `Expr.renders_text`: the text of a tree is a rendering of it.
* `infixText_converts`: the infix text of a sequence is converted to the sequence.
-/

namespace Reckoner

/-! ## Numbers of a text -/

/-- Finite, and with its sign bit clear. -/
def Number.Plain (x : Float) : Prop :=
  x.isFinite = true ∧ x.toBits.toNat < 2 ^ 63

/-- All numbers of the sequence are plain. -/
def Postfix.Plain (p : Postfix) : Prop :=
  ∀ x, .number x ∈ p.tokens → Number.Plain x

theorem Number.Plain.of_numeralValue? {m : List Char} {x : Float} (hv : numeralValue? m = some x)
    (hf : x.isFinite = true) : Number.Plain x := by
  refine ⟨hf, ?_⟩
  unfold numeralValue? at hv
  split at hv
  · cases hv
    rw [Number.toNat_toBits_nearest]
    exact Nat.lt_of_le_of_lt (Number.nearestBits_le _ _) (by decide)
  · cases hv

theorem Number.Plain.spells {x : Float} (h : Number.Plain x) :
    Spells (.number x) (Number.text x).toList :=
  .numeral (Number.numeralValue?_text h.1 h.2) h.1

/-- What is converted from a text has plain numbers. -/
theorem plain_of_result_ofText {text : String} {p : Postfix}
    (h : (Postfix.ofText text).result = .ok p) : p.Plain := by
  rw [Postfix.result_ofText] at h
  obtain ⟨out, done, hr, hp⟩ := Postfix.exists_reads_of_convert h
  intro x hx
  have hout : .number x ∈ out := by
    rw [hp] at hx
    simpa using hx
  obtain ⟨m, hv, hf⟩ := (scans_tokens text).exists_numeral (hr.mem_of_number hout)
  exact .of_numeralValue? hv hf

/-! ## Text of a tree -/

namespace Expr

variable {e l r : Expr} {o : Operator}

/-- On the left side, where an operator groups, its own rank is asked for. -/
theorem needsParens_left (o : Operator) (l : Expr) :
    needsParens o .left l = decide (l.rank.level < o.rank.level) := by
  cases l with
  | number x => cases o <;> rfl
  | operation p _ _ => cases o <;> cases p <;> rfl

/-- On the right side the next one is. -/
theorem needsParens_right (o : Operator) (r : Expr) :
    needsParens o .right r = decide (r.rank.level < o.rank.next.level) := by
  cases r with
  | number x => cases o <;> rfl
  | operation p _ _ => cases o <;> cases p <;> rfl

theorem writes_enclose {ts : List Token} {text : String} (needed : Bool)
    (h : Writes ts text.toList) :
    Writes (parenthesize needed ts) (enclose needed text).toList := by
  cases needed with
  | false => exact h
  | true =>
    have hclose : Writes (ts ++ [.closeParen]) (text.toList ++ [')']) :=
      h.append (.single (.symbol rfl))
    have htext : (enclose true text).toList = '(' :: (text.toList ++ [')']) := by
      simp [enclose]
    rw [htext]
    exact .symbol rfl hclose

/-- The text of a tree spells its sentence. -/
theorem writes_text (h : ∀ x, .number x ∈ e.postorder → Number.Plain x) :
    Writes e.sentence e.text.toList := by
  induction e with
  | number x => exact .single (h x (List.mem_singleton_self _)).spells
  | operation o l r ihl ihr =>
    have hl := ihl fun x hx => h x (List.mem_append_left _ hx)
    have hr := ihr fun x hx => h x (List.mem_append_right _ (List.mem_append_left _ hx))
    have htext : (operation o l r).text.toList =
        (enclose (needsParens o .left l) l.text).toList ++
          ' ' :: o.symbol :: ' ' :: (enclose (needsParens o .right r) r.text).toList := by
      simp [text, Operator.text]
    rw [sentence, htext, needsParens_left, needsParens_right]
    exact (writes_enclose _ hl).append
      (.blank rfl (.symbol rfl (.blank rfl (writes_enclose _ hr))))

/-- The text of a tree with plain numbers is a rendering of it. -/
theorem renders_text (h : ∀ x, .number x ∈ e.postorder → Number.Plain x) : Renders e.text e := by
  refine ⟨e.sentence, ?_, writes_text h⟩
  rw [← within_sum]
  exact e.sentence_within .sum

end Expr

/-- A sequence of plain numbers that can be written in infix notation is what its text is converted
to. -/
theorem Postfix.result_ofText_infixText {p : Postfix} {text : String} (hp : p.Plain)
    (ht : p.infixText = .ok text) : (ofText text).result = .ok p := by
  obtain ⟨e, he, rfl⟩ := map_eq_ok_iff.mp ht
  obtain rfl := Expr.ofPostfix_eq_ok_iff.mp he
  exact (Expr.renders_text hp).result_ofText

/-- **Round trip.** A sequence of plain numbers that can be written in infix notation is what its
text is converted to. What is converted from a text, a sentence or not, has plain numbers, so it is
got back from its infix text. -/
theorem infixText_converts :
    (∀ {p : Postfix} {text : String}, p.Plain → p.infixText = .ok text →
      (Postfix.ofText text).result = .ok p) ∧
    ∀ {source : String} {p : Postfix}, (Postfix.ofText source).result = .ok p →
      p.Plain ∧ ∀ {text : String}, p.infixText = .ok text → (Postfix.ofText text).result = .ok p := by
  refine ⟨Postfix.result_ofText_infixText, fun h => ?_⟩
  have hp := plain_of_result_ofText h
  exact ⟨hp, Postfix.result_ofText_infixText hp⟩

/-- The sequence `9 5 2 - 3 * -`. -/
def bracketed : Postfix :=
  ⟨[.number 9, .number 5, .number 2, .op .sub, .number 3, .op .mul, .op .sub]⟩

theorem plain_bracketed : bracketed.Plain := by
  intro x hx
  simp only [bracketed, List.mem_cons, Token.number.injEq, reduceCtorEq, List.not_mem_nil,
    false_or, or_false] at hx
  rcases hx with rfl | rfl | rfl | rfl <;> exact ⟨by decide, by decide⟩

theorem infixText_bracketed : bracketed.infixText = .ok "9 - (5 - 2) * 3" :=
  congrArg Except.ok (by decide)

/-- The sequence `1 2 +`. -/
def summed : Postfix :=
  ⟨[.number 1, .number 2, .op .add]⟩

/-- Its operator is in the parentheses and its left operand before them. -/
theorem result_ofText_misplaced : (Postfix.ofText "1(+2)").result = .ok summed := by
  have hw : Writes [.number 1, .openParen, .op .add, .number 2, .closeParen] "1(+2)".toList := by
    refine .number ['1'] (by decide) (by decide) (.symbol rfl (.symbol rfl ?_))
    refine .number ['2'] (by decide) (by decide) (.symbol rfl ?_)
    exact .nil (List.forall_mem_nil _)
  rw [Postfix.result_ofText, hw.tokens (by simp [Token.Apart, Token.isNumber])]
  simp [Postfix.result_convert, summed, Postfix.fst_convertFrom_cons, Postfix.shunt,
    Postfix.release, Postfix.unwind, Postfix.flush, Except.map]

theorem infixText_summed : summed.infixText = .ok "1 + 2" :=
  congrArg Except.ok (by decide)

/-- A sequence, and what a text that is no sentence is converted to. -/
theorem infixText_converts_bracketed :
    (Postfix.ofText "9 - (5 - 2) * 3").result = .ok bracketed ∧
      (Postfix.ofText "1(+2)").result = .ok summed ∧
      (Postfix.ofText "1 + 2").result = .ok summed :=
  ⟨infixText_converts.1 plain_bracketed infixText_bracketed, result_ofText_misplaced,
    (infixText_converts.2 result_ofText_misplaced).2 infixText_summed⟩

end Reckoner
