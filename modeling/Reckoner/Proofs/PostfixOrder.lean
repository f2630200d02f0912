import Reckoner.Proofs.Grammar
import Reckoner.Proofs.Shunting

/-!
# Conversion of sentences

The conversion builds no tree. While a sentence is read, its right edge is kept as the operators
that wait: they bind at least as tight as the rank of the sentence, so whatever comes after it
applies all of them, and what waited before stays below them untouched.

* `Sentence.reads`: what a sentence emits, and what it leaves waiting.
* `Sentence.unique`: no sentence has two trees.
* `convert_sentence`: a sentence is converted to the postorder of its tree, and two sentences to
  the same sequence exactly when they differ in redundant parentheses only.
-/

namespace Reckoner

open Postfix

variable {rank : Rank} {ts us : List Token} {e f : Expr}

/-- How tightly what waits holds what comes next; a parenthesis does not hold it at all. -/
def Pending.level : Pending → Nat
  | operator o => o.rank.level
  | paren => 0

/-- What waits stays where an operator comes that holds tighter. -/
theorem Pending.yieldsTo_eq_false_iff {p : Pending} {o : Operator} :
    p.yieldsTo o = false ↔ p.level < o.rank.level := by
  cases p with
  | paren =>
    have hpos : 0 < o.rank.level := by cases o <;> decide
    exact iff_of_true rfl hpos
  | operator q =>
    rw [yieldsTo, Bool.eq_false_iff, Ne, Operator.appliesBefore_iff, Operator.level_binding,
      Operator.level_binding]
    exact Nat.not_le

/-- The operators of a sentence that still wait when it has been read are the last ones of its
postorder. They bind at least as tight as its rank. -/
theorem Sentence.reads (h : Sentence rank ts e) {waiting : List Pending}
    (hw : ∀ p ∈ waiting.head?, p.level < rank.level) :
    ∃ (out : List Token) (held : List Operator),
      Reads waiting ts out (held.map .operator ++ waiting) ∧
        out ++ held.map .op = e.postorder ∧ ∀ o ∈ held, rank.level ≤ o.rank.level := by
  induction h generalizing waiting with
  | number x => exact ⟨[.number x], [], .single (.number waiting x), rfl, by simp⟩
  | @paren ts e h ih =>
    have htop : ∀ p ∈ (Pending.paren :: waiting).head?, p.level < Rank.sum.level := by
      simp [Pending.level, Rank.level]
    obtain ⟨out, held, hr, ho, -⟩ := ih htop
    refine ⟨e.postorder, [], ?_, by simp, by simp⟩
    rw [← ho, ← List.nil_append (out ++ _)]
    exact .cons (.openParen waiting) (hr.append (.single (.closeParen held waiting)))
  | @next rank ts e h ih =>
    obtain ⟨out, held, hr, ho, hl⟩ := ih fun p hp => Nat.lt_of_lt_of_le (hw p hp) rank.level_le_next
    exact ⟨out, held, hr, ho, fun o hm => Nat.le_trans rank.level_le_next (hl o hm)⟩
  | @operation o ls rs l r rank ho hl hr ihl ihr =>
    subst ho
    -- All that the left operand holds leaves at the operator, and nothing below it does.
    obtain ⟨out, held, hrl, hol, hheld⟩ := ihl hw
    have htop : ∀ p ∈ (Pending.operator o :: waiting).head?, p.level < o.rank.next.level := by
      simp [Pending.level, Operator.level_next_rank]
    obtain ⟨out', held', hrr, hor, hheld'⟩ := ihr htop
    have hop : Shunts (held.map .operator ++ waiting) (.op o) (held.map .op)
        (.operator o :: waiting) := by
      refine .op (fun d hd => ?_) fun p hp => Pending.yieldsTo_eq_false_iff.mpr (hw p hp)
      rw [Operator.appliesBefore_iff, Operator.level_binding, Operator.level_binding]
      exact hheld d hd
    refine ⟨l.postorder ++ out', held' ++ [o], ?_, ?_, ?_⟩
    · rw [← hol, List.append_assoc, List.map_append, List.append_assoc]
      exact hrl.append (.cons hop hrr)
    · rw [Expr.postorder, ← hor]
      simp
    · intro p hp
      rcases List.mem_append.mp hp with hp | hp
      · exact Nat.le_trans (Rank.level_le_next _) (hheld' p hp)
      · rw [List.mem_singleton.mp hp]

/-- A sentence is converted to the postorder of its tree. -/
theorem Sentence.converts (h : Sentence .sum ts e) :
    (Postfix.convert ts).result = .ok ⟨e.postorder⟩ := by
  have htop : ∀ p ∈ ([] : List Pending).head?, p.level < Rank.sum.level := by simp
  obtain ⟨out, held, hr, ho, -⟩ := h.reads htop
  rw [List.append_nil] at hr
  exact result_convert_eq_ok_iff.mpr
    ⟨out, _, _, hr, flush_eq_ok_iff.mpr ⟨held, rfl, rfl⟩, ho.symm⟩

/-- No sentence has two trees. -/
theorem Sentence.unique (h : Sentence .sum ts e) (h' : Sentence .sum ts f) : e = f := by
  have := h.converts
  rw [h'.converts] at this
  exact (Expr.postorder_injective (congrArg Postfix.tokens (Except.ok.inj this))).symm

/-- Redundant parentheses do not change what a sentence says. -/
theorem SameButParens.sentence_iff (h : SameButParens ts us) :
    Sentence .sum ts e ↔ Sentence .sum us e := by
  induction h with
  | rel ts us h =>
    obtain ⟨f, hts, hus, -⟩ := h
    exact ⟨fun h => h.unique hts ▸ hus, fun h => h.unique hus ▸ hts⟩
  | refl ts => exact Iff.rfl
  | symm ts us _ ih => exact ih.symm
  | trans ts us vs _ _ ih ih' => exact ih.trans ih'

/-- **Sentences.** A sentence is converted to the postorder of its tree. So two sentences are
converted to the same sequence exactly when they have the same tree, which is when they differ in
redundant parentheses only. -/
theorem convert_sentence (h : Sentence .sum ts e) :
    (Postfix.convert ts).result = .ok ⟨e.postorder⟩ ∧
      ∀ {us : List Token} {f : Expr}, Sentence .sum us f →
        ((Postfix.convert ts).result = (Postfix.convert us).result ↔ e = f) ∧
          (e = f ↔ SameButParens ts us) := by
  refine ⟨h.converts, fun {us f} h' => ⟨?_, ?_⟩⟩
  · rw [h.converts, h'.converts]
    constructor
    · intro heq
      exact Expr.postorder_injective (congrArg Postfix.tokens (Except.ok.inj heq))
    · rintro rfl
      rfl
  · constructor
    · rintro rfl
      exact h.sameButParens h'
    · intro hsame
      exact (hsame.sentence_iff.mp h).unique h'

/-- The tree of `8 - 2 * (3 + 4) - 1`. -/
def chained : Expr :=
  .operation .sub
    (.operation .sub (.number 8)
      (.operation .mul (.number 2) (.operation .add (.number 3) (.number 4))))
    (.number 1)

/-- The tokens `( 8 - ( 2 ) * ( ( 3 + 4 ) ) ) - 1`. -/
def wrapped : List Token :=
  [.openParen, .number 8, .op .sub, .openParen, .number 2, .closeParen, .op .mul, .openParen,
    .openParen, .number 3, .op .add, .number 4, .closeParen, .closeParen, .closeParen, .op .sub,
    .number 1]

theorem sentence_wrapped : Sentence .sum wrapped chained := by
  have two := Sentence.paren (.next (.next (.number 2)))
  have seven := Sentence.paren (.next (.next (.paren
    (.operation (o := .add) rfl (.next (.next (.number 3))) (.next (.number 4))))))
  have product := Sentence.operation (o := .mul) rfl (.next two) seven
  have difference := Sentence.paren
    (.operation (o := .sub) rfl (.next (.next (.number 8))) product)
  exact .operation (o := .sub) rfl (.next (.next difference)) (.next (.number 1))

/-- The parentheses of `wrapped` that are redundant make no difference. -/
theorem convert_wrapped :
    (Postfix.convert wrapped).result = .ok ⟨chained.postorder⟩ ∧
      (Postfix.convert wrapped).result = (Postfix.convert chained.sentence).result ∧
      SameButParens wrapped chained.sentence := by
  have h := convert_sentence sentence_wrapped
  have h' := h.2 (chained.sentence_within .sum)
  exact ⟨h.1, h'.1.mpr rfl, h'.2.mp rfl⟩

end Reckoner
