import Reckoner.Proofs.RoundTrip

/-!
# The fewest parentheses

A sentence can say with more parentheses what the infix text of its postfix sequence says, but not
with fewer: taking away pairs that are redundant leads from the one to the other.

* `Unwraps.count_openParen`: a step takes away one pair.
* `Sentence.unwraps`: taking away pairs leads from a sentence to that of its tree.
* `Expr.tokens_text`: the text of a tree is split into the sentence of the tree.
* `infixText_fewest`: of all sentences for a sequence, its infix text has the fewest pairs, and none
  of them can be spared.
-/

namespace Reckoner

open Relation

variable {ts us : List Token} {e : Expr}

/-! ## Counting pairs -/

theorem Unwraps.count_openParen (h : Unwraps ts us) :
    us.count .openParen + 1 = ts.count .openParen := by
  obtain ⟨pre, mid, post, -, rfl, rfl⟩ := h
  have hclose : (Token.closeParen :: post).count .openParen = post.count .openParen :=
    List.count_cons_of_ne (by decide)
  rw [List.count_append, List.count_append, List.count_append, List.count_cons_self,
    List.count_append, hclose]
  omega

theorem count_openParen_le (h : ReflTransGen Unwraps ts us) :
    us.count .openParen ≤ ts.count .openParen := by
  induction h with
  | refl => exact Nat.le_refl _
  | tail _ hstep ih =>
    have := hstep.count_openParen
    omega

/-! ## Sentences and texts of a tree -/

/-- Taking away pairs of parentheses leads from a sentence to that of its tree. -/
theorem Sentence.unwraps (h : Sentence .sum ts e) : ReflTransGen Unwraps ts e.sentence := by
  rw [← Expr.within_sum]
  exact ReflTransGen.mono (fun _ _ hs => hs.2.2) _ _ h.sheds

theorem Expr.tokens_text (h : ∀ x, .number x ∈ e.postorder → Number.Plain x) :
    Lexer.tokens e.text = e.sentence := by
  have hs := e.sentence_within .sum
  rw [within_sum] at hs
  exact (writes_text h).tokens hs.apart

/-- **Fewest parentheses.** The infix text of a sequence of plain numbers is a sentence that is
converted to the sequence. Every other such sentence becomes it by taking away matching pairs of
parentheses, so none has fewer of them. No pair of the text can be taken away: what is left is no
sentence, or is converted to something else. -/
theorem infixText_fewest {p : Postfix} {text : String} (hp : p.Plain)
    (ht : p.infixText = .ok text) :
    ((∃ e, Sentence .sum (Lexer.tokens text) e) ∧
      (Postfix.convert (Lexer.tokens text)).result = .ok p) ∧
    (∀ ts e, Sentence .sum ts e → (Postfix.convert ts).result = .ok p →
      ReflTransGen Unwraps ts (Lexer.tokens text) ∧
        (Lexer.tokens text).count .openParen ≤ ts.count .openParen) ∧
    ∀ us, Unwraps (Lexer.tokens text) us →
      (∃ e, Sentence .sum us e) → (Postfix.convert us).result ≠ .ok p := by
  obtain ⟨e, he, rfl⟩ := map_eq_ok_iff.mp ht
  obtain rfl := Expr.ofPostfix_eq_ok_iff.mp he
  rw [Expr.tokens_text hp]
  have hself : Sentence .sum e.sentence e := Expr.within_sum e ▸ e.sentence_within .sum
  -- A sentence for the sequence is one of the tree, as a postorder has one tree.
  have hsheds : ∀ ts f, Sentence .sum ts f → (Postfix.convert ts).result = .ok ⟨e.postorder⟩ →
      ReflTransGen Unwraps ts e.sentence ∧ e.sentence.count .openParen ≤ ts.count .openParen := by
    intro ts f hs hc
    rw [hs.converts] at hc
    obtain rfl := Expr.postorder_injective (congrArg Postfix.tokens (Except.ok.inj hc))
    exact ⟨hs.unwraps, count_openParen_le hs.unwraps⟩
  refine ⟨⟨⟨e, hself⟩, hself.converts⟩, hsheds, fun us hu ⟨f, hs⟩ hc => ?_⟩
  have hfewer := hu.count_openParen
  have hmore := (hsheds us f hs hc).2
  omega

/-- The tree of `9 - (5 - 2) * 3`. -/
def groupedTree : Expr :=
  .operation .sub (.number 9)
    (.operation .mul (.operation .sub (.number 5) (.number 2)) (.number 3))

/-- The tokens `9 - ((5 - 2) * (3))`. -/
def regrouped : List Token :=
  [.number 9, .op .sub, .openParen, .openParen, .number 5, .op .sub, .number 2, .closeParen,
    .op .mul, .openParen, .number 3, .closeParen, .closeParen]

/-- The tokens `9 - 5 - 2 * 3`. -/
def ungrouped : List Token :=
  [.number 9, .op .sub, .number 5, .op .sub, .number 2, .op .mul, .number 3]

theorem sentence_regrouped : Sentence .sum regrouped groupedTree := by
  have difference := Sentence.paren
    (.operation (o := .sub) rfl (.next (.next (.number 5))) (.next (.number 2)))
  have three := Sentence.paren (.next (.next (.number 3)))
  have product := Sentence.paren
    (.next (.operation (o := .mul) rfl (.next difference) three))
  exact .operation (o := .sub) rfl (.next (.next (.number 9))) (.next product)

theorem exists_sentence_ungrouped : ∃ e, Sentence .sum ungrouped e := by
  have product := Sentence.operation (o := .mul) rfl (.next (.number 2)) (.number 3)
  have difference := Sentence.operation (o := .sub) rfl
    (.next (.next (.number 9))) (.next (.number 5))
  exact ⟨_, .operation (o := .sub) rfl difference product⟩

theorem unwraps_bracketed : Unwraps (Lexer.tokens "9 - (5 - 2) * 3") ungrouped := by
  refine ⟨[.number 9, .op .sub], [.number 5, .op .sub, .number 2], [.op .mul, .number 3], ?_, ?_, rfl⟩
  · decide
  · decide +kernel

/-- A sentence with pairs that can be spared, and the one pair that cannot. -/
theorem infixText_fewest_bracketed :
    bracketed.Plain ∧ bracketed.infixText = .ok "9 - (5 - 2) * 3" ∧
      ReflTransGen Unwraps regrouped (Lexer.tokens "9 - (5 - 2) * 3") ∧
      Unwraps (Lexer.tokens "9 - (5 - 2) * 3") ungrouped ∧
      (Postfix.convert ungrouped).result ≠ .ok bracketed := by
  obtain ⟨-, hfewest, hforced⟩ := infixText_fewest plain_bracketed infixText_bracketed
  exact ⟨plain_bracketed, infixText_bracketed,
    (hfewest _ _ sentence_regrouped sentence_regrouped.converts).1, unwraps_bracketed,
    hforced _ unwraps_bracketed exists_sentence_ungrouped⟩

end Reckoner
