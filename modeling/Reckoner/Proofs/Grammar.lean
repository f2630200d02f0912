import Mathlib.Data.List.Chain
import Mathlib.Logic.Relation
import Reckoner.Expr
import Reckoner.Proofs.Blocks

/-!
# The grammar of infix notation

    sum    → sum ('+' | '-') term | term
    term   → term ('*' | '/') factor | factor
    factor → number | '(' sum ')'

`Sentence rank ts e` says that the tokens `ts` are derived from `rank`, and that `e` is the
derivation with its parentheses erased.

* `Sentence.balanced`, `Sentence.apart`: parentheses pair up, and numbers do not touch.
* `Expr.sentence`: the sentence of a tree that has parentheses only where the grammar asks for
  them; `Expr.sentence_within` says that it is one.
* `Sentence.sheds`: every sentence becomes that one by taking away redundant parentheses.
-/

namespace Reckoner

/-- What tokens can be derived from. -/
inductive Rank where
  | sum
  | term
  | factor
  deriving DecidableEq, Repr

namespace Rank

/-- How tightly what is derived from a rank holds together. -/
def level : Rank → Nat
  | sum => 1
  | term => 2
  | factor => 3

/-- A sum is made of terms, and a term of factors. -/
def next : Rank → Rank
  | sum => term
  | term => factor
  | factor => factor

theorem level_le_next (rank : Rank) : rank.level ≤ rank.next.level := by
  cases rank <;> decide

end Rank

/-- Addition and subtraction make sums, multiplication and division terms. -/
def Operator.rank : Operator → Rank
  | add | sub => .sum
  | mul | div => .term

theorem Operator.level_binding (o : Operator) : o.binding.level = o.rank.level := by
  cases o <;> rfl

theorem Operator.level_next_rank (o : Operator) : o.rank.next.level = o.rank.level + 1 := by
  cases o <;> rfl

/-- The tokens are derived from the rank, and the tree is what the derivation says of them without
its parentheses. -/
inductive Sentence : Rank → List Token → Expr → Prop
  | number (x : Float) : Sentence .factor [.number x] (.number x)
  | paren {ts : List Token} {e : Expr} :
      Sentence .sum ts e → Sentence .factor (.openParen :: (ts ++ [.closeParen])) e
  | next {rank : Rank} {ts : List Token} {e : Expr} :
      Sentence rank.next ts e → Sentence rank ts e
  | operation {o : Operator} {ls rs : List Token} {l r : Expr} {rank : Rank} :
      o.rank = rank → Sentence rank ls l → Sentence rank.next rs r →
      Sentence rank (ls ++ .op o :: rs) (.operation o l r)

/-- Tokens that keep apart without a blank between them: not two numbers. -/
def Token.Apart (t u : Token) : Prop :=
  ¬ (t.isNumber = true ∧ u.isNumber = true)

namespace Sentence

variable {rank : Rank} {ts us : List Token} {e : Expr}

theorem balanced (h : Sentence rank ts e) : Balanced ts := by
  induction h with
  | number x => exact .single rfl
  | paren _ ih => exact ih.wrap
  | next _ ih => exact ih
  | operation _ _ _ ihl ihr => exact ihl.glue rfl ihr

/-- In a sentence no two numbers are neighbours. -/
theorem apart (h : Sentence rank ts e) : ts.IsChain Token.Apart := by
  induction h with
  | number x => exact .singleton _
  | paren _ ih =>
    refine List.isChain_cons.mpr ⟨?_, List.isChain_append.mpr ⟨ih, .singleton _, ?_⟩⟩ <;>
      simp [Token.Apart, Token.isNumber]
  | next _ ih => exact ih
  | operation _ _ _ ihl ihr =>
    refine List.isChain_append.mpr ⟨ihl, List.isChain_cons.mpr ⟨?_, ihr⟩, ?_⟩ <;>
      simp [Token.Apart, Token.isNumber]

/-- What holds together tightly can stand where less is asked for. -/
theorem relax {rank' : Rank} (h : Sentence rank' ts e) (hle : rank.level ≤ rank'.level) :
    Sentence rank ts e := by
  cases rank <;> cases rank' <;> simp only [Rank.level] at hle <;>
    first | exact h | exact .next h | exact .next (.next h) | omega

end Sentence

/-! ## The sentence of a tree -/

/-- Tokens in parentheses if they are needed. -/
def parenthesize (needed : Bool) (ts : List Token) : List Token :=
  if needed then .openParen :: (ts ++ [.closeParen]) else ts

namespace Expr

/-- The rank that a tree is derived from without parentheses around it. -/
def rank : Expr → Rank
  | number _ => .factor
  | operation o _ _ => o.rank

/-- The infix tokens of a tree, with parentheses around an operand that is of a lower rank than
its side asks for. -/
def sentence : Expr → List Token
  | number x => [.number x]
  | operation o left right =>
    parenthesize (left.rank.level < o.rank.level) left.sentence ++
      .op o :: parenthesize (right.rank.level < o.rank.next.level) right.sentence

/-- The infix tokens of a tree where a rank is asked for. -/
def within (rank : Rank) (e : Expr) : List Token :=
  parenthesize (e.rank.level < rank.level) e.sentence

theorem sentence_operation (o : Operator) (left right : Expr) :
    (operation o left right).sentence =
      left.within o.rank ++ .op o :: right.within o.rank.next := rfl

theorem within_of_le {e : Expr} {rank : Rank} (h : rank.level ≤ e.rank.level) :
    e.within rank = e.sentence := by
  rw [within, parenthesize, if_neg (by simpa using h)]

theorem within_of_lt {e : Expr} {rank : Rank} (h : e.rank.level < rank.level) :
    e.within rank = .openParen :: (e.sentence ++ [.closeParen]) := by
  rw [within, parenthesize, if_pos (by simpa using h)]

theorem within_sum (e : Expr) : e.within .sum = e.sentence :=
  within_of_le (by cases e.rank <;> decide)

private theorem sentence_within_of_rank {e : Expr} (h : Sentence e.rank e.sentence e)
    (rank : Rank) : Sentence rank (e.within rank) e := by
  rcases Nat.lt_or_ge e.rank.level rank.level with hlt | hle
  · rw [within_of_lt hlt]
    refine Sentence.relax (.paren (h.relax ?_)) ?_
    · cases e.rank <;> decide
    · cases rank <;> decide
  · rw [within_of_le hle]
    exact h.relax hle

theorem sentence_rank (e : Expr) : Sentence e.rank e.sentence e := by
  induction e with
  | number x => exact .number x
  | operation o left right ihl ihr =>
    rw [sentence_operation]
    exact .operation rfl (sentence_within_of_rank ihl _) (sentence_within_of_rank ihr _)

/-- The tokens of a tree are a sentence of it wherever they stand. -/
theorem sentence_within (rank : Rank) (e : Expr) : Sentence rank (e.within rank) e :=
  sentence_within_of_rank e.sentence_rank rank

end Expr

/-! ## Redundant parentheses -/

/-- A pair of parentheses of `ts`, with what is between them left in place, is missing in `us`. -/
def Unwraps (ts us : List Token) : Prop :=
  ∃ pre mid post, Balanced mid ∧ ts = pre ++ .openParen :: (mid ++ .closeParen :: post) ∧
    us = pre ++ (mid ++ post)

/-- A pair of parentheses is taken away that the tree does not depend on. -/
def Sheds (rank : Rank) (e : Expr) (ts us : List Token) : Prop :=
  Sentence rank ts e ∧ Sentence rank us e ∧ Unwraps ts us

/-- Two lists of tokens become the same by taking away and adding redundant parentheses. -/
def SameButParens : List Token → List Token → Prop :=
  Relation.EqvGen fun ts us => ∃ e, Sheds .sum e ts us

namespace Unwraps

variable {ts us : List Token}

theorem append_left (h : Unwraps ts us) (front : List Token) :
    Unwraps (front ++ ts) (front ++ us) := by
  obtain ⟨pre, mid, post, hm, rfl, rfl⟩ := h
  exact ⟨front ++ pre, mid, post, hm, by simp, by simp⟩

theorem append_right (h : Unwraps ts us) (back : List Token) :
    Unwraps (ts ++ back) (us ++ back) := by
  obtain ⟨pre, mid, post, hm, rfl, rfl⟩ := h
  exact ⟨pre, mid, post ++ back, hm, by simp, by simp⟩

end Unwraps

open Relation

namespace Sheds

variable {rank : Rank} {ts us ls rs : List Token} {e l r : Expr} {o : Operator}

/-- The pair around a whole sentence. -/
theorem outer (h : Sentence rank ts e) : Sheds rank e (.openParen :: (ts ++ [.closeParen])) ts :=
  ⟨.relax (.paren (h.relax (by cases rank <;> decide))) (by cases rank <;> decide), h,
    [], ts, [], h.balanced, by simp, by simp⟩

theorem next (h : Sheds rank.next e ts us) : Sheds rank e ts us :=
  ⟨.next h.1, .next h.2.1, h.2.2⟩

theorem paren (h : Sheds .sum e ts us) :
    Sheds .factor e (.openParen :: (ts ++ [.closeParen])) (.openParen :: (us ++ [.closeParen])) :=
  ⟨.paren h.1, .paren h.2.1, (h.2.2.append_right _).append_left [.openParen]⟩

theorem left (h : Sheds rank l ts us) (ho : o.rank = rank) (hr : Sentence rank.next rs r) :
    Sheds rank (.operation o l r) (ts ++ .op o :: rs) (us ++ .op o :: rs) :=
  ⟨.operation ho h.1 hr, .operation ho h.2.1 hr, h.2.2.append_right _⟩

theorem right (h : Sheds rank.next r ts us) (ho : o.rank = rank) (hl : Sentence rank ls l) :
    Sheds rank (.operation o l r) (ls ++ .op o :: ts) (ls ++ .op o :: us) := by
  refine ⟨.operation ho hl h.1, .operation ho hl h.2.1, ?_⟩
  have := h.2.2.append_left (ls ++ [.op o])
  rwa [List.append_assoc, List.append_assoc, List.singleton_append, List.singleton_append] at this

end Sheds

/-- Where a looser rank is asked for, a tree stands as it does where a tighter one is, or without
the parentheses it has there. -/
theorem Expr.within_sheds (e : Expr) (rank : Rank) :
    ReflTransGen (Sheds rank e) (e.within rank.next) (e.within rank) := by
  rcases Nat.lt_or_ge e.rank.level rank.next.level with hlt | hle
  · rcases Nat.lt_or_ge e.rank.level rank.level with hlt' | hle'
    · rw [within_of_lt hlt, within_of_lt hlt']
    · rw [within_of_lt hlt, within_of_le hle']
      exact .single (.outer (e.sentence_rank.relax hle'))
  · rw [within_of_le hle, within_of_le (Nat.le_trans rank.level_le_next hle)]

/-- Every sentence of a tree becomes the one with the fewest parentheses by taking away redundant
ones. -/
theorem Sentence.sheds {rank : Rank} {ts : List Token} {e : Expr} (h : Sentence rank ts e) :
    ReflTransGen (Sheds rank e) ts (e.within rank) := by
  induction h with
  | number x => exact .refl
  | @paren ts e h ih =>
    have shed := ih.lift (fun ts => .openParen :: (ts ++ [.closeParen])) fun _ _ => Sheds.paren
    rw [Expr.within_sum] at shed
    refine shed.trans ?_
    rcases Nat.lt_or_ge e.rank.level Rank.factor.level with hlt | hle
    · rw [Expr.within_of_lt hlt]
    · rw [Expr.within_of_le hle]
      exact .single (.outer (e.sentence_rank.relax hle))
  | @next rank ts e h ih =>
    have shed := ReflTransGen.mono (fun _ _ => Sheds.next) _ _ ih
    exact shed.trans (e.within_sheds rank)
  | @operation o ls rs l r rank ho hl hr ihl ihr =>
    subst ho
    -- First the left operand sheds what it can, then the right one beside it.
    have hself : (Expr.operation o l r).within o.rank = (Expr.operation o l r).sentence :=
      Expr.within_of_le (Nat.le_refl _)
    rw [hself, Expr.sentence_operation]
    have left := ihl.lift (fun ts => ts ++ .op o :: rs) fun _ _ h => Sheds.left h rfl hr
    have right := ihr.lift (fun ts => l.within o.rank ++ .op o :: ts) fun _ _ h =>
      Sheds.right h rfl (l.sentence_within o.rank)
    exact left.trans right

/-- Sentences of one tree differ in redundant parentheses only. -/
theorem Sentence.sameButParens {ts us : List Token} {e : Expr} (h : Sentence .sum ts e)
    (h' : Sentence .sum us e) : SameButParens ts us := by
  have shed {ts : List Token} (h : Sentence .sum ts e) : SameButParens ts (e.within .sum) := by
    refine EqvGen.reflTransGen_le_eqvGen _ _ _ ?_
    exact ReflTransGen.mono (fun _ _ hs => ⟨e, hs⟩) _ _ h.sheds
  exact (shed h).trans _ _ _ ((shed h').symm _ _)

end Reckoner
