import Reckoner.Proofs.Blocks
import Reckoner.Proofs.Shunting

/-!
# A conversion keeps its tokens

A conversion moves tokens and makes none: what it has emitted and what still waits are the tokens
that it has read, without the parentheses.

* `held`: the operators that wait.
* `Shunts.conserves`, `Reads.conserves`, `perm_of_convert`: a step, a run and a conversion keep all
  tokens.
* `countP_of_convert`: numbers and operators can be counted before the conversion or after it.
-/

namespace Reckoner

/-- The token that is still to be emitted. A parenthesis emits none. -/
def Pending.emits? : Pending → Option Token
  | operator o => some (.op o)
  | paren => none

namespace Postfix

variable {waiting rest : List Pending} {t : Token} {ts emitted : List Token} {p : Postfix}

/-- The operators that wait, the latest first. -/
def held (waiting : List Pending) : List Token :=
  waiting.filterMap Pending.emits?

@[simp] theorem held_operator_cons (o : Operator) (waiting : List Pending) :
    held (.operator o :: waiting) = .op o :: held waiting := rfl

@[simp] theorem held_paren_cons (waiting : List Pending) :
    held (.paren :: waiting) = held waiting := rfl

@[simp] theorem held_operators_append (done : List Operator) (waiting : List Pending) :
    held (done.map .operator ++ waiting) = done.map .op ++ held waiting := by
  induction done with
  | nil => rfl
  | cons o done ih => simp [ih]

/-- What waits is parentheses and operators. -/
theorem length_eq_count_add_held (waiting : List Pending) :
    waiting.length = waiting.count .paren + (held waiting).length := by
  induction waiting with
  | nil => rfl
  | cons p waiting ih =>
    cases p with
    | paren =>
      rw [List.count_cons_self, held_paren_cons, List.length_cons]
      omega
    | operator o =>
      have hne : Pending.operator o ≠ .paren := nofun
      rw [List.count_cons_of_ne hne, held_operator_cons, List.length_cons, List.length_cons]
      omega

/-- A token is emitted, starts to wait, or is a parenthesis. -/
theorem Shunts.conserves (h : Shunts waiting t emitted rest) :
    (emitted ++ held rest).Perm (held waiting ++ [t].filter (!·.isParen)) := by
  cases h with
  | number _ x => exact List.perm_append_comm
  | openParen => simp [Token.isParen]
  | closeParen done rest => simp [Token.isParen]
  | @op o done stay leave remain =>
    have hself : [Token.op o].filter (!·.isParen) = [.op o] := rfl
    rw [held_operator_cons, held_operators_append, hself]
    exact List.perm_middle.trans (List.perm_append_singleton _ _).symm

/-- What a run emits and leaves waiting is what waited and what it has read. -/
theorem Reads.conserves (h : Reads waiting ts emitted rest) :
    (emitted ++ held rest).Perm (held waiting ++ ts.filter (!·.isParen)) := by
  induction h with
  | nil => simp
  | @cons waiting middle rest t ts out more ht _ ih =>
    have hcut : (t :: ts).filter (!·.isParen) =
        [t].filter (!·.isParen) ++ ts.filter (!·.isParen) := List.filter_append [t] ts
    rw [hcut, List.append_assoc, ← List.append_assoc (held waiting)]
    refine (ih.append_left out).trans ?_
    rw [← List.append_assoc]
    exact ht.conserves.append_right _

/-- A conversion that succeeds answers the tokens that are no parentheses, in some order. -/
theorem perm_of_convert (h : (convert ts).result = .ok p) :
    p.tokens.Perm (ts.filter (!·.isParen)) := by
  obtain ⟨emitted, done, hr, hp⟩ := exists_reads_of_convert h
  have hall := hr.conserves
  have hheld := held_operators_append done []
  rw [List.append_nil] at hheld
  rw [hheld] at hall
  simpa [hp, held] using hall

/-- Tokens of a kind that has no parentheses can be counted on either side of a conversion. -/
theorem countP_of_convert (h : (convert ts).result = .ok p) {kind : Token → Bool}
    (hkind : ∀ t, kind t = true → t.isParen = false) : p.tokens.countP kind = ts.countP kind := by
  rw [(perm_of_convert h).countP_eq, List.countP_filter]
  refine List.countP_congr fun t _ => ?_
  cases hk : kind t with
  | false => simp
  | true => simp [hkind t hk]

theorem countP_isNumber_of_convert (h : (convert ts).result = .ok p) :
    p.tokens.countP Token.isNumber = ts.countP Token.isNumber :=
  countP_of_convert h fun t ht => by cases t <;> first | rfl | cases ht

theorem countP_isOperator_of_convert (h : (convert ts).result = .ok p) :
    p.tokens.countP Token.isOperator = ts.countP Token.isOperator :=
  countP_of_convert h fun t ht => by cases t <;> first | rfl | cases ht

end Postfix

end Reckoner
