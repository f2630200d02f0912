import Mathlib.Data.List.Chain
import Reckoner.Proofs.Conservation
import Reckoner.Proofs.EmissionOrder
import Reckoner.Proofs.PostfixOrder

/-!
# The depth of the stack

An operator that starts to wait makes those give way that hold as tight, so between two open
parentheses the operators hold tighter and tighter from below. As there are two levels, at most two
operators wait for each open parenthesis and two more, however long the tokens are.

* `stateAfter`: what has been emitted and what waits between two tokens.
  `fst_convertFrom_append`: a conversion goes on from it.
* `Rising`: how what waits lies on the stack. `Shunts.rising`, `Reads.rising`: a step and a run keep it
  so. `Rising.length_le`, `Rising.length_le_depth`: it is not deep.
* `Consistent`, `Reads.consistent`: what holds between two tokens.
* `consistent_stateAfter`: it does as long as no token is refused.
-/

namespace Reckoner

/-- An operator lies on what holds less tight. A parenthesis lies on anything. -/
def Pending.LiesOn (upper lower : Pending) : Prop :=
  upper = paren ∨ lower.level < upper.level

theorem Pending.level_le_two (p : Pending) : p.level ≤ 2 := by
  cases p with
  | operator o => cases o <;> decide
  | paren => decide

namespace Postfix

variable {waiting rest : List Pending} {t : Token} {ts before emitted out : List Token}
variable {ops : List Operator} {p : Pending}

/-! ## Between two tokens -/

/-- What has been emitted and what waits once a token is read, if it is not refused. -/
def advance (s : List Token × List Pending) (t : Token) :
    Except ConversionFault (List Token × List Pending) :=
  (shunt s.2 t).map fun next => (s.1 ++ next.1, next.2)

/-- What has been emitted and what waits, the latest first, once the tokens are read, if none of them is
refused. -/
def stateAfter (ts : List Token) : Except ConversionFault (List Token × List Pending) :=
  ts.foldlM advance ([], [])

theorem foldlM_advance_eq_ok_iff {s : List Token × List Pending} :
    ts.foldlM advance (out, waiting) = .ok s ↔
      ∃ emitted, s.1 = out ++ emitted ∧ Reads waiting ts emitted s.2 := by
  induction ts generalizing out waiting with
  | nil =>
    constructor
    · rintro ⟨⟩
      exact ⟨[], (List.append_nil out).symm, .nil waiting⟩
    · rintro ⟨emitted, hout, hr⟩
      cases hr
      rw [List.append_nil] at hout
      exact congrArg Except.ok (Prod.ext hout.symm rfl)
  | cons t ts ih =>
    rw [List.foldlM_cons]
    constructor
    · intro h
      obtain ⟨middle, ht, h⟩ := bind_eq_ok_iff.mp h
      obtain ⟨next, hs, rfl⟩ := map_eq_ok_iff.mp ht
      obtain ⟨more, hout, hr⟩ := ih.mp h
      exact ⟨next.1 ++ more, by rw [hout, List.append_assoc], .cons (shunt_eq_ok_iff.mp hs) hr⟩
    · rintro ⟨emitted, hout, hr⟩
      obtain _ | @⟨_, middle, _, _, _, now, more, ht, hr⟩ := hr
      refine bind_eq_ok_iff.mpr ⟨(out ++ now, middle), ?_, ih.mpr ⟨more, ?_, hr⟩⟩
      · exact map_eq_ok_iff.mpr ⟨(now, middle), shunt_eq_ok_iff.mpr ht, rfl⟩
      · rw [hout, List.append_assoc]

/-- The tokens are read without a fault exactly if they are a run. -/
theorem stateAfter_eq_ok_iff :
    stateAfter ts = .ok (emitted, waiting) ↔ Reads [] ts emitted waiting := by
  rw [stateAfter, foldlM_advance_eq_ok_iff]
  constructor
  · rintro ⟨more, rfl, hr⟩
    exact hr
  · exact fun hr => ⟨emitted, rfl, hr⟩

/-- A conversion goes on from the state between two tokens, and has failed if there is none. -/
theorem fst_convertFrom_append (before after : List Token) :
    (convertFrom [] (before ++ after)).1 =
      (stateAfter before).bind fun s => (convertFrom s.2 after).1.map (s.1 ++ ·) := by
  rcases reads_or_stops [] before with
    ⟨emitted, rest, hr⟩ | ⟨pre, t, post, emitted, rest, fault, rfl, hr, hf⟩
  · rw [stateAfter_eq_ok_iff.mpr hr]
    exact hr.fst_convertFrom_append after
  · -- The token at which the run stops ends the conversion too, with the same fault.
    have hfault : stateAfter (pre ++ t :: post) = .error fault := by
      rw [stateAfter, List.foldlM_append, ← stateAfter, stateAfter_eq_ok_iff.mpr hr]
      show List.foldlM advance (emitted, rest) (t :: post) = .error fault
      rw [List.foldlM_cons, advance, hf]
      rfl
    rw [hfault, List.append_assoc, List.cons_append, hr.fst_convertFrom_append,
      fst_convertFrom_cons, hf]
    rfl

/-! ## How what waits lies on the stack -/

/-- All that waits lies on what waits below it. -/
def Rising (waiting : List Pending) : Prop :=
  waiting.IsChain Pending.LiesOn

theorem Shunts.rising (h : Shunts waiting t emitted rest) (hw : Rising waiting) : Rising rest := by
  cases h with
  | number => exact hw
  | openParen => exact List.isChain_cons.mpr ⟨fun _ _ => .inl rfl, hw⟩
  | closeParen => exact hw.right_of_append.tail
  | op _ remain =>
    refine List.isChain_cons.mpr ⟨fun p hp => .inr ?_, hw.right_of_append⟩
    exact Pending.yieldsTo_eq_false_iff.mp (remain p hp)

theorem Reads.rising (h : Reads waiting ts emitted rest) (hw : Rising waiting) : Rising rest := by
  induction h with
  | nil => exact hw
  | cons ht _ ih => exact ih (ht.rising hw)

/-- Where no parenthesis is between them, operators hold tighter from below. -/
theorem Rising.pairwise (h : Rising (ops.map .operator)) :
    (ops.map (·.binding.level)).Pairwise (· > ·) := by
  rw [← List.isChain_iff_pairwise, List.isChain_map]
  refine ((List.isChain_map _).mp h).imp fun o p hlies => ?_
  rcases hlies with hparen | hlevel
  · cases hparen
  · rwa [gt_iff_lt, Operator.level_binding, Operator.level_binding]

/-- What waits lies at most as deep as it holds, and three more for each parenthesis. -/
theorem Rising.length_le (h : Rising (p :: waiting)) :
    (p :: waiting).length ≤ 3 * (p :: waiting).count .paren + p.level := by
  induction waiting generalizing p with
  | nil => cases p with
    | operator o => cases o <;> decide
    | paren => decide
  | cons q waiting ih =>
    obtain ⟨hlies, hrest⟩ := List.isChain_cons_cons.mp h
    have hbelow := ih hrest
    have hlevel := q.level_le_two
    rw [List.length_cons]
    cases p with
    | paren =>
      rw [List.count_cons_self]
      omega
    | operator o =>
      have hne : Pending.operator o ≠ .paren := by rintro ⟨⟩
      have htighter := hlies.resolve_left hne
      rw [List.count_cons_of_ne hne]
      omega

/-- The stack holds at most two operators for each open parenthesis, with the parenthesis, and two
more. -/
theorem Rising.length_le_depth (h : Rising waiting) :
    waiting.length ≤ 3 * waiting.count .paren + 2 := by
  cases waiting with
  | nil => exact Nat.zero_le _
  | cons p waiting =>
    have hlevel := p.level_le_two
    have hlength := h.length_le
    omega

/-! ## The invariant -/

/-- What holds between two tokens, with `before` read, `emitted` emitted and `waiting` on the stack, the
latest first. -/
structure Consistent (before emitted : List Token) (waiting : List Pending) : Prop where
  /-- Parentheses and operators wait. -/
  waits : ∀ t ∈ waiting.map Pending.token, t = .openParen ∨ t.isOperator = true
  /-- As many parentheses wait as are open. -/
  opened : waiting.count .paren + before.count .closeParen = before.count .openParen
  /-- Of the operators that wait with no parenthesis between them, the later ones hold tighter. -/
  rises : ∀ (above : List Pending) (ops : List Operator) (below : List Pending),
    waiting = above ++ (ops.map .operator ++ below) →
      (ops.map (·.binding.level)).Pairwise (· > ·)
  /-- Numbers and operators have been emitted. -/
  terms : ∀ t ∈ emitted, t.isTerm = true
  /-- A token has been emitted, waits, or is a parenthesis of a pair. -/
  counts : emitted.length + waiting.length + 2 * before.count .closeParen = before.length

/-- Tokens are parentheses of either side or are kept. -/
theorem length_filter_add_count (ts : List Token) :
    (ts.filter (!·.isParen)).length + ts.count .openParen + ts.count .closeParen = ts.length := by
  induction ts with
  | nil => rfl
  | cons t ts ih =>
    have hfirst : ([t].filter (!·.isParen)).length + [t].count .openParen + [t].count .closeParen =
        [t].length := by
      cases t <;> rfl
    rw [← List.singleton_append, List.filter_append, List.count_append, List.count_append,
      List.length_append, List.length_append]
    omega

/-- A run from nothing keeps the invariant: the tokens are conserved, the parentheses that wait are
those that are open, and what waits rises. -/
theorem Reads.consistent (h : Reads [] before emitted waiting) : Consistent before emitted waiting := by
  have hrising : Rising waiting := h.rising .nil
  have hopened : waiting.count .paren + before.count .closeParen = before.count .openParen := by
    have hdepth := h.count_paren
    rw [depth_eq_count, List.count_nil] at hdepth
    omega
  have hcounts : emitted.length + waiting.length + 2 * before.count .closeParen = before.length := by
    have hall : emitted.length + (held waiting).length = (before.filter (!·.isParen)).length := by
      simpa [held] using h.conserves.length_eq
    have hwait := length_eq_count_add_held waiting
    have hread := length_filter_add_count before
    omega
  refine ⟨fun t ht => ?_, hopened, ?_, fun t => h.isTerm, hcounts⟩
  · obtain ⟨p, -, rfl⟩ := List.mem_map.mp ht
    cases p with
    | operator o => exact .inr rfl
    | paren => exact .inl rfl
  · rintro above ops below rfl
    exact Rising.pairwise hrising.right_of_append.left_of_append

end Postfix

open Postfix

/-- **Stack depth.** A conversion goes on from the state between two tokens, as long as none is refused.
In such a state parentheses and operators wait, as many parentheses as are open, and the operators
between two of them hold tighter and tighter. Numbers and operators have been emitted, and all tokens
that have been read are accounted for. So the stack is no deeper than three for each open parenthesis and
two more. -/
theorem consistent_stateAfter (before after : List Token) :
    (convertFrom [] (before ++ after)).1 =
      ((stateAfter before).bind fun s => (convertFrom s.2 after).1.map (s.1 ++ ·)) ∧
    ∀ emitted waiting, stateAfter before = .ok (emitted, waiting) →
      Consistent before emitted waiting ∧ waiting.length ≤ 3 * waiting.count .paren + 2 := by
  refine ⟨fst_convertFrom_append before after, fun emitted waiting h => ?_⟩
  have hr := stateAfter_eq_ok_iff.mp h
  exact ⟨hr.consistent, (hr.rising .nil).length_le_depth⟩

/-- The tokens `1 + 2 * ( 3 - 4 / 5`. With one parenthesis open no stack is deeper than after them. -/
def steep : List Token :=
  [.number 1, .op .add, .number 2, .op .mul, .openParen, .number 3, .op .sub, .number 4, .op .div,
    .number 5]

/-- What waits after `steep`. -/
def steepStack : List Pending :=
  [.operator .div, .operator .sub, .paren, .operator .mul, .operator .add]

theorem stateAfter_steep :
    stateAfter steep = .ok ([.number 1, .number 2, .number 3, .number 4, .number 5], steepStack) :=
  rfl

/-- The bound is met. -/
theorem consistent_steep :
    Consistent steep [.number 1, .number 2, .number 3, .number 4, .number 5] steepStack ∧
      steepStack.length = 3 * steepStack.count .paren + 2 := by
  obtain ⟨hconsistent, hlength⟩ := (consistent_stateAfter steep []).2 _ _ stateAfter_steep
  have hdeep : 3 * steepStack.count .paren + 2 ≤ steepStack.length := by decide
  exact ⟨hconsistent, Nat.le_antisymm hlength hdeep⟩

end Reckoner
