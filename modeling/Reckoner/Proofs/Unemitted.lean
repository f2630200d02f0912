import Reckoner.Proofs.Conservation
import Reckoner.Proofs.EmissionOrder

/-!
# Operators that are not emitted yet

Between two tokens of a conversion, the operators that have been read and not emitted are those
that no later token has freed so far. That is told from the tokens before alone, balanced or not:
closing the parentheses that are open makes them balanced and frees no operator earlier.

* `Frees`, `Unfreed`, `unemitted`: the operators that wait, told from the tokens.
* `Reads.balanced_close`: the tokens of a run, with the open parentheses closed.
* `frees_iff`: in them, to be freed is to be released.
* `Reads.length_held`: `unemitted` counts the operators on the stack.
* `Reads.countP_isOperator`: it counts the operators that are read and not emitted.
-/

namespace Reckoner

/-- The token at position `k` frees the operator at position `j`: the tokens between are balanced,
and it closes their block or is an operator that the one at `j` is applied before. -/
def Frees (ts : List Token) (j k : Nat) : Prop :=
  j < k ∧ Balanced (stretch ts (j + 1) k) ∧
    ∃ t ∈ ts[j]?, ∃ u ∈ ts[k]?, u = .closeParen ∨ t.appliesBefore u = true

instance (ts : List Token) (j k : Nat) : Decidable (Frees ts j k) :=
  inferInstanceAs (Decidable (_ ∧ _))

/-- The token at position `j` is an operator that no token after it frees. -/
def Unfreed (ts : List Token) (j : Nat) : Prop :=
  ts[j]?.any Token.isOperator = true ∧ ∀ k < ts.length, ¬ Frees ts j k

instance (ts : List Token) (j : Nat) : Decidable (Unfreed ts j) :=
  inferInstanceAs (Decidable (_ ∧ _))

/-- How many operators are read with the tokens and not emitted by then. -/
def unemitted (ts : List Token) : Nat :=
  (List.range ts.length).countP fun j => Unfreed ts j

/-! ## Closing what is open -/

theorem depth_replicate_closeParen (n : Nat) :
    depth (List.replicate n .closeParen) = -(n : Int) := by
  induction n with
  | zero => rfl
  | succ n ih =>
    rw [List.replicate_succ, depth_cons, ih, Token.weight_closeParen]
    omega

open Postfix

variable {ts us emitted : List Token} {rest : List Pending} {i j k : Nat} {o : Operator}

/-- The tokens of a run are balanced once the parentheses that it leaves open are closed. -/
theorem Postfix.Reads.balanced_close (h : Reads [] ts emitted rest) :
    Balanced (ts ++ List.replicate (rest.count .paren) .closeParen) := by
  have hdepth := h.count_paren
  rw [List.count_nil] at hdepth
  refine ⟨?_, fun pre hp => ?_⟩
  · rw [depth_append, depth_replicate_closeParen]
    omega
  · rcases prefix_append_cases hp with ⟨after, rfl⟩ | ⟨more, hmore, rfl⟩
    · obtain ⟨out, middle, last, ho, -, -⟩ := reads_append_iff.mp h
      have := ho.count_paren
      rw [List.count_nil] at this
      omega
    · obtain ⟨hle, hmore⟩ := List.prefix_replicate_iff.mp hmore
      rw [depth_append, hmore, depth_replicate_closeParen]
      omega

/-! ## What is freed is released -/

theorem stretch_append_left (h : k ≤ ts.length) (us : List Token) :
    stretch (ts ++ us) i k = stretch ts i k := by
  unfold stretch
  by_cases hi : i ≤ ts.length
  · rw [List.drop_append_of_le_length hi, List.take_append_of_le_length]
    rw [List.length_drop]
    omega
  · rw [show k - i = 0 by omega, List.take_zero, List.take_zero]

/-- What follows the tokens does not matter for what they free, and closes no block earlier. -/
theorem frees_iff (hb : Balanced (ts ++ us)) (hj : ts[j]? = some (.op o)) (hk : k < ts.length) :
    Frees ts j k ↔ Releases (ts ++ us) j k := by
  have hjlt := (List.getElem?_eq_some_iff.mp hj).1
  have hj' : (ts ++ us)[j]? = some (.op o) := by rw [List.getElem?_append_left hjlt, hj]
  have hku : ts[k]? = some ts[k] := List.getElem?_eq_getElem hk
  have hk' : (ts ++ us)[k]? = some ts[k] := by rw [List.getElem?_append_left hk, hku]
  rw [releases_iff hb hj' hk', stretch_append_left (Nat.le_of_lt hk), Frees, hj, hku]
  simp only [Option.mem_def, Option.some.injEq, exists_eq_left']

/-- A token that is emitted early has been released. -/
theorem exists_releases (hj : ts[j]? = some (.op o)) (h : emissionTime ts j < ts.length) :
    Releases ts j (emissionTime ts j) := by
  simp only [emissionTime, hj] at h ⊢
  cases hf : (List.range ts.length).find? fun k => Releases ts j k with
  | none =>
    rw [hf] at h
    exact absurd h (Nat.lt_irrefl _)
  | some k => simpa using List.find?_some hf

/-- Positions that wait come in falling order. -/
theorem Nested.pairwise {waits : List Nat} (h : Nested ts k waits) : waits.Pairwise (· > ·) := by
  induction waits generalizing k with
  | nil => exact .nil
  | cons j waits ih => exact .cons (fun i hi => h.2.2.lt_of_mem hi) (ih h.2.2)

/-- Of the positions that wait after the tokens, the operators are those that are not freed. -/
theorem Progress.mem_waits_iff {order waits : List Nat} (hb : Balanced (ts ++ us))
    (h : Progress (ts ++ us) ts.length order waits) (hj : ts[j]? = some (.op o)) :
    j ∈ waits ↔ Unfreed ts j := by
  have hlt := (List.getElem?_eq_some_iff.mp hj).1
  have hj' : (ts ++ us)[j]? = some (.op o) := by rw [List.getElem?_append_left hlt, hj]
  constructor
  · intro hw
    refine ⟨by simp [hj, Token.isOperator], fun k hk hfree => ?_⟩
    exact h.unreleased j hw o hj' k hk ((frees_iff hb hj hk).mp hfree)
  · rintro ⟨-, hkeep⟩
    rcases (h.mem_iff j).mpr ⟨hlt, _, hj', rfl⟩ with ho | ⟨hw, -⟩
    · have hearly := h.early j ho
      have hle : ts.length ≤ (ts ++ us).length := by simp
      have hr := exists_releases hj' (Nat.lt_of_lt_of_le hearly hle)
      exact absurd ((frees_iff hb hj hearly).mpr hr) (hkeep _ hearly)
    · exact hw

/-! ## Counting what waits -/

theorem exists_op_of_isOperator {t? : Option Token} (h : t?.any Token.isOperator = true) :
    ∃ o, t? = some (.op o) := by
  obtain ⟨t, rfl, ht⟩ := (Option.any_eq_true _ _).mp h
  cases t with
  | op o => exact ⟨o, rfl⟩
  | _ => cases ht

/-- The operators on a stack are counted by their tokens. -/
theorem Postfix.length_held_eq_countP (waiting : List Pending) :
    (held waiting).length =
      (waiting.map (some ·.token)).countP (·.any Token.isOperator) := by
  induction waiting with
  | nil => rfl
  | cons p waiting ih =>
    rw [List.map_cons]
    cases p with
    | operator o => rw [held_operator_cons, List.length_cons, ih, List.countP_cons_of_pos rfl]
    | paren => rw [held_paren_cons, ih, List.countP_cons_of_neg Bool.false_ne_true]

/-- The operators on the stack are those that no token has freed. -/
theorem Postfix.Reads.length_held (h : Reads [] ts emitted rest) :
    (held rest).length = unemitted ts := by
  have hb := h.balanced_close
  generalize List.replicate (rest.count .paren) Token.closeParen = us at hb
  have hall : Reads [] ((ts ++ us).take ts.length) emitted rest := by rwa [List.take_left]
  obtain ⟨order, waits, hprog, -, hw⟩ := exists_progress hb (by simp) hall
  have hmem : ∀ j, j ∈ waits ∧ (ts ++ us)[j]?.any Token.isOperator = true ↔
      j < ts.length ∧ Unfreed ts j := by
    intro j
    constructor
    · rintro ⟨hj, ho⟩
      have hlt := hprog.nested.lt_of_mem hj
      rw [List.getElem?_append_left hlt] at ho
      obtain ⟨o, hop⟩ := exists_op_of_isOperator ho
      exact ⟨hlt, (hprog.mem_waits_iff hb hop).mp hj⟩
    · rintro ⟨hlt, hfree⟩
      obtain ⟨o, hop⟩ := exists_op_of_isOperator hfree.1
      refine ⟨(hprog.mem_waits_iff hb hop).mpr hfree, ?_⟩
      rw [List.getElem?_append_left hlt]
      exact hfree.1
  have hperm : (waits.filter fun j => (ts ++ us)[j]?.any Token.isOperator).Perm
      ((List.range ts.length).filter fun j => Unfreed ts j) := by
    refine (List.perm_ext_iff_of_nodup ?_ (List.nodup_range.filter _)).mpr fun j => ?_
    · exact (hprog.nested.pairwise.imp Nat.ne_of_gt).filter _
    · rw [List.mem_filter, List.mem_filter, List.mem_range, decide_eq_true_iff]
      exact hmem j
  rw [length_held_eq_countP, ← hw, List.countP_map, unemitted, List.countP_eq_length_filter,
    List.countP_eq_length_filter]
  exact hperm.length_eq

/-- What waits is operators. -/
theorem Postfix.countP_isOperator_held (waiting : List Pending) :
    (held waiting).countP Token.isOperator = (held waiting).length := by
  refine List.countP_eq_length.mpr fun t ht => ?_
  obtain ⟨p, -, hp⟩ := List.mem_filterMap.mp ht
  cases p with
  | operator o =>
    cases hp
    rfl
  | paren => cases hp

/-- What is read of the operators has been emitted or waits. -/
theorem Postfix.Reads.countP_isOperator (h : Reads [] ts emitted rest) :
    ts.countP Token.isOperator = emitted.countP Token.isOperator + unemitted ts := by
  have hall := h.conserves.countP_eq Token.isOperator
  rw [List.countP_append, countP_isOperator_held, h.length_held, List.countP_append,
    List.countP_filter] at hall
  have hkind : ts.countP (fun t => t.isOperator && !t.isParen) = ts.countP Token.isOperator :=
    List.countP_congr fun t _ => by cases t <;> simp [Token.isOperator, Token.isParen]
  rw [hkind] at hall
  simpa [held] using hall.symm

end Reckoner
