import Reckoner.Proofs.Blocks
import Reckoner.Proofs.Shunting

/-!
# What a conversion accepts and refuses

The parentheses that wait are those that the tokens read so far leave open, so the stack counts
the depth although nothing else does. A token is refused if it is unknown, or if it closes a
parenthesis where none is open; the first such token decides. If there is none, the depth at the
end does.

* `Reads.count_paren`: the parentheses that wait after a run.
* `balanced_of_convert`: a conversion that succeeds has read balanced tokens.
* `shunt_eq_error_iff`, `flush_eq_error_iff`: what a token and the end can fail with.
* `Offends`, `FirstOffence`: the tokens that are refused, told by the parentheses before them.
* `Reads.offends_iff`, `Reads.not_offends`: a token offends if it is refused.
* `convert_of_reads`, `convert_of_stops`: how a conversion ends that takes all tokens, and one that
  does not.
* `convert_verdict`: what a conversion answers is decided by the first offence, and without one by
  the depth.
-/

namespace Reckoner

/-- The depth counts the parentheses of each side. -/
theorem depth_eq_count (ts : List Token) :
    depth ts = (ts.count .openParen : Int) - ts.count .closeParen := by
  induction ts with
  | nil => rfl
  | cons t ts ih =>
    rw [depth_cons, ih, List.count_cons, List.count_cons]
    cases t <;> simp [Token.weight] <;> omega

/-- The token at position `i` is unknown, or it closes a parenthesis although as many are closed
before it as are opened. -/
def Offends (ts : List Token) (i : Nat) : Prop :=
  (∃ s, ts[i]? = some (.unknown s)) ∨
    ts[i]? = some .closeParen ∧ (ts.take i).count .closeParen = (ts.take i).count .openParen

/-- The token at position `i` offends, and none before it does. -/
def FirstOffence (ts : List Token) (i : Nat) : Prop :=
  Offends ts i ∧ ∀ j < i, ¬ Offends ts j

instance (ts : List Token) (i : Nat) : Decidable (Offends ts i) :=
  match h : ts[i]? with
  | some (.unknown s) => isTrue (.inl ⟨s, h⟩)
  | some .closeParen =>
    decidable_of_iff ((ts.take i).count .closeParen = (ts.take i).count .openParen)
      (by simp [Offends, h])
  | some (.number _) | some (.op _) | some .openParen | none => isFalse (by simp [Offends, h])

instance (ts : List Token) (i : Nat) : Decidable (FirstOffence ts i) :=
  inferInstanceAs (Decidable (_ ∧ ∀ j < i, _))

theorem Offends.lt_length {ts : List Token} {i : Nat} (h : Offends ts i) : i < ts.length := by
  rcases h with ⟨s, hs⟩ | ⟨hc, -⟩
  · exact (List.getElem?_eq_some_iff.mp hs).1
  · exact (List.getElem?_eq_some_iff.mp hc).1

theorem FirstOffence.unique {ts : List Token} {i j : Nat} (h : FirstOffence ts i)
    (h' : FirstOffence ts j) : i = j := by
  rcases Nat.lt_trichotomy i j with hlt | heq | hgt
  · exact absurd h.1 (h'.2 i hlt)
  · exact heq
  · exact absurd h'.1 (h.2 j hgt)

namespace Postfix

variable {waiting rest : List Pending} {t : Token} {ts pre post emitted : List Token} {p : Postfix}
variable {fault : ConversionFault} {i : Nat}

@[simp] theorem count_paren_operators (done : List Operator) :
    (done.map Pending.operator).count .paren = 0 := by
  simp [List.count_eq_zero]

theorem Shunts.count_paren (h : Shunts waiting t emitted rest) :
    (rest.count .paren : Int) = waiting.count .paren + t.weight := by
  cases h with
  | number x => simp [Token.weight]
  | openParen => simp
  | closeParen done =>
    rw [List.count_append, count_paren_operators, List.count_cons_self, Token.weight_closeParen]
    omega
  | op => simp [Token.weight]

theorem Reads.count_paren (h : Reads waiting ts emitted rest) :
    (rest.count .paren : Int) = waiting.count .paren + depth ts := by
  induction h with
  | nil => simp
  | cons ht _ ih =>
    rw [ih, ht.count_paren, depth_cons]
    omega

/-- A run from nothing that leaves no parenthesis waiting has read balanced tokens. -/
theorem Reads.balanced (h : Reads [] ts emitted rest) (hr : rest.count .paren = 0) :
    Balanced ts := by
  refine ⟨?_, fun pre hp => ?_⟩
  · have := h.count_paren
    simp only [hr, List.count_nil] at this
    omega
  · obtain ⟨more, rfl⟩ := hp
    obtain ⟨out, middle, last, ho, -, -⟩ := reads_append_iff.mp h
    have := ho.count_paren
    simp only [List.count_nil] at this
    omega

/-- A conversion that succeeds has read balanced tokens. -/
theorem balanced_of_convert (h : (convert ts).result = .ok p) : Balanced ts := by
  obtain ⟨emitted, done, hr, -⟩ := exists_reads_of_convert h
  exact hr.balanced (count_paren_operators done)

/-! ## Faults of a step and of the end -/

/-- What waits is operators only, or there is a last parenthesis with operators above it. -/
theorem operators_or_paren (waiting : List Pending) :
    (∃ done : List Operator, waiting = done.map .operator) ∨
      ∃ (done : List Operator) (below : List Pending),
        waiting = done.map .operator ++ .paren :: below := by
  induction waiting with
  | nil => exact .inl ⟨[], rfl⟩
  | cons p waiting ih =>
    cases p with
    | paren => exact .inr ⟨[], waiting, rfl⟩
    | operator o =>
      obtain ⟨done, rfl⟩ | ⟨done, below, rfl⟩ := ih
      · exact .inl ⟨o :: done, rfl⟩
      · exact .inr ⟨o :: done, below, rfl⟩

/-- A token is refused if it is unknown, or closes a parenthesis while none waits. -/
theorem shunt_eq_error_iff :
    shunt waiting t = .error fault ↔
      (∃ s, t = .unknown s ∧ fault = .invalidToken s) ∨
        t = .closeParen ∧ waiting.count .paren = 0 ∧ fault = .unbalanced .opening := by
  cases t with
  | number x => simp [shunt]
  | op o => simp [shunt]
  | openParen => simp [shunt]
  | unknown s => simp [shunt, eq_comm]
  | closeParen =>
    obtain ⟨done, rfl⟩ | ⟨done, below, rfl⟩ := operators_or_paren waiting
    · simp [shunt, eq_comm]
    · simp [shunt]

/-- The end is refused if a parenthesis waits. -/
theorem flush_eq_error_iff :
    flush waiting = .error fault ↔ 0 < waiting.count .paren ∧ fault = .unbalanced .closing := by
  obtain ⟨done, rfl⟩ | ⟨done, below, rfl⟩ := operators_or_paren waiting
  · simp [flush]
  · simp [flush, eq_comm]

/-! ## Offences -/

/-- After a run from nothing, a token offends if it is refused. -/
theorem Reads.offends_iff (h : Reads [] pre emitted rest) (t : Token) (post : List Token) :
    Offends (pre ++ t :: post) pre.length ↔ ∃ fault, shunt rest t = .error fault := by
  have hcount := h.count_paren
  rw [depth_eq_count, List.count_nil] at hcount
  have hclosed : pre.count .closeParen = pre.count .openParen ↔ rest.count .paren = 0 := by omega
  simp only [Offends, List.getElem?_append_right, Nat.le_refl, Nat.sub_self,
    List.getElem?_cons_zero, Option.some.injEq, List.take_left, hclosed, shunt_eq_error_iff]
  constructor
  · rintro (⟨s, rfl⟩ | ⟨rfl, hr⟩)
    · exact ⟨_, .inl ⟨s, rfl, rfl⟩⟩
    · exact ⟨_, .inr ⟨rfl, hr, rfl⟩⟩
  · rintro ⟨fault, ⟨s, ht, -⟩ | ⟨ht, hr, -⟩⟩
    · exact .inl ⟨s, ht⟩
    · exact .inr ⟨ht, hr⟩

/-- What a run from nothing takes does not offend. -/
theorem Reads.not_offends (h : Reads [] pre emitted rest) (hi : i < pre.length)
    (post : List Token) : ¬ Offends (pre ++ post) i := by
  intro hoff
  have hcut : pre.take i ++ pre[i] :: pre.drop (i + 1) = pre := by simp
  rw [← hcut] at h
  obtain ⟨out, middle, more, hbefore, hafter, -⟩ := reads_append_iff.mp h
  obtain _ | ⟨ht, -⟩ := hafter
  have hlen : (pre.take i).length = i := by
    rw [List.length_take]
    omega
  have hrefused := hbefore.offends_iff pre[i] (pre.drop (i + 1) ++ post)
  rw [hlen, ← List.cons_append, ← List.append_assoc, hcut] at hrefused
  obtain ⟨fault, hf⟩ := hrefused.mp hoff
  rw [shunt_eq_ok_iff.mpr ht] at hf
  cases hf

/-! ## How a conversion ends -/

/-- A conversion that takes all tokens ends as the flush does, and leaves none. -/
theorem convert_of_reads (h : Reads [] ts emitted rest) :
    (∀ i, ¬ Offends ts i) ∧
      (convert ts).result = (flush rest).map (fun last => ⟨emitted ++ last⟩) ∧
      (convert ts).rest = [] := by
  have hall := h.convertFrom_append []
  rw [List.append_nil, convertFrom_nil] at hall
  refine ⟨fun i hoff => ?_, ?_, congrArg (·.2.2) hall⟩
  · have := h.not_offends hoff.lt_length []
    rw [List.append_nil] at this
    exact this hoff
  · rw [result_convert, congrArg Prod.fst hall]
    cases flush rest <;> rfl

/-- A conversion that is refused a token fails at the first offence, and leaves what follows it. -/
theorem convert_of_stops (h : Reads [] pre emitted rest) (hf : shunt rest t = .error fault)
    (post : List Token) :
    FirstOffence (pre ++ t :: post) pre.length ∧
      (convert (pre ++ t :: post)).result = .error fault ∧
      (convert (pre ++ t :: post)).rest = post := by
  have hall := h.convertFrom_append (t :: post)
  rw [convertFrom_cons, hf] at hall
  refine ⟨⟨(h.offends_iff t post).mpr ⟨fault, hf⟩, fun j hj => h.not_offends hj _⟩, ?_,
    congrArg (·.2.2) hall⟩
  rw [result_convert, congrArg Prod.fst hall]
  rfl

/-- At a first offence a token is refused after a run. -/
theorem exists_stops (h : FirstOffence ts i) :
    ∃ pre t post emitted rest fault, ts = pre ++ t :: post ∧ pre.length = i ∧
      Reads [] pre emitted rest ∧ shunt rest t = .error fault := by
  obtain ⟨emitted, rest, hr⟩ | ⟨pre, t, post, emitted, rest, fault, rfl, hr, hf⟩ :=
    reads_or_stops [] ts
  · exact absurd h.1 ((convert_of_reads hr).1 i)
  · exact ⟨pre, t, post, emitted, rest, fault, rfl, (convert_of_stops hr hf post).1.unique h, hr, hf⟩

/-- Without an offence a run takes all tokens. -/
theorem exists_reads (h : ∀ i, ¬ Offends ts i) : ∃ emitted rest, Reads [] ts emitted rest := by
  obtain hr | ⟨pre, t, post, emitted, rest, fault, rfl, hr, hf⟩ := reads_or_stops [] ts
  · exact hr
  · exact absurd (convert_of_stops hr hf post).1.1 (h _)

/-- The fault of a first offence is told by its token. -/
theorem result_of_firstOffence (h : FirstOffence ts i) :
    (∀ s, ts[i]? = some (.unknown s) → (convert ts).result = .error (.invalidToken s)) ∧
      (ts[i]? = some .closeParen → (convert ts).result = .error (.unbalanced .opening)) := by
  obtain ⟨pre, t, post, emitted, rest, fault, rfl, rfl, hr, hf⟩ := exists_stops h
  have ht : (pre ++ t :: post)[pre.length]? = some t := by simp
  rw [(convert_of_stops hr hf post).2.1, ht]
  obtain ⟨s, rfl, rfl⟩ | ⟨rfl, -, rfl⟩ := shunt_eq_error_iff.mp hf
  · refine ⟨?_, nofun⟩
    rintro s ⟨⟩
    rfl
  · exact ⟨nofun, fun _ => rfl⟩

/-- Without an offence, only a parenthesis that stays open is a fault. -/
theorem result_of_not_offends (h : ∀ i, ¬ Offends ts i) :
    (ts.count .closeParen < ts.count .openParen →
      (convert ts).result = .error (.unbalanced .closing)) ∧
    (ts.count .openParen ≤ ts.count .closeParen → ∃ p, (convert ts).result = .ok p) := by
  obtain ⟨emitted, rest, hr⟩ := exists_reads h
  have hresult := (convert_of_reads hr).2.1
  have hcount := hr.count_paren
  rw [depth_eq_count, List.count_nil] at hcount
  constructor
  · intro hlt
    have hopen : 0 < rest.count .paren := by omega
    rw [hresult, flush_eq_error_iff.mpr ⟨hopen, rfl⟩]
    rfl
  · intro hle
    cases hf : flush rest with
    | error fault =>
      have hopen := (flush_eq_error_iff.mp hf).1
      omega
    | ok last => exact ⟨⟨emitted ++ last⟩, by rw [hresult, hf]; rfl⟩

/-- What is converted has no offence, so no unknown token. -/
theorem not_mem_of_convert (h : (convert ts).result = .ok p) (s : String) : .unknown s ∉ ts := by
  intro hs
  obtain ⟨emitted, done, hr, -⟩ := exists_reads_of_convert h
  obtain ⟨i, hi⟩ := List.mem_iff_getElem?.mp hs
  exact (convert_of_reads hr).1 i (.inl ⟨s, hi⟩)

end Postfix

/-- In balanced tokens only an unknown one offends. -/
theorem Balanced.not_offends {ts : List Token} (h : Balanced ts) (hu : ∀ s, .unknown s ∉ ts)
    (i : Nat) : ¬ Offends ts i := by
  rintro (⟨s, hs⟩ | ⟨hc, heq⟩)
  · exact hu s (List.mem_of_getElem? hs)
  · -- With the parenthesis at `i`, more would be closed than are opened.
    have hdepth := h.opened (ts.take (i + 1)) (List.take_prefix _ _)
    rw [List.take_add_one, hc, depth_append, depth_eq_count] at hdepth
    simp at hdepth
    omega

open Postfix

/-- **Verdict.** The first offence decides what a conversion answers: an unknown token is invalid,
and a parenthesis that closes none is the sign of a missing one, whatever else stands before and
after. Without an offence the conversion fails if more parentheses are opened than are closed, and
succeeds if not. So it succeeds exactly on balanced tokens with no unknown one among them. -/
theorem convert_verdict (ts : List Token) :
    (∀ i, FirstOffence ts i →
      (∀ s, ts[i]? = some (.unknown s) → (convert ts).result = .error (.invalidToken s)) ∧
        (ts[i]? = some .closeParen → (convert ts).result = .error (.unbalanced .opening))) ∧
    ((∀ i, ¬ Offends ts i) →
      (ts.count .closeParen < ts.count .openParen →
        (convert ts).result = .error (.unbalanced .closing)) ∧
      (ts.count .openParen ≤ ts.count .closeParen → ∃ p, (convert ts).result = .ok p)) ∧
    ((∃ p, (convert ts).result = .ok p) ↔ Balanced ts ∧ ∀ s, .unknown s ∉ ts) := by
  refine ⟨fun i => result_of_firstOffence, result_of_not_offends, ?_, ?_⟩
  · rintro ⟨p, hp⟩
    exact ⟨balanced_of_convert hp, not_mem_of_convert hp⟩
  · rintro ⟨hb, hu⟩
    have hclosed := hb.closed
    rw [depth_eq_count] at hclosed
    exact (result_of_not_offends (hb.not_offends hu)).2 (by omega)

/-- The tokens `( 1 ) ) &`. -/
def straying : List Token :=
  [.openParen, .number 1, .closeParen, .closeParen, .unknown "&"]

/-- The tokens `( + ( ) 1`. -/
def unclosed : List Token :=
  [.openParen, .op .add, .openParen, .closeParen, .number 1]

theorem firstOffence_straying : FirstOffence straying 3 := by decide

theorem not_offends_unclosed (i : Nat) : ¬ Offends unclosed i := by
  have hall : ∀ i < unclosed.length, ¬ Offends unclosed i := by decide
  exact fun h => hall i h.lt_length h

/-- A parenthesis too many that stands before an unknown token, the unknown token without it, a
parenthesis that stays open, and one that is closed again. -/
theorem convert_verdict_straying :
    FirstOffence straying 3 ∧ (convert straying).result = .error (.unbalanced .opening) ∧
      FirstOffence (straying.eraseIdx 3) 3 ∧
      (convert (straying.eraseIdx 3)).result = .error (.invalidToken "&") ∧
      (∀ i, ¬ Offends unclosed i) ∧ (convert unclosed).result = .error (.unbalanced .closing) ∧
      ∃ p, (convert (unclosed ++ [.closeParen])).result = .ok p := by
  have hunknown : FirstOffence (straying.eraseIdx 3) 3 := by decide
  have hclosed : Balanced (unclosed ++ [.closeParen]) := by decide
  have hknown : ∀ s, .unknown s ∉ unclosed ++ [.closeParen] := by simp [unclosed]
  exact ⟨firstOffence_straying,
    ((convert_verdict straying).1 3 firstOffence_straying).2 rfl,
    hunknown, ((convert_verdict _).1 3 hunknown).1 "&" rfl,
    not_offends_unclosed, ((convert_verdict unclosed).2.1 not_offends_unclosed).1 (by decide),
    (convert_verdict _).2.2.mpr ⟨hclosed, hknown⟩⟩

end Reckoner
