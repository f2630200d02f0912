import Reckoner.Proofs.Nesting

/-!
# Blocks in parentheses

Convertible tokens in parentheses are a block that the conversion does not look into: it emits what
they are converted to, where it stands, and goes on as if nothing had happened. So the tokens around
see of a block nothing but that, not even how many pairs of parentheses are around it.

* `SelfContained.convert`: self-contained tokens are converted to what they emit.
* `SelfContained.segment`: what they emit follows on what is emitted before them, in one piece.
* `SelfContained.replace`: tokens that emit the same can stand for each other.
* `enclosed`: tokens with pairs of parentheses around them. `SelfContained.enclosed`: a block.
* `convert_block`: what is converted around a block, and what of the block it depends on.
-/

namespace Reckoner.Postfix

variable {ts us emitted : List Token} {p q : Postfix}

/-! ## Self-contained tokens among others -/

/-- Self-contained tokens are converted to what they emit. -/
theorem SelfContained.convert (h : SelfContained ts emitted) :
    (convert ts).result = .ok ⟨emitted⟩ :=
  result_convert_eq_ok_iff.mpr ⟨emitted, [], [], h [], rfl, (List.append_nil emitted).symm⟩

/-- What self-contained tokens emit follows on what the tokens before them have emitted by then. -/
theorem SelfContained.segment (h : SelfContained ts emitted) {pre post : List Token}
    (hq : (Postfix.convert (pre ++ (ts ++ post))).result = .ok q) :
    ∃ before waiting, Reads [] pre before waiting ∧ before ++ emitted <+: q.tokens := by
  obtain ⟨out, done, hr, htokens⟩ := exists_reads_of_convert hq
  obtain ⟨before, waiting, more, hpre, hmore, rfl⟩ := reads_append_iff.mp hr
  obtain ⟨now, middle, after, hnow, -, rfl⟩ := reads_append_iff.mp hmore
  obtain ⟨rfl, -⟩ := hnow.unique (h waiting)
  refine ⟨before, waiting, hpre, after ++ done.map .op, ?_⟩
  rw [htokens]
  simp only [List.append_assoc]

/-- Tokens that emit the same can stand for each other between any others. -/
theorem SelfContained.replace (h : SelfContained ts emitted) (h' : SelfContained us emitted)
    (pre post : List Token) :
    (Postfix.convert (pre ++ (us ++ post))).result =
      (Postfix.convert (pre ++ (ts ++ post))).result := by
  obtain ⟨fault, hfault⟩ | ⟨before, after, hsame⟩ := convert_between pre post
  · rw [hfault h, hfault h']
  · rw [hsame h, hsame h']

/-! ## Blocks -/

/-- Tokens with `n` pairs of parentheses around them. -/
def enclosed : Nat → List Token → List Token
  | 0, ts => ts
  | n + 1, ts => .openParen :: (enclosed n ts ++ [.closeParen])

/-- Each further pair of parentheses encloses tokens that are converted as those within. -/
theorem SelfContained.enclosed (h : (Postfix.convert ts).result = .ok p) (n : Nat) :
    SelfContained (enclosed (n + 1) ts) p.tokens := by
  induction n with
  | zero => exact .paren h
  | succ n ih => exact .paren ih.convert

/-- **Opacity.** A block of convertible tokens in parentheses emits what they are converted to, in
one piece that follows on what is emitted when the block is opened. Another block of tokens that are
converted to the same can stand for it between any tokens, with the same sequence or the same fault
as the outcome, and so can the block with further parentheses around it. -/
theorem convert_block (h : (convert ts).result = .ok p) (pre post : List Token) :
    (∀ q, (convert (pre ++ (enclosed 1 ts ++ post))).result = .ok q →
      ∃ before waiting, (∀ out rest, Reads [] pre out rest ↔ out = before ∧ rest = waiting) ∧
        before ++ p.tokens <+: q.tokens) ∧
    (∀ us, (convert us).result = .ok p →
      (convert (pre ++ (enclosed 1 us ++ post))).result =
        (convert (pre ++ (enclosed 1 ts ++ post))).result) ∧
    (convert (enclosed 1 ts)).result = .ok p ∧
    ∀ n, (convert (pre ++ (enclosed (n + 1) ts ++ post))).result =
      (convert (pre ++ (enclosed 1 ts ++ post))).result := by
  have hblock := SelfContained.enclosed h
  refine ⟨fun q hq => ?_, fun us hus => ?_, (hblock 0).convert, fun n => ?_⟩
  · obtain ⟨before, waiting, hpre, hsegment⟩ := (hblock 0).segment hq
    refine ⟨before, waiting, fun out rest => ⟨fun hr => hr.unique hpre, ?_⟩, hsegment⟩
    rintro ⟨rfl, rfl⟩
    exact hpre
  · exact (hblock 0).replace (SelfContained.enclosed hus 0) pre post
  · exact (hblock 0).replace (hblock n) pre post

/-- The tokens `+ 1 2`. -/
def leading : List Token :=
  [.op .add, .number 1, .number 2]

/-- The tokens `1 2 +`. -/
def trailing : List Token :=
  [.number 1, .number 2, .op .add]

theorem convert_leading : (convert leading).result = .ok ⟨trailing⟩ := by
  simp [result_convert, leading, trailing, fst_convertFrom_cons, shunt, release, flush, unwind,
    Except.map]

theorem convert_trailing : (convert trailing).result = .ok ⟨trailing⟩ := by
  simp [result_convert, trailing, fst_convertFrom_cons, shunt, release, flush, unwind, Except.map]

/-- Two blocks that are no sentences, after a product that waits and before what is refused. -/
theorem convert_block_leading :
    (convert leading).result = .ok ⟨trailing⟩ ∧ (convert trailing).result = .ok ⟨trailing⟩ ∧
      (∃ q, (convert ([Token.number 4, Token.op .mul] ++ (enclosed 1 leading ++ []))).result = .ok q ∧
        ∃ before waiting,
          (∀ out rest, Reads [] [.number 4, .op .mul] out rest ↔ out = before ∧ rest = waiting) ∧
          before ++ trailing <+: q.tokens) ∧
      (convert ([Token.op .sub] ++ (enclosed 1 trailing ++ [Token.closeParen]))).result =
        (convert ([Token.op .sub] ++ (enclosed 1 leading ++ [Token.closeParen]))).result ∧
      (convert (enclosed 1 leading)).result = .ok ⟨trailing⟩ ∧
      (convert ([Token.op .sub] ++ (enclosed 3 leading ++ [Token.closeParen]))).result =
        (convert ([Token.op .sub] ++ (enclosed 1 leading ++ [Token.closeParen]))).result := by
  have hproduct : (convert ([Token.number 4, Token.op .mul] ++ (enclosed 1 leading ++ []))).result =
      .ok ⟨.number 4 :: (trailing ++ [.op .mul])⟩ := by
    simp [result_convert, leading, trailing, enclosed, fst_convertFrom_cons, shunt, release, flush,
      unwind, Except.map]
  have hafter := convert_block convert_leading [.number 4, .op .mul] []
  have hrefused := convert_block convert_leading [.op .sub] [.closeParen]
  exact ⟨convert_leading, convert_trailing, ⟨_, hproduct, hafter.1 _ hproduct⟩,
    hrefused.2.1 trailing convert_trailing, hrefused.2.2.1, hrefused.2.2.2 2⟩

end Reckoner.Postfix
