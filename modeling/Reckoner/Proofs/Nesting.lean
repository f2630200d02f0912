import Reckoner.Proofs.Shunting

/-!
# Self-contained tokens

While a parenthesis is open, nothing that waits below it is touched. So tokens in parentheses emit
what they are converted to alone, in one piece, and leave waiting what waited before.

* `Reads.above`: a run is the same above an open parenthesis.
* `SelfContained`: tokens that emit the same whatever waits. `SelfContained.number`,
  `SelfContained.paren`: a number, and convertible tokens in parentheses.
* `reads_or_fails`: a conversion gets past its first tokens, or fails at them.
* `convert_between`: what stands around self-contained tokens decides all but what they emit.
-/

namespace Reckoner.Postfix

variable {waiting rest : List Pending} {t : Token} {ts emitted : List Token} {p : Postfix}

/-! ## Runs above a parenthesis -/

/-- What waits below an open parenthesis is out of the reach of a step. -/
theorem Shunts.above (h : Shunts waiting t emitted rest) (below : List Pending) :
    Shunts (waiting ++ .paren :: below) t emitted (rest ++ .paren :: below) := by
  cases h with
  | number _ x => exact .number _ x
  | openParen => exact .openParen _
  | closeParen done rest =>
    rw [List.append_assoc]
    exact .closeParen done _
  | @op o done stay leave remain =>
    rw [List.append_assoc]
    refine .op leave ?_
    cases stay with
    | nil =>
      -- All operators above the parenthesis leave, and the parenthesis itself stays.
      rintro p ⟨⟩
      rfl
    | cons q stay => exact remain

/-- And so of a run. -/
theorem Reads.above (h : Reads waiting ts emitted rest) (below : List Pending) :
    Reads (waiting ++ .paren :: below) ts emitted (rest ++ .paren :: below) := by
  induction h with
  | nil => exact .nil _
  | cons ht _ ih => exact .cons (ht.above below) ih

/-! ## Self-contained tokens -/

/-- Whatever waits, the tokens emit `emitted` and leave waiting what waited before. -/
def SelfContained (ts emitted : List Token) : Prop :=
  ∀ waiting, Reads waiting ts emitted waiting

theorem SelfContained.number (x : Float) : SelfContained [.number x] [.number x] :=
  fun waiting => .single (.number waiting x)

/-- What the end would emit is emitted by the closing parenthesis. -/
theorem SelfContained.paren (h : (convert ts).result = .ok p) :
    SelfContained (.openParen :: (ts ++ [.closeParen])) p.tokens := by
  intro waiting
  obtain ⟨out, done, hr, hp⟩ := exists_reads_of_convert h
  have hin : Reads (.paren :: waiting) ts out (done.map .operator ++ .paren :: waiting) :=
    hr.above waiting
  rw [hp, ← List.nil_append (out ++ _)]
  exact .cons (.openParen waiting) (hin.append (.single (.closeParen done waiting)))

/-! ## What stands around them -/

/-- A conversion gets past the tokens, or fails at them whatever follows. -/
theorem reads_or_fails (waiting : List Pending) (ts : List Token) :
    (∃ emitted rest, Reads waiting ts emitted rest) ∨
      ∃ fault, ∀ us, (convertFrom waiting (ts ++ us)).1 = .error fault := by
  obtain hr | ⟨pre, t, post, emitted, rest, fault, rfl, hr, hf⟩ := reads_or_stops waiting ts
  · exact .inl hr
  · refine .inr ⟨fault, fun us => ?_⟩
    rw [List.append_assoc, List.cons_append, hr.fst_convertFrom_append, fst_convertFrom_cons, hf]
    rfl

/-- What stands around self-contained tokens decides whether the conversion fails, and how. If it
does not fail, the tokens around decide what stands before and after what the others emit. -/
theorem convert_between (pre post : List Token) :
    (∃ fault, ∀ {ts emitted}, SelfContained ts emitted →
      (convert (pre ++ (ts ++ post))).result = .error fault) ∨
    ∃ before after, ∀ {ts emitted}, SelfContained ts emitted →
      (convert (pre ++ (ts ++ post))).result = .ok ⟨before ++ (emitted ++ after)⟩ := by
  obtain ⟨before, waiting, hpre⟩ | ⟨fault, hpre⟩ := reads_or_fails [] pre
  · have hconvert {ts emitted} (h : SelfContained ts emitted) :
        (convertFrom [] (pre ++ (ts ++ post))).1 =
          ((convertFrom waiting post).1.map (emitted ++ ·)).map (before ++ ·) := by
      rw [hpre.fst_convertFrom_append, (h waiting).fst_convertFrom_append]
    cases hpost : (convertFrom waiting post).1 with
    | error fault =>
      refine .inl ⟨fault, fun h => ?_⟩
      rw [result_convert, hconvert h, hpost]
      rfl
    | ok after =>
      refine .inr ⟨before, after, fun h => ?_⟩
      rw [result_convert, hconvert h, hpost]
      rfl
  · refine .inl ⟨fault, fun _ => ?_⟩
    rw [result_convert, hpre]
    rfl

end Reckoner.Postfix
