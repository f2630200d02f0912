import Reckoner.Proofs.Scanning
import Reckoner.Proofs.Verdict

/-!
# Conversions in a row

Conversions can be run one after the other on one source. Each goes on where the one before it
stopped, and nothing else of an earlier one is left for it: no operator waits, no token that was
looked at is lost.

* `read_append_rest`: a conversion reads the tokens up to those that it leaves.
* `Call`: what one conversion does with the tokens before it. `call_convert`: it does so.
* `convertTimes_succ`, `fst_convertTimes`, `flatMap_read`: conversions in a row are fresh ones,
  each of what is left.
* `convertTimes_toList`: a source and the list of its tokens can stand for one another.
* `convertTimes_calls`: all of this for any number of conversions.
-/

namespace Reckoner

/-- The token that the event of a conversion says was read. -/
def Event.shunted? : Event → Option Token
  | shunting t _ => some t
  | _ => none

namespace Postfix

/-- The tokens that a conversion has read, by its events. -/
def Conversion.read {σ : Type} (c : Conversion σ) : List Token :=
  c.log.filterMap Event.shunted?

/-- What a conversion does that finds the tokens `before`, reads `read`, leaves `after` and answers
`result`. -/
structure Call (before read after : List Token) (result : Except ConversionFault Postfix) :
    Prop where
  /-- It reads what comes first, and leaves the rest as it is. -/
  consecutive : read ++ after = before
  /-- If it fails before the end, it has read the tokens up to the first offence and no more. -/
  stops : ∀ fault, result = .error fault → fault ≠ .unbalanced .closing →
    ∃ i, FirstOffence before i ∧ read = before.take (i + 1)
  /-- If it succeeds or fails at the end, it leaves nothing. -/
  drains : (∃ p, result = .ok p) ∨ result = .error (.unbalanced .closing) → after = []

variable {waiting : List Pending} {ts : List Token}

/-! ## One conversion -/

theorem filterMap_shunted_convertFrom (waiting : List Pending) (ts : List Token) :
    (convertFrom waiting ts).2.1.filterMap Event.shunted? ++ (convertFrom waiting ts).2.2 = ts := by
  induction ts generalizing waiting with
  | nil =>
    rw [convertFrom_nil]
    rfl
  | cons t ts ih =>
    rw [convertFrom_cons]
    cases shunt waiting t with
    | error fault => rfl
    | ok next => exact congrArg (t :: ·) (ih next.2)

/-- A conversion reads the tokens up to those that it leaves. -/
theorem read_append_rest (ts : List Token) : (convert ts).read ++ (convert ts).rest = ts := by
  have houtcome (result : Except ConversionFault Postfix) :
      [conversionEvent result].filterMap Event.shunted? = [] := by
    cases result <;> rfl
  have hread : (convert ts).read = (convertFrom [] ts).2.1.filterMap Event.shunted? := by
    show ((convertFrom [] ts).2.1 ++ [conversionEvent _]).filterMap Event.shunted? = _
    rw [List.filterMap_append, houtcome, List.append_nil]
  rw [hread]
  exact filterMap_shunted_convertFrom [] ts

/-- No token is refused with the fault of the end. -/
theorem shunt_ne_unclosed (waiting : List Pending) (t : Token) :
    shunt waiting t ≠ .error (.unbalanced .closing) := by
  intro h
  obtain ⟨s, -, hf⟩ | ⟨-, -, hf⟩ := shunt_eq_error_iff.mp h <;> cases hf

/-- The end is refused with no other fault. -/
theorem eq_unclosed_of_flush {fault : ConversionFault} (h : flush waiting = .error fault) :
    fault = .unbalanced .closing :=
  (flush_eq_error_iff.mp h).2

theorem call_convert (ts : List Token) :
    Call ts (convert ts).read (convert ts).rest (convert ts).result := by
  have hread := read_append_rest ts
  obtain ⟨emitted, rest, hr⟩ | ⟨pre, t, post, emitted, rest, fault, rfl, hr, hf⟩ :=
    reads_or_stops [] ts
  · obtain ⟨-, hresult, hrest⟩ := convert_of_reads hr
    refine ⟨hread, fun fault herr hne => ?_, fun _ => hrest⟩
    rw [hresult] at herr
    cases hl : flush rest with
    | ok last =>
      rw [hl] at herr
      cases herr
    | error unclosed =>
      rw [hl] at herr
      cases herr
      exact absurd (eq_unclosed_of_flush hl) hne
  · obtain ⟨hfirst, hresult, hrest⟩ := convert_of_stops hr hf post
    refine ⟨hread, fun _ _ _ => ⟨pre.length, hfirst, ?_⟩, ?_⟩
    · rw [hrest] at hread
      rw [List.append_cons pre t post, List.take_left' (by simp), ← List.append_cons]
      exact List.append_cancel_right (hread.trans (List.append_cons pre t post))
    · rw [hresult]
      rintro (⟨p, hp⟩ | hp)
      · cases hp
      · cases hp
        exact absurd hf (shunt_ne_unclosed rest t)

/-! ## Several conversions -/

section Sources

variable {σ : Type} [TokenSource σ]

/-- The last of several conversions is one of what the others leave. -/
theorem convertTimes_succ (n : Nat) (s : σ) :
    convertTimes (n + 1) s =
      ((convertTimes n s).1 ++ [(convert (convertTimes n s).2).result],
        (convert (convertTimes n s).2).rest) := by
  induction n generalizing s with
  | zero => rfl
  | succ n ih =>
    have hfirst (m : Nat) : convertTimes (m + 1) s =
        ((convert s).result :: (convertTimes m (convert s).rest).1,
          (convertTimes m (convert s).rest).2) := rfl
    rw [hfirst (n + 1), ih, hfirst n]
    rfl

/-- What is left of a source that stays ended is what is left of its tokens. -/
theorem convertTimes_toList (hends : TokenSource.StaysEnded σ) (n : Nat) (s : σ) :
    convertTimes n (TokenSource.toList s) =
      ((convertTimes n s).1, TokenSource.toList (convertTimes n s).2) := by
  induction n with
  | zero => rfl
  | succ n ih =>
    have hrest (s : σ) : TokenSource.toList (convert s).rest =
        (convert (TokenSource.toList s)).rest := (convertFrom_toList [] s).2.2 hends
    rw [convertTimes_succ, convertTimes_succ, ih]
    simp only [hrest, result_convert_toList (convertTimes n s).2]

end Sources

/-- The answers of conversions in a row are those of fresh ones. -/
theorem fst_convertTimes (n : Nat) (ts : List Token) :
    (convertTimes n ts).1 =
      (List.range n).map fun k => (convert (convertTimes k ts).2).result := by
  induction n with
  | zero => rfl
  | succ n ih => rw [convertTimes_succ, ih, List.range_succ, List.map_append, List.map_singleton]

/-- What conversions in a row have read, and what they leave, are all tokens in their order. -/
theorem flatMap_read (n : Nat) (ts : List Token) :
    ((List.range n).flatMap fun k => (convert (convertTimes k ts).2).read) ++
      (convertTimes n ts).2 = ts := by
  induction n with
  | zero => rfl
  | succ n ih =>
    rw [List.range_succ, List.flatMap_append, List.flatMap_singleton, List.append_assoc,
      convertTimes_succ, read_append_rest, ih]

/-- When nothing is left, nothing will be. -/
theorem snd_convertTimes_of_nil {k m : Nat} (h : (convertTimes k ts).2 = []) (hle : k ≤ m) :
    (convertTimes m ts).2 = [] := by
  induction hle with
  | refl => exact h
  | step _ ih =>
    rw [convertTimes_succ, ih]
    exact (convert_of_reads (.nil [])).2.2

/-- A lexer that has ended yields no more tokens. -/
theorem staysEnded_lexer : TokenSource.StaysEnded Lexer := by
  intro l l' h
  have hnone : l'.next.1 = none := by
    have := Lexer.fst_next_next_of_none (l := l) (congrArg Prod.fst h)
    rwa [show l.next.2 = l' from congrArg Prod.snd h] at this
  exact TokenSource.toList_of_none (Prod.ext hnone rfl)

/-- **Conversions in a row.** Each of `n` conversions of the same tokens is a fresh one of what the
others before it leave. They read segments that follow one another and are, with what is left in
the end, all tokens. One that fails before the end reads up to the first offence; any other leaves
nothing, and those after it succeed with nothing. A text can be converted in this way as its tokens
can: the answers are the same, and so are the tokens left. -/
theorem convertTimes_calls (ts : List Token) (text : String) (n : Nat) :
    (convertTimes n ts).1 =
        ((List.range n).map fun k => (convert (convertTimes k ts).2).result) ∧
      ((List.range n).flatMap fun k => (convert (convertTimes k ts).2).read) ++
        (convertTimes n ts).2 = ts ∧
      (∀ k < n, Call (convertTimes k ts).2 (convert (convertTimes k ts).2).read
        (convertTimes (k + 1) ts).2 (convert (convertTimes k ts).2).result) ∧
      (∀ k < n, (convertTimes (k + 1) ts).2 = [] →
        ∀ m < n, k < m → (convertTimes n ts).1[m]? = some (.ok ⟨[]⟩)) ∧
      convertTimes n (Lexer.tokens text) =
        ((convertTimes n (Lexer.ofString text)).1,
          TokenSource.toList (convertTimes n (Lexer.ofString text)).2) := by
  refine ⟨fst_convertTimes n ts, flatMap_read n ts, fun k _ => ?_, fun k _ hnil m hm hkm => ?_,
    convertTimes_toList staysEnded_lexer n (Lexer.ofString text)⟩
  · rw [convertTimes_succ]
    exact call_convert _
  · have hempty : (convertTimes m ts).2 = [] := snd_convertTimes_of_nil hnil hkm
    have hresult : (convert ([] : List Token)).result = .ok ⟨[]⟩ :=
      (convert_of_reads (.nil [])).2.1
    rw [fst_convertTimes, List.getElem?_map, List.getElem?_range hm, Option.map_some, hempty,
      hresult]

theorem fst_convertTimes_straying :
    (convertTimes 3 straying).1 =
      [.error (.unbalanced .opening), .error (.invalidToken "&"), .ok ⟨[]⟩] := by
  simp [convertTimes, convert, convertFrom_cons, convertFrom_nil, straying, shunt, unwind, flush,
    Except.map]

theorem tokens_straying : Lexer.tokens "(1))&" = straying := by decide +kernel

/-- Two conversions that fail, each past its offence, and a third that finds nothing. The lexer of
the text does the same. -/
theorem convertTimes_calls_straying :
    (convertTimes 3 straying).1 =
        [.error (.unbalanced .opening), .error (.invalidToken "&"), .ok ⟨[]⟩] ∧
      (∃ i, FirstOffence straying i ∧ (convert straying).read = straying.take (i + 1)) ∧
      (convertTimes 2 straying).2 = [] ∧
      (convertTimes 3 straying).1[2]? = some (.ok ⟨[]⟩) ∧
      (convertTimes 3 (Lexer.ofString "(1))&")).1 = (convertTimes 3 straying).1 := by
  obtain ⟨hresults, -, hcall, hlater, htext⟩ := convertTimes_calls straying "(1))&" 3
  have hfirst : (convert straying).result = .error (.unbalanced .opening) := by
    have := (List.cons.inj (hresults.symm.trans fst_convertTimes_straying)).1
    exact this
  have hnil : (convertTimes 2 straying).2 = [] := by decide +kernel
  rw [tokens_straying] at htext
  exact ⟨fst_convertTimes_straying, (hcall 0 (by decide)).stops _ hfirst nofun, hnil,
    hlater 1 (by decide) hnil 2 (by decide) (by decide), (congrArg Prod.fst htext).symm⟩

end Postfix

end Reckoner
