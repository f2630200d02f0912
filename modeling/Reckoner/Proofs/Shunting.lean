import Reckoner.Postfix.Conversion

/-!
# Steps and runs of the conversion

`Shunts waiting t emitted rest`: under `waiting`, the token `t` is taken without a fault, emits
`emitted` and leaves `rest` waiting. `Reads` says the same of a list of tokens. A conversion that
succeeds is such a run and a `flush`, so what holds of every conversion is proved of `Shunts` case
by case and of `Reads` by induction.

* `shunt_eq_ok_iff`, `flush_eq_ok_iff`: what a token and the end can do.
* `Reads.append`, `reads_append_iff`: runs follow one another as the tokens do.
* `Shunts.unique`, `Reads.unique`: steps and runs are told by the tokens and what waits.
* `reads_or_stops`: a run takes all tokens, or stops at one that is refused.
* `result_convert_eq_ok_iff`, `exists_reads_of_convert`: the conversions that succeed.
  `isTerm_of_convert`: what they answer.
* `convertFrom_toList`, `result_ofText`, `log_ofText`: a conversion depends on the tokens of a source
  and on nothing else of it.
-/

namespace Reckoner

/-- A number or an operator: what a postfix sequence is made of. -/
def Token.isTerm : Token → Bool
  | number _ | op _ => true
  | _ => false

/-- A waiting operator is applied before an incoming one; a parenthesis waits for its partner. -/
def Pending.yieldsTo (incoming : Operator) : Pending → Bool
  | operator o => o.binding.appliesBefore incoming.binding
  | paren => false

/-- A source that has ended yields no more tokens. -/
def TokenSource.StaysEnded (σ : Type) [TokenSource σ] : Prop :=
  ∀ s s' : σ, next s = (none, s') → toList s' = []

namespace Postfix

variable {waiting rest : List Pending} {t : Token} {ts us emitted : List Token}

/-! ## Steps -/

/-- Under `waiting`, the token `t` emits `emitted` and leaves `rest` waiting. -/
inductive Shunts : List Pending → Token → List Token → List Pending → Prop
  | number (waiting : List Pending) (x : Float) :
      Shunts waiting (.number x) [.number x] waiting
  | openParen (waiting : List Pending) : Shunts waiting .openParen [] (.paren :: waiting)
  | closeParen (done : List Operator) (rest : List Pending) :
      Shunts (done.map .operator ++ .paren :: rest) .closeParen (done.map .op) rest
  | op {o : Operator} {done : List Operator} {stay : List Pending}
      (leave : ∀ d ∈ done, d.binding.appliesBefore o.binding = true)
      (remain : ∀ p ∈ stay.head?, p.yieldsTo o = false) :
      Shunts (done.map .operator ++ stay) (.op o) (done.map .op) (.operator o :: stay)

@[simp] theorem unwind_append_paren (done : List Operator) (rest : List Pending) :
    unwind (done.map .operator ++ .paren :: rest) = (done, .paren :: rest) := by
  induction done with
  | nil => rfl
  | cons o done ih => simp [unwind, ih]

@[simp] theorem unwind_map (done : List Operator) :
    unwind (done.map .operator) = (done, []) := by
  induction done with
  | nil => rfl
  | cons o done ih => simp [unwind, ih]

theorem release_append {o : Operator} {done : List Operator} {stay : List Pending}
    (leave : ∀ d ∈ done, d.binding.appliesBefore o.binding = true)
    (remain : ∀ p ∈ stay.head?, p.yieldsTo o = false) :
    release o (done.map .operator ++ stay) = (done, stay) := by
  induction done with
  | nil =>
    cases stay with
    | nil => rfl
    | cons p stay =>
      cases p with
      | paren => rfl
      | operator d => simp_all [release, Pending.yieldsTo]
  | cons d done ih => simp_all [release]

/-- What leaves at an incoming operator is applied before it, and what remains on top is not. -/
theorem release_spec (o : Operator) (waiting : List Pending) :
    (∀ d ∈ (release o waiting).1, d.binding.appliesBefore o.binding = true) ∧
      ∀ p ∈ (release o waiting).2.head?, p.yieldsTo o = false := by
  fun_induction release o waiting with
  | case1 d waiting h ih => simp_all
  | case2 d waiting h => simp_all [Pending.yieldsTo]
  | case3 waiting h =>
    cases waiting with
    | nil => simp
    | cons p waiting =>
      cases p with
      | paren => simp [Pending.yieldsTo]
      | operator d => exact absurd rfl (h d waiting)

/-- What a token can do. -/
theorem shunt_eq_ok_iff : shunt waiting t = .ok (emitted, rest) ↔ Shunts waiting t emitted rest := by
  constructor
  · intro h
    cases t with
    | number x => cases h; exact .number _ x
    | openParen => cases h; exact .openParen _
    | closeParen =>
      have hw := unwind_eq waiting
      simp only [shunt] at h
      split at h
      · next done below hu =>
        rw [hu] at hw
        cases h
        rw [← hw]
        exact .closeParen done rest
      · cases h
    | op o =>
      have hw := release_eq o waiting
      obtain ⟨leave, remain⟩ := release_spec o waiting
      cases h
      have := Shunts.op leave remain
      rwa [hw] at this
    | unknown s => cases h
  · rintro (_ | _ | ⟨done, rest⟩ | ⟨leave, remain⟩)
    · rfl
    · rfl
    · simp [shunt]
    · simp [shunt, release_append leave remain]

/-- A token can do one thing only. -/
theorem Shunts.unique {emitted' : List Token} {rest' : List Pending}
    (h : Shunts waiting t emitted rest) (h' : Shunts waiting t emitted' rest') :
    emitted = emitted' ∧ rest = rest' := by
  rw [← shunt_eq_ok_iff] at h h'
  rw [h] at h'
  cases h'
  exact ⟨rfl, rfl⟩

/-- The end emits the operators that wait, if no parenthesis does. -/
theorem flush_eq_ok_iff :
    flush waiting = .ok emitted ↔
      ∃ done : List Operator, waiting = done.map .operator ∧ emitted = done.map .op := by
  constructor
  · intro h
    have hw := unwind_eq waiting
    unfold flush at h
    split at h
    · next done hu =>
      rw [hu, List.append_nil] at hw
      cases h
      exact ⟨done, hw.symm, rfl⟩
    · cases h
  · rintro ⟨done, rfl, rfl⟩
    simp [flush]

/-! ## Runs -/

/-- Under `waiting`, the tokens `ts` emit `emitted` and leave `rest` waiting. -/
inductive Reads : List Pending → List Token → List Token → List Pending → Prop
  | nil (waiting : List Pending) : Reads waiting [] [] waiting
  | cons {waiting middle rest : List Pending} {t : Token} {ts out more : List Token} :
      Shunts waiting t out middle → Reads middle ts more rest →
      Reads waiting (t :: ts) (out ++ more) rest

namespace Reads

/-- A run of one token is a step. -/
theorem single (h : Shunts waiting t emitted rest) :
    Reads waiting [t] emitted rest := by
  have := Reads.cons h (.nil rest)
  rwa [List.append_nil] at this

theorem append {middle : List Pending} {more : List Token} (h : Reads waiting ts emitted middle)
    (h' : Reads middle us more rest) : Reads waiting (ts ++ us) (emitted ++ more) rest := by
  induction h with
  | nil => exact h'
  | cons ht _ ih =>
    rw [List.append_assoc]
    exact .cons ht (ih h')

/-- And so can tokens. -/
theorem unique {emitted' : List Token} {rest' : List Pending} (h : Reads waiting ts emitted rest)
    (h' : Reads waiting ts emitted' rest') : emitted = emitted' ∧ rest = rest' := by
  induction h generalizing emitted' with
  | nil =>
    cases h'
    exact ⟨rfl, rfl⟩
  | cons ht _ ih =>
    obtain _ | ⟨ht', h'⟩ := h'
    obtain ⟨rfl, rfl⟩ := ht.unique ht'
    obtain ⟨rfl, rfl⟩ := ih h'
    exact ⟨rfl, rfl⟩

/-- Numbers and operators are emitted, and nothing else. -/
theorem isTerm (h : Reads waiting ts emitted rest) (ht : t ∈ emitted) : t.isTerm = true := by
  induction h with
  | nil => cases ht
  | cons hs _ ih =>
    rcases List.mem_append.mp ht with ht | ht
    · cases hs with
      | number =>
        rw [List.mem_singleton.mp ht]
        rfl
      | openParen => cases ht
      | closeParen | op =>
        obtain ⟨o, -, rfl⟩ := List.mem_map.mp ht
        rfl
    · exact ih ht

/-- No number is emitted that is not read. -/
theorem mem_of_number (h : Reads waiting ts emitted rest) {x : Float}
    (hx : .number x ∈ emitted) : .number x ∈ ts := by
  induction h with
  | nil => cases hx
  | @cons _ _ _ t ts out more ht _ ih =>
    rcases List.mem_append.mp hx with hx | hx
    · cases ht with
      | number => exact List.mem_cons.mpr (.inl (List.mem_singleton.mp hx))
      | openParen => cases hx
      | closeParen => simp at hx
      | op => simp at hx
    · exact List.mem_cons_of_mem t (ih hx)

end Reads

theorem reads_append_iff :
    Reads waiting (ts ++ us) emitted rest ↔ ∃ out middle more,
      Reads waiting ts out middle ∧ Reads middle us more rest ∧ emitted = out ++ more := by
  constructor
  · intro h
    induction ts generalizing waiting emitted with
    | nil => exact ⟨[], waiting, emitted, .nil _, h, rfl⟩
    | cons t ts ih =>
      obtain _ | ⟨ht, h⟩ := h
      obtain ⟨out, middle, more, ho, hm, rfl⟩ := ih h
      exact ⟨_, middle, more, .cons ht ho, hm, (List.append_assoc ..).symm⟩
  · rintro ⟨out, middle, more, ho, hm, rfl⟩
    exact ho.append hm

theorem reads_singleton_iff : Reads waiting [t] emitted rest ↔ Shunts waiting t emitted rest := by
  constructor
  · rintro (_ | ⟨ht, h⟩)
    obtain _ | _ := h
    rwa [List.append_nil]
  · exact Reads.single

/-! ## Conversions as runs -/

section Sources

variable {σ : Type} [TokenSource σ] {s s' : σ}

theorem convertFrom_of_none (h : TokenSource.next s = (none, s')) :
    convertFrom waiting s = (flush waiting, [], s') := by
  rw [convertFrom]
  split <;> simp_all

theorem convertFrom_of_some (h : TokenSource.next s = (some t, s')) :
    convertFrom waiting s =
      match shunt waiting t with
      | .error fault => (.error fault, [.shunting t waiting.length], s')
      | .ok (out, middle) =>
        ((convertFrom middle s').1.map (out ++ ·),
          .shunting t waiting.length :: (convertFrom middle s').2.1, (convertFrom middle s').2.2) := by
  rw [convertFrom]
  split
  · next hn => simp [h] at hn
  · next u s'' hn =>
    obtain ⟨rfl, rfl⟩ : t = u ∧ s' = s'' := by simpa [h] using hn
    rcases shunt waiting t with fault | ⟨out, middle⟩ <;> rfl

end Sources

theorem convertFrom_nil (waiting : List Pending) :
    convertFrom waiting ([] : List Token) = (flush waiting, [], []) :=
  convertFrom_of_none rfl

theorem convertFrom_cons (waiting : List Pending) (t : Token) (ts : List Token) :
    convertFrom waiting (t :: ts) =
      match shunt waiting t with
      | .error fault => (.error fault, [.shunting t waiting.length], ts)
      | .ok (out, middle) =>
        ((convertFrom middle ts).1.map (out ++ ·),
          .shunting t waiting.length :: (convertFrom middle ts).2.1, (convertFrom middle ts).2.2) :=
  convertFrom_of_some rfl

@[simp] theorem fst_convertFrom_nil (waiting : List Pending) :
    (convertFrom waiting ([] : List Token)).1 = flush waiting := by
  rw [convertFrom_nil]

theorem fst_convertFrom_cons (waiting : List Pending) (t : Token) (ts : List Token) :
    (convertFrom waiting (t :: ts)).1 =
      match shunt waiting t with
      | .error fault => .error fault
      | .ok (out, middle) => (convertFrom middle ts).1.map (out ++ ·) := by
  rw [convertFrom_cons]
  cases shunt waiting t <;> rfl

/-- A source is converted as the list of its tokens is: with the same answer and the same events,
and with the same tokens left if it stays ended. -/
theorem convertFrom_toList {σ : Type} [TokenSource σ] (waiting : List Pending) (s : σ) :
    (convertFrom waiting s).1 = (convertFrom waiting (TokenSource.toList s)).1 ∧
      (convertFrom waiting s).2.1 = (convertFrom waiting (TokenSource.toList s)).2.1 ∧
      (TokenSource.StaysEnded σ → TokenSource.toList (convertFrom waiting s).2.2 =
        (convertFrom waiting (TokenSource.toList s)).2.2) := by
  induction hn : TokenSource.size s using Nat.strongRecOn generalizing waiting s with
  | ind n ih =>
    rcases h : TokenSource.next s with ⟨_ | t, s'⟩
    · rw [convertFrom_of_none h, TokenSource.toList_of_none h, convertFrom_nil]
      exact ⟨rfl, rfl, fun hends => hends s s' h⟩
    · have hlt : TokenSource.size s' < n := by
        have := TokenSource.size_next_lt (s := s) (t := t) (by rw [h])
        rwa [h, hn] at this
      rw [convertFrom_of_some h, TokenSource.toList_of_some h, convertFrom_cons]
      cases shunt waiting t with
      | error fault => exact ⟨rfl, rfl, fun _ => rfl⟩
      | ok next =>
        obtain ⟨hanswer, hlog, hleft⟩ := ih _ hlt next.2 s' rfl
        exact ⟨congrArg (Except.map (next.1 ++ ·)) hanswer, congrArg (_ :: ·) hlog, hleft⟩

/-- The result depends on the tokens of a source alone. -/
theorem result_convert_toList {σ : Type} [TokenSource σ] (s : σ) :
    (convert s).result = (convert (TokenSource.toList s)).result :=
  congrArg (Except.map Postfix.mk) (convertFrom_toList [] s).1

/-- And so do the events. -/
theorem log_convert_toList {σ : Type} [TokenSource σ] (s : σ) :
    (convert s).log = (convert (TokenSource.toList s)).log := by
  obtain ⟨hanswer, hlog, -⟩ := convertFrom_toList [] s
  simp only [convert, hanswer, hlog]

/-- A text is converted as its tokens are. -/
theorem result_ofText (text : String) :
    (ofText text).result = (convert (Lexer.tokens text)).result :=
  result_convert_toList (Lexer.ofString text)

/-- With the events of its tokens. -/
theorem log_ofText (text : String) : (ofText text).log = (convert (Lexer.tokens text)).log :=
  log_convert_toList (Lexer.ofString text)

/-- After a run, the conversion goes on with what the run leaves waiting. -/
theorem Reads.convertFrom_append (h : Reads waiting ts emitted rest) (us : List Token) :
    convertFrom waiting (ts ++ us) =
      ((convertFrom rest us).1.map (emitted ++ ·),
        (convertFrom waiting ts).2.1 ++ (convertFrom rest us).2.1, (convertFrom rest us).2.2) := by
  induction h with
  | nil waiting =>
    rw [List.nil_append, convertFrom_nil]
    refine Prod.ext ?_ rfl
    cases (convertFrom waiting us).1 <;> rfl
  | @cons _ _ rest' _ ts out more ht _ ih =>
    rw [List.cons_append, convertFrom_cons, convertFrom_cons, shunt_eq_ok_iff.mpr ht]
    simp only [ih]
    refine Prod.ext ?_ rfl
    cases (convertFrom rest' us).1 with
    | error fault => rfl
    | ok last => exact congrArg Except.ok (List.append_assoc out more last).symm

theorem Reads.fst_convertFrom_append (h : Reads waiting ts emitted rest) (us : List Token) :
    (convertFrom waiting (ts ++ us)).1 = (convertFrom rest us).1.map (emitted ++ ·) := by
  rw [h.convertFrom_append]

/-- A run takes all tokens, or it stops at one that is refused. -/
theorem reads_or_stops (waiting : List Pending) (ts : List Token) :
    (∃ emitted rest, Reads waiting ts emitted rest) ∨
      ∃ pre t post emitted rest fault, ts = pre ++ t :: post ∧
        Reads waiting pre emitted rest ∧ shunt rest t = .error fault := by
  induction ts generalizing waiting with
  | nil => exact .inl ⟨[], waiting, .nil waiting⟩
  | cons t ts ih =>
    cases ht : shunt waiting t with
    | error fault => exact .inr ⟨[], t, ts, [], waiting, fault, rfl, .nil waiting, ht⟩
    | ok next =>
      have hs := shunt_eq_ok_iff.mp ht
      obtain ⟨more, rest, h⟩ | ⟨pre, u, post, more, rest, fault, rfl, h, hf⟩ := ih next.2
      · exact .inl ⟨_, rest, .cons hs h⟩
      · exact .inr ⟨t :: pre, u, post, _, rest, fault, rfl, .cons hs h, hf⟩

/-- A conversion succeeds exactly when a run reads all tokens and what it leaves can be flushed. -/
theorem fst_convertFrom_eq_ok_iff {out : List Token} :
    (convertFrom waiting ts).1 = .ok out ↔ ∃ emitted rest last,
      Reads waiting ts emitted rest ∧ flush rest = .ok last ∧ out = emitted ++ last := by
  constructor
  · intro h
    induction ts generalizing waiting out with
    | nil =>
      rw [fst_convertFrom_nil] at h
      exact ⟨[], waiting, out, .nil _, h, rfl⟩
    | cons t ts ih =>
      rw [fst_convertFrom_cons] at h
      split at h
      · cases h
      · next now middle ht =>
        obtain ⟨more, hm, rfl⟩ := map_eq_ok_iff.mp h
        obtain ⟨emitted, rest, last, hr, hl, rfl⟩ := ih hm
        exact ⟨_, rest, last, .cons (shunt_eq_ok_iff.mp ht) hr, hl, (List.append_assoc ..).symm⟩
  · rintro ⟨emitted, rest, last, hr, hl, rfl⟩
    have := hr.fst_convertFrom_append []
    rw [List.append_nil, fst_convertFrom_nil, hl] at this
    exact this

theorem result_convert (ts : List Token) :
    (convert ts).result = (convertFrom [] ts).1.map Postfix.mk := rfl

theorem result_convert_eq_ok_iff {p : Postfix} :
    (convert ts).result = .ok p ↔ ∃ emitted rest last,
      Reads [] ts emitted rest ∧ flush rest = .ok last ∧ p.tokens = emitted ++ last := by
  rw [result_convert]
  constructor
  · intro h
    obtain ⟨out, ho, rfl⟩ := map_eq_ok_iff.mp h
    exact fst_convertFrom_eq_ok_iff.mp ho
  · rintro h
    rw [fst_convertFrom_eq_ok_iff.mpr h]
    rfl

/-- A conversion that succeeds is a run that leaves operators only, and they are emitted last. -/
theorem exists_reads_of_convert {p : Postfix} (h : (convert ts).result = .ok p) :
    ∃ (emitted : List Token) (done : List Operator),
      Reads [] ts emitted (done.map .operator) ∧ p.tokens = emitted ++ done.map .op := by
  obtain ⟨emitted, rest, last, hr, hl, hp⟩ := result_convert_eq_ok_iff.mp h
  obtain ⟨done, rfl, rfl⟩ := flush_eq_ok_iff.mp hl
  exact ⟨emitted, done, hr, hp⟩

/-- A conversion answers numbers and operators only. -/
theorem isTerm_of_convert {p : Postfix} (h : (convert ts).result = .ok p) (ht : t ∈ p.tokens) :
    t.isTerm = true := by
  obtain ⟨emitted, done, hr, hp⟩ := exists_reads_of_convert h
  rw [hp] at ht
  rcases List.mem_append.mp ht with ht | ht
  · exact hr.isTerm ht
  · obtain ⟨o, -, rfl⟩ := List.mem_map.mp ht
    rfl

end Postfix

end Reckoner
