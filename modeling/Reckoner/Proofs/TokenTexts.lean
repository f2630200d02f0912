import Reckoner.Proofs.Conservation
import Reckoner.Proofs.MaximalMunch
import Reckoner.Proofs.RoundTrip

/-!
# Tokens are read back from their texts

A token that a text can hold is split off as its own text wherever nothing continues a numeral. So
such tokens can be written one after the other, with a space between each two, and are read back: a
number never runs into the next one, and an unknown text is unknown again, as a whole.

* `SplitsOff`: characters that are one token for the lexer. `Scans.exists_splitsOff`: the tokens of a
  text have such characters in it.
* `Token.Written`: the tokens that texts hold. `Token.written_of_mem`: all tokens of a text are.
* `Token.Written.splitsOff`: they split off as their own texts.
* `SplitsOff.ofLexeme`: what is read of a single text.
* `ReadBack`, `readBack`: tokens that are read back, together and one by one.
* `tokens_text_written`: the tokens of texts are, and so is what they are converted to.
-/

namespace Reckoner

variable {t : Token} {ts : List Token} {m rest cs : List Char} {c : Char} {s text : String}

/-! ## Characters that are one token -/

/-- The characters are split off as the token where nothing continues a numeral. -/
def SplitsOff (cs : List Char) (t : Token) : Prop :=
  ∀ (ds : List Char) (ts : List Token), EndsNumeral ds → Scans ds ts → Scans (cs ++ ds) (t :: ts)

theorem Spells.splitsOff (h : Spells t cs) : SplitsOff cs t :=
  fun _ _ hends hd => h.scans (fun _ => hends) hd

theorem splitsOff_numeral (ha : m.any digits.contains = true) (hm : numeralSpan (m ++ rest) = m) :
    SplitsOff m (.ofNumeral (String.ofList m)) := by
  intro ds ts hends hd
  exact .numeral ha ((literal_of_span ha hm).numeralSpan_append hends) hd

theorem splitsOff_char (hb : blanks.contains c = false)
    (hd : (numeralSpan (c :: cs)).any digits.contains = false) : SplitsOff [c] (.ofChar c) := by
  intro ds ts hends hds
  have hnone : (numeralSpan ([c] ++ ds)).any digits.contains = false := by
    rw [numeralSpan_append [c] hends, Bool.eq_false_iff]
    intro hdigit
    have hone : numeralSpan [c] <+: [c] := exists_numeralSpan_append [c]
    have hall : [c] <+: c :: cs := List.prefix_append [c] cs
    exact not_prefix_of_span hd (literal_numeralSpan hdigit) (hone.trans hall)
  exact .char hb hnone hds

theorem Token.eq_of_ofNumeral (h : ofNumeral s = unknown text) : s = text := by
  unfold ofNumeral at h
  split at h
  · split at h
    · cases h
    · exact unknown.inj h
  · exact unknown.inj h

theorem Token.eq_of_ofChar (h : ofChar c = unknown text) : String.singleton c = text := by
  unfold ofChar at h
  split at h
  · cases h
  · split at h
    · cases h
    · split at h
      · cases h
      · exact unknown.inj h

/-- A token of a text has characters that are that one token. If it is unknown, they are its text. -/
theorem Scans.exists_splitsOff (h : Scans cs ts) (ht : t ∈ ts) :
    ∃ m, SplitsOff m t ∧ ∀ s, t = .unknown s → m = s.toList := by
  induction h with
  | nil => cases ht
  | blank _ _ ih => exact ih ht
  | @numeral m rest ts ha hm _ ih =>
    rcases List.mem_cons.mp ht with rfl | ht
    · refine ⟨m, splitsOff_numeral ha hm, fun s hs => ?_⟩
      rw [← Token.eq_of_ofNumeral hs, String.toList_ofList]
    · exact ih ht
  | @char c cs ts hb hd _ ih =>
    rcases List.mem_cons.mp ht with rfl | ht
    · refine ⟨[c], splitsOff_char hb hd, fun s hs => ?_⟩
      rw [← Token.eq_of_ofChar hs, String.toList_singleton]
    · exact ih ht

/-! ## Tokens that texts hold -/

/-- A plain number, a symbol, or a text that is unknown somewhere. -/
def Token.Written : Token → Prop
  | number x => Number.Plain x
  | unknown s => ∃ text, unknown s ∈ Lexer.tokens text
  | op _ | openParen | closeParen => True

theorem Token.written_of_mem (h : t ∈ Lexer.tokens text) : t.Written := by
  cases t with
  | number x =>
    obtain ⟨m, hv, hf⟩ := (scans_tokens text).exists_numeral h
    exact .of_numeralValue? hv hf
  | unknown s => exact ⟨text, h⟩
  | op o => trivial
  | openParen => trivial
  | closeParen => trivial

/-- A token that a text holds is split off as its own text. -/
theorem Token.Written.splitsOff (h : t.Written) : SplitsOff t.text.toList t := by
  cases t with
  | number x =>
    have hs : Spells (.number x) (Token.number x).text.toList := Number.Plain.spells h
    exact hs.splitsOff
  | unknown s =>
    obtain ⟨text, hs⟩ := h
    obtain ⟨m, hm, htext⟩ := (scans_tokens text).exists_splitsOff hs
    obtain rfl := htext s rfl
    exact hm
  | op o => exact (Token.spells_text rfl).splitsOff
  | openParen => exact (Token.spells_text rfl).splitsOff
  | closeParen => exact (Token.spells_text rfl).splitsOff

/-! ## Reading single texts -/

theorem SplitsOff.tokens (h : SplitsOff text.toList t) : Lexer.tokens text = [t] := by
  have := h [] [] .nil .nil
  rw [List.append_nil] at this
  exact scans_iff.mp this

/-- A text that is one token is a lexeme of it, unless it is unknown. -/
theorem SplitsOff.ofLexeme (h : SplitsOff text.toList t) :
    ((∀ s, t ≠ .unknown s) → Token.ofLexeme text = .ok t) ∧
      ∀ s, t = .unknown s → Token.ofLexeme text = .error ⟨text⟩ := by
  rw [Token.ofLexeme, h.tokens]
  cases t with
  | unknown s => exact ⟨fun hs => absurd rfl (hs s), fun _ _ => rfl⟩
  | _ => exact ⟨fun _ => rfl, nofun⟩

/-! ## Reading joined texts -/

theorem toList_text_cons (t u : Token) (us : List Token) :
    (Postfix.text ⟨t :: u :: us⟩).toList = t.text.toList ++ ' ' :: (Postfix.text ⟨u :: us⟩).toList := by
  simp [Postfix.text, Postfix.lexemes, String.intercalate_cons_cons]

/-- Texts with spaces between them are split as each is alone. -/
theorem scans_text (h : ∀ t ∈ ts, SplitsOff t.text.toList t) :
    Scans (Postfix.text ⟨ts⟩).toList ts := by
  induction ts with
  | nil => exact .nil
  | cons t ts ih =>
    have ht := h t List.mem_cons_self
    have hts := ih fun u hu => h u (List.mem_cons_of_mem t hu)
    cases ts with
    | nil =>
      have := ht [] [] .nil .nil
      rwa [List.append_nil] at this
    | cons u us =>
      rw [toList_text_cons]
      exact ht _ _ (.of_blank rfl) (.blank rfl hts)

/-- The texts of the tokens, with a space between each two, are split into the tokens. Each text alone
is a lexeme of its token, or is refused if the token is unknown. -/
structure ReadBack (ts : List Token) : Prop where
  joined : Lexer.tokens (Postfix.text ⟨ts⟩) = ts
  known : ∀ t ∈ ts, (∀ s, t ≠ .unknown s) → Token.ofLexeme t.text = .ok t
  unknown : ∀ t ∈ ts, ∀ s, t = .unknown s → Token.ofLexeme t.text = .error ⟨t.text⟩

theorem readBack (h : ∀ t ∈ ts, t.Written) : ReadBack ts where
  joined := scans_iff.mp (scans_text fun t ht => (h t ht).splitsOff)
  known t ht := (h t ht).splitsOff.ofLexeme.1
  unknown t ht := (h t ht).splitsOff.ofLexeme.2

theorem readBack_tokens (text : String) : ReadBack (Lexer.tokens text) :=
  readBack fun _ => Token.written_of_mem

/-- What tokens of texts are converted to is made of them, and so is read back as they are. -/
theorem readBack_of_convert {p : Postfix} (h : ∀ t ∈ ts, t.Written)
    (hp : (Postfix.convert ts).result = .ok p) : ReadBack p.tokens :=
  readBack fun t ht =>
    h t (List.mem_of_mem_filter ((Postfix.perm_of_convert hp).mem_iff.mp ht))

/-- **Token texts.** Tokens that texts can hold are read back from their texts, together and one by
one, and so is the sequence that they are converted to. The tokens of a text are such tokens. -/
theorem tokens_text_written :
    (∀ ts : List Token, (∀ t ∈ ts, t.Written) →
      ReadBack ts ∧ ∀ p, (Postfix.convert ts).result = .ok p → Lexer.tokens p.text = p.tokens) ∧
    ∀ text, ReadBack (Lexer.tokens text) ∧
      ∀ p, (Postfix.ofText text).result = .ok p → Lexer.tokens p.text = p.tokens := by
  refine ⟨fun ts h => ⟨readBack h, fun p hp => ?_⟩, fun text => ⟨readBack_tokens text, fun p hp => ?_⟩⟩
  · exact (readBack_of_convert h hp).joined
  · rw [Postfix.result_ofText] at hp
    exact (readBack_of_convert (fun _ => Token.written_of_mem) hp).joined

/-- Nines beyond the largest double, and a point. -/
def oversized : List Char :=
  List.replicate 310 '9' ++ ['.']

/-- They are unknown as a whole. -/
theorem tokens_oversized :
    Lexer.tokens (String.ofList oversized) = [.unknown (String.ofList oversized)] := by
  have hliteral : Literal oversized := by
    refine .point (by decide) (fun c hc => ?_) (List.forall_mem_nil _)
    rw [List.eq_of_mem_replicate hc]
    rfl
  have hinfinite : (numeralValue? oversized).map Float.isFinite = some false := by decide +kernel
  obtain ⟨x, hv, hf⟩ := Option.map_eq_some_iff.mp hinfinite
  have hscans := Scans.numeral hliteral.exists_digit (hliteral.numeralSpan_append .nil) .nil
  rw [Token.ofNumeral_of_not_finite hv hf, List.append_nil] at hscans
  exact scans_iff.mp (by rwa [String.toList_ofList])

/-- A lone point, a space that is no blank, a numeral that is too large, and a number before another. -/
def awkward : List Token :=
  [.number 0.5, .unknown ".", .number 1, .unknown "\u00a0", .unknown (String.ofList oversized)]

theorem tokens_lone : Lexer.tokens ".\u00a0" = [.unknown ".", .unknown "\u00a0"] := by
  decide +kernel

theorem written_awkward : ∀ t ∈ awkward, t.Written := by
  have hpoint : .unknown "." ∈ Lexer.tokens ".\u00a0" := by simp [tokens_lone]
  have hspace : .unknown "\u00a0" ∈ Lexer.tokens ".\u00a0" := by simp [tokens_lone]
  have hlarge : .unknown (String.ofList oversized) ∈ Lexer.tokens (String.ofList oversized) := by
    simp [tokens_oversized]
  have hhalf : Number.Plain 0.5 := ⟨by decide, by decide⟩
  have hone : Number.Plain 1 := ⟨by decide, by decide⟩
  intro t ht
  simp only [awkward, List.mem_cons, List.not_mem_nil, or_false] at ht
  rcases ht with rfl | rfl | rfl | rfl | rfl
  · exact hhalf
  · exact ⟨_, hpoint⟩
  · exact hone
  · exact ⟨_, hspace⟩
  · exact ⟨_, hlarge⟩

theorem tokens_text_awkward :
    (∀ t ∈ awkward, t.Written) ∧ Lexer.tokens (Postfix.text ⟨awkward⟩) = awkward ∧
      Token.ofLexeme (Token.number 0.5).text = .ok (.number 0.5) ∧
      Token.ofLexeme (Token.unknown ".").text = .error ⟨"."⟩ ∧
      (Postfix.ofText "1(+2)").result = .ok summed ∧ Lexer.tokens summed.text = summed.tokens := by
  have hback := (tokens_text_written.1 awkward written_awkward).1
  exact ⟨written_awkward, hback.joined, hback.known _ (by simp [awkward]) nofun,
    hback.unknown (.unknown ".") (by simp [awkward]) "." rfl, result_ofText_misplaced,
    (tokens_text_written.2 "1(+2)").2 summed result_ofText_misplaced⟩

end Reckoner
