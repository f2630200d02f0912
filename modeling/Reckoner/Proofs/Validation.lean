import Reckoner.Proofs.Lexemes
import Reckoner.Proofs.MaximalMunch

/-!
# Lexemes are checked before they are evaluated

A text is a lexeme of a postfix sequence if it spells a number or an operator, with blanks around it
or none. Lexemes are read as a whole before any of them is evaluated: the first text that is no lexeme
decides, and no operand that is missing and no division by zero before it does.

* `Names`, `IsLexeme`: the number or operator that a text spells, and the texts that spell one.
* `Munches.writes`, `Scans.writes`: characters that are split into known tokens spell them.
* `Postfix.tokenOfLexeme_eq_ok_iff`, `Postfix.tokenOfLexeme_of_not_isLexeme`: the texts that are read,
  and those that are refused.
* `Postfix.ofLexemes_eq_ok_iff`, `Postfix.ofLexemes_of_first`: what lists of them are read as, and the
  text that refuses one.
* `evaluate_validated`: what reading and evaluating a list of texts answer.
-/

namespace Reckoner

/-- The text spells the number or operator, with blanks before and after it or none. -/
def Names (text : String) (t : Token) : Prop :=
  t.isTerm = true ∧ ∃ ws cs vs : List Char, text.toList = ws ++ (cs ++ vs) ∧
    (∀ c ∈ ws, blanks.contains c = true) ∧ Spells t cs ∧ ∀ c ∈ vs, blanks.contains c = true

/-- The text spells a number or an operator. -/
def IsLexeme (text : String) : Prop :=
  ∃ t, Names text t

variable {text bad : String} {t u : Token} {ts : List Token} {cs m : List Char} {ms : List (List Char)}
variable {lexemes before after : List String} {p : Postfix}

/-! ## What is split off is spelled -/

theorem names_iff_writes : Names text t ↔ t.isTerm = true ∧ Writes [t] text.toList := by
  refine and_congr_right fun _ => ⟨?_, fun h => ?_⟩
  · rintro ⟨ws, cs, vs, htext, hws, hs, hvs⟩
    rw [htext]
    exact .cons hws hs (.nil hvs)
  · generalize htext : text.toList = all at h
    obtain _ | @⟨_, _, ws, cs, vs, hws, hs, hrest⟩ := h
    obtain hvs | _ := hrest
    exact ⟨ws, cs, vs, rfl, hws, hs, hvs⟩

/-- What denotes a known token spells it. -/
theorem Denotes.spells (h : Denotes m t) (hk : ∀ s, t ≠ .unknown s) : Spells t m := by
  cases h with
  | spelled hs => exact hs
  | overflow => exact absurd rfl (hk _)
  | other => exact absurd rfl (hk _)

/-- Lexemes of known tokens spell them, together with the blanks between them. -/
theorem Munches.writes (h : Munches cs ms) (hd : List.Forall₂ Denotes ms ts)
    (hk : ∀ s, .unknown s ∉ ts) : Writes ts cs := by
  induction h generalizing ts with
  | nil hw =>
    cases hd
    exact .nil hw.1
  | cons hw _ _ ih =>
    obtain _ | ⟨ht, hd⟩ := hd
    have hspells := ht.spells fun s hs => hk s (hs ▸ List.mem_cons_self)
    exact .cons hw.1 hspells (ih hd fun s hs => hk s (List.mem_cons_of_mem _ hs))

/-- Characters that are split into known tokens spell them. -/
theorem Scans.writes (h : Scans cs ts) (hk : ∀ s, .unknown s ∉ ts) : Writes ts cs := by
  obtain ⟨ms, hms, hts⟩ := h.munches
  exact hms.writes (hts.imp fun _ t ht => (ht t).mpr rfl) hk

/-- A text that is one known token spells it. -/
theorem writes_of_ofLexeme (h : Token.ofLexeme text = .ok t) : Writes [t] text.toList := by
  have hscans := scans_tokens text
  rw [Token.ofLexeme] at h
  split at h
  · cases h
  · next u hk hu =>
    cases h
    rw [hu] at hscans
    exact hscans.writes fun s hs => hk s (List.mem_singleton.mp hs).symm
  · cases h

namespace Postfix

/-! ## Single texts -/

/-- A text is read exactly as what it spells. -/
theorem tokenOfLexeme_eq_ok_iff : tokenOfLexeme text = .ok t ↔ Names text t := by
  rw [names_iff_writes]
  constructor
  · intro h
    unfold tokenOfLexeme at h
    split at h
    · next hread => cases h; exact ⟨rfl, writes_of_ofLexeme hread⟩
    · next hread => cases h; exact ⟨rfl, writes_of_ofLexeme hread⟩
    · cases h
  · rintro ⟨hterm, hw⟩
    have htokens : Lexer.tokens text = [t] := hw.tokens (.singleton t)
    cases t with
    | number x => rw [tokenOfLexeme, Token.ofLexeme, htokens]
    | op o => rw [tokenOfLexeme, Token.ofLexeme, htokens]
    | _ => cases hterm

/-- A text that spells no number and no operator is refused as it is. -/
theorem tokenOfLexeme_of_not_isLexeme (h : ¬ IsLexeme text) :
    tokenOfLexeme text = .error (.badToken text) := by
  cases hread : tokenOfLexeme text with
  | ok t => exact absurd ⟨t, tokenOfLexeme_eq_ok_iff.mp hread⟩ h
  | error fault =>
    unfold tokenOfLexeme at hread
    split at hread
    · cases hread
    · cases hread
    · exact hread.symm

end Postfix

/-- A text spells one number or operator at most. -/
theorem Names.unique (h : Names text t) (h' : Names text u) : t = u := by
  have := Postfix.tokenOfLexeme_eq_ok_iff.mpr h
  rw [Postfix.tokenOfLexeme_eq_ok_iff.mpr h'] at this
  exact (Except.ok.inj this).symm

instance (text : String) : Decidable (IsLexeme text) :=
  match h : Postfix.tokenOfLexeme text with
  | .ok t => isTrue ⟨t, Postfix.tokenOfLexeme_eq_ok_iff.mp h⟩
  | .error _ => isFalse <| by
    rintro ⟨t, ht⟩
    rw [Postfix.tokenOfLexeme_eq_ok_iff.mpr ht] at h
    cases h

namespace Postfix

/-! ## Lists of texts -/

theorem mapM_tokenOfLexeme_eq_ok_iff :
    lexemes.mapM tokenOfLexeme = .ok ts ↔ List.Forall₂ Names lexemes ts := by
  induction lexemes generalizing ts with
  | nil =>
    rw [List.forall₂_nil_left_iff]
    exact ⟨fun h => (Except.ok.inj h).symm, fun h => congrArg Except.ok h.symm⟩
  | cons text lexemes ih =>
    rw [List.mapM_cons, List.forall₂_cons_left_iff]
    constructor
    · intro h
      obtain ⟨t, ht, h⟩ := bind_eq_ok_iff.mp h
      obtain ⟨us, hus, h⟩ := bind_eq_ok_iff.mp h
      exact ⟨t, us, tokenOfLexeme_eq_ok_iff.mp ht, ih.mp hus, (Except.ok.inj h).symm⟩
    · rintro ⟨t, us, ht, hus, rfl⟩
      rw [tokenOfLexeme_eq_ok_iff.mpr ht, ih.mpr hus]
      rfl

/-- Texts are read as a sequence exactly if each spells its token. -/
theorem ofLexemes_eq_ok_iff : ofLexemes lexemes = .ok p ↔ List.Forall₂ Names lexemes p.tokens := by
  rw [ofLexemes, map_eq_ok_iff, ← mapM_tokenOfLexeme_eq_ok_iff]
  constructor
  · rintro ⟨ts, h, rfl⟩
    exact h
  · exact fun h => ⟨p.tokens, h, rfl⟩

/-- The first text that spells nothing is refused, whatever comes after it. -/
theorem ofLexemes_of_first (hbefore : ∀ s ∈ before, IsLexeme s) (hbad : ¬ IsLexeme bad)
    (after : List String) : ofLexemes (before ++ bad :: after) = .error (.badToken bad) := by
  have hfails : (before ++ bad :: after).mapM tokenOfLexeme = .error (.badToken bad) := by
    induction before with
    | nil =>
      rw [List.nil_append, List.mapM_cons, tokenOfLexeme_of_not_isLexeme hbad]
      rfl
    | cons s before ih =>
      obtain ⟨t, ht⟩ := hbefore s List.mem_cons_self
      have hrest := ih fun r hr => hbefore r (List.mem_cons_of_mem s hr)
      rw [List.cons_append, List.mapM_cons, tokenOfLexeme_eq_ok_iff.mpr ht, hrest]
      rfl
  rw [ofLexemes, hfails]
  rfl

/-- Texts are read exactly if each spells a number or an operator. -/
theorem exists_ofLexemes_iff : (∃ p, ofLexemes lexemes = .ok p) ↔ ∀ s ∈ lexemes, IsLexeme s := by
  constructor
  · rintro ⟨p, hp⟩
    rw [ofLexemes_eq_ok_iff] at hp
    generalize p.tokens = ts at hp
    induction hp with
    | nil => exact List.forall_mem_nil _
    | cons ht _ ih => exact List.forall_mem_cons.mpr ⟨⟨_, ht⟩, ih⟩
  · intro h
    induction lexemes with
    | nil => exact ⟨⟨[]⟩, rfl⟩
    | cons s lexemes ih =>
      obtain ⟨⟨t, ht⟩, hrest⟩ := List.forall_mem_cons.mp h
      obtain ⟨p, hp⟩ := ih hrest
      exact ⟨⟨t :: p.tokens⟩, ofLexemes_eq_ok_iff.mpr (.cons ht (ofLexemes_eq_ok_iff.mp hp))⟩

end Postfix

open Postfix

theorem isTerm_of_names (h : List.Forall₂ Names lexemes ts) : ∀ t ∈ ts, t.isTerm = true := by
  induction h with
  | nil => exact List.forall_mem_nil _
  | cons ht _ ih => exact List.forall_mem_cons.mpr ⟨ht.1, ih⟩

/-- **Validation.** Texts are all read before any of them is evaluated. The first that spells neither a
number nor an operator is a bad token, as it was given, whatever the others would do. If each spells
one, these are the tokens of a sequence, in their order, whose value is that of the texts, and no token
of it is a bad one. -/
theorem evaluate_validated (lexemes : List String) :
    (∀ bad, lexemes.find? (fun s => ¬ IsLexeme s) = some bad →
      ofLexemes lexemes = .error (.badToken bad) ∧
        evaluate lexemes = .error (.malformed (.badToken bad))) ∧
    ((∀ s ∈ lexemes, IsLexeme s) →
      ∃ p, ofLexemes lexemes = .ok p ∧
        List.Forall₂ (fun s t => ∀ u, Names s u ↔ u = t) lexemes p.tokens ∧
        evaluate lexemes = p.evaluate.result ∧
        ∀ s, evaluate lexemes ≠ .error (.malformed (.badToken s))) := by
  refine ⟨fun bad hfirst => ?_, fun hall => ?_⟩
  · obtain ⟨hbad, before, after, rfl, hbefore⟩ := List.find?_eq_some_iff_append.mp hfirst
    have hread := ofLexemes_of_first (fun s hs => by simpa using hbefore s hs)
      (by simpa using hbad) after
    rw [evaluate, evaluateLexemes, hread]
    exact ⟨rfl, rfl⟩
  · obtain ⟨p, hread⟩ := exists_ofLexemes_iff.mpr hall
    have hnames := ofLexemes_eq_ok_iff.mp hread
    have heval : evaluate lexemes = p.evaluate.result := by
      rw [evaluate, evaluateLexemes, hread]
    refine ⟨p, hread, ?_, heval, fun s => ?_⟩
    · refine hnames.imp fun s t ht u => ⟨fun hu => hu.unique ht, ?_⟩
      rintro rfl
      exact ht
    · rw [heval]
      exact result_evaluate_ne_badToken (isTerm_of_names hnames) s

/-- The first of these texts lacks its operands and the fourth divides by zero, but the fifth is no
lexeme. -/
def unreadable : List String :=
  ["+", "1", "0", "/", " 1 2", "("]

theorem find?_unreadable : unreadable.find? (fun s => ¬ IsLexeme s) = some " 1 2" := by
  decide +kernel

/-- Lexemes with blanks around them. -/
def padded : List String :=
  [" .5", "4.\t", "\n*\r"]

theorem ofLexemes_padded : ofLexemes padded = .ok ⟨[.number 0.5, .number 4, .op .mul]⟩ := by
  decide +kernel

theorem isLexeme_padded : ∀ s ∈ padded, IsLexeme s :=
  exists_ofLexemes_iff.mp ⟨_, ofLexemes_padded⟩

/-- A text that is refused with its blanks before an operator is, and lexemes that are read. -/
theorem evaluate_validated_unreadable :
    unreadable.find? (fun s => ¬ IsLexeme s) = some " 1 2" ∧
      evaluate unreadable = .error (.malformed (.badToken " 1 2")) ∧
      (∀ s ∈ padded, IsLexeme s) ∧
      ofLexemes padded = .ok ⟨[.number 0.5, .number 4, .op .mul]⟩ ∧
      evaluate padded = (Postfix.evaluate ⟨[.number 0.5, .number 4, .op .mul]⟩).result := by
  obtain ⟨p, hp, -, heval, -⟩ := (evaluate_validated padded).2 isLexeme_padded
  rw [ofLexemes_padded] at hp
  cases hp
  exact ⟨find?_unreadable, ((evaluate_validated unreadable).1 _ find?_unreadable).2,
    isLexeme_padded, ofLexemes_padded, heval⟩

end Reckoner
