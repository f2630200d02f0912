import Reckoner.Proofs.LongestNumeral

/-!
# Between two tokens

Once a lexer has answered, its lexeme is empty and it has looked at one character at most of those that
come next. Within a call it may hold a whole numeral, or a point and the character after it, but a call
always ends by cutting off what it has consumed. So a token is told by the text up to the character after
its lexeme, and what comes later has no part in it.

* `numeralSpan_congr`: a span is told by the characters up to the one after it.
* `FirstLexeme.congr`: so is a lexeme.
* `Window.Settled`: an empty lexeme, and at most one item looked at. `Lexer.settled_next`: a call of a
  lexer keeps it so.
* `Munched`: how a text is cut up to the end of a lexeme. `Munched.congr`: that depends on one more
  character.
* `Lexer.exists_munched_after`: a lexer that has answered stands at the end of a lexeme.
* `settled_after`: what holds between two tokens, and what the tokens so far depend on.
-/

namespace Reckoner

/-! ## What spans and lexemes depend on -/

section Spans

variable {cs cs' m : List Char} {n : Nat}

/-- A span does not get shorter by what follows its text. -/
theorem numeralSpan_prefix_append (cs ds : List Char) :
    numeralSpan cs <+: numeralSpan (cs ++ ds) := by
  have hstart : numeralSpan cs <+: cs := exists_numeralSpan_append cs
  by_cases hdigit : (numeralSpan cs).any digits.contains = true
  · exact (literal_numeralSpan hdigit).prefix_numeralSpan (hstart.trans (List.prefix_append cs ds))
  · rw [numeralSpan_of_no_digit (Bool.eq_false_iff.mpr hdigit)]
    by_cases hpoint : cs.head? = some '.'
    · obtain ⟨cs, rfl⟩ := List.head?_eq_some_iff.mp hpoint
      have hspan := numeralSpan_digits_point (List.forall_mem_nil _) (cs ++ ds)
      rw [if_pos hpoint, List.cons_append]
      exact ⟨_, hspan.symm⟩
    · rw [if_neg hpoint]
      exact List.nil_prefix

/-- A span is told by the characters up to the one after it, or up to the end of the text. -/
theorem numeralSpan_congr (hn : (numeralSpan cs).length < n) (h : cs'.take n = cs.take n) :
    numeralSpan cs' = numeralSpan cs := by
  have hcs := List.take_append_drop n cs
  have hcs' := List.take_append_drop n cs'
  rw [h] at hcs'
  by_cases hlong : n ≤ cs.length
  · -- The span of these characters is not all of them, so that what follows does not matter.
    have hshort : numeralSpan (cs.take n) ≠ cs.take n := by
      intro hall
      have hle := (numeralSpan_prefix_append (cs.take n) (cs.drop n)).length_le
      rw [hcs, hall, List.length_take] at hle
      omega
    rw [← hcs', numeralSpan_append_of_ne hshort, ← numeralSpan_append_of_ne hshort (cs.drop n), hcs]
  · have hwhole : cs'.length < n := by
      have hlength := congrArg List.length h
      rw [List.length_take, List.length_take] at hlength
      omega
    rw [List.take_of_length_le (Nat.le_of_lt hwhole), List.take_of_length_le (by omega)] at h
    rw [h]

/-- A lexeme is told by the characters up to the one after it, or up to the end of the text. -/
theorem FirstLexeme.congr (hm : FirstLexeme cs m)
    (h : cs'.take (m.length + 1) = cs.take (m.length + 1)) : FirstLexeme cs' m := by
  cases hm with
  | numeral hm =>
    have hspan := numeralSpan_congr (by rw [hm.eq_numeralSpan]; omega) h
    rw [hm.eq_numeralSpan] at hspan
    obtain ⟨rest, rfl⟩ : m <+: cs' := hspan ▸ exists_numeralSpan_append cs'
    exact .numeral (longestLiteral_of_span hm.1.exists_digit hspan)
  | @char c cs hnone =>
    have hdigit := not_any_digit_of_not_prefix hnone
    have hlength : (numeralSpan (c :: cs)).length < 2 := by
      rw [numeralSpan_of_no_digit hdigit]
      split <;> decide
    have hspan := numeralSpan_congr hlength h
    obtain ⟨cs', rfl⟩ : ∃ cs'', cs' = c :: cs'' := by
      cases cs' with
      | nil => cases h
      | cons b cs' => exact ⟨cs', by rw [(List.cons.inj h).1]⟩
    exact .char fun m => not_prefix_of_span (by rw [hspan, hdigit])

end Spans

/-! ## Windows between tokens -/

namespace Window

universe u

/-- The lexeme is empty, and at most one item has been looked at since. -/
structure Settled {α : Type u} (w : Window α) : Prop where
  pos : w.pos = 0
  ahead_le : w.ahead.length ≤ 1

/-- At the end of the stream nothing has been looked at that is not consumed. -/
theorem settled_of_nil {α : Type u} {w : Window α} (hpos : w.pos = 0) (hend : w.upcoming = []) :
    w.Settled := by
  obtain ⟨hahead, -⟩ := List.append_eq_nil_iff.mp hend
  exact ⟨hpos, by rw [hahead]; exact Nat.zero_le 1⟩

/-- An item that is cut off is no longer looked at. -/
theorem settled_discard_advance {α : Type u} {w : Window α} (hahead : w.ahead.length ≤ 2)
    (hne : w.upcoming ≠ []) : w.advance.2.discard.Settled := by
  have hseen := (seen_advance hne).2
  refine ⟨rfl, ?_⟩
  show w.advance.2.ahead.length ≤ 1
  omega

variable {w w' : Window Char} {text : String}

/-- Blanks are forgotten, and what follows them has been looked at. -/
theorem Settled.skipBlanks (h : w.Settled) : w.skipBlanks.Settled := by
  have hahead := h.ahead_le
  have hseen := (seen_skipIn w blanks).2
  refine ⟨rfl, ?_⟩
  show (w.skipIn blanks).2.ahead.length ≤ 1
  omega

/-- A numeral is read exactly if the span holds a digit. -/
theorem isSome_numeral? (w : Window Char) :
    w.numeral?.1.isSome = (numeralSpan w.upcoming).any digits.contains := by
  rw [← fst_numeralRun, numeral?]
  rcases w.numeralRun with ⟨_ | _, w'⟩ <;> rfl

/-- A numeral is cut off, and at most the item after it has been looked at. -/
theorem Settled.numeral?_of_some (h : w.Settled) (hn : w.numeral? = (some text, w')) :
    w'.Settled := by
  have hahead := h.ahead_le
  have hreach := reach_numeralRun w
  rw [reach, reach, pos_numeralRun, h.pos] at hreach
  have hdigit := isSome_numeral? w
  rw [hn, Option.isSome_some] at hdigit
  have hlength : 0 < (numeralSpan w.upcoming).length := by
    refine List.length_pos_iff.mpr fun hnil => ?_
    rw [hnil] at hdigit
    cases hdigit
  rw [numeral?] at hn
  rcases hr : w.numeralRun with ⟨_ | _, v⟩
  · rw [hr] at hn
    cases hn
  · rw [hr] at hn hreach
    obtain rfl : v.discard = w' := (Prod.mk.inj hn).2
    refine ⟨rfl, ?_⟩
    show v.ahead.length ≤ 1
    simp only at hreach
    omega

/-- Where no numeral comes next, at most a point and the item after it have been looked at. -/
theorem Settled.numeral?_of_none (h : w.Settled) (hn : w.numeral? = (none, w')) :
    w'.pos = 0 ∧ w'.ahead.length ≤ 2 := by
  have hdigit := isSome_numeral? w
  rw [hn, Option.isSome_none] at hdigit
  obtain ⟨hsees, hreach⟩ := seesAsFar_numeral? hdigit.symm
  have hlength : (numeralSpan w.upcoming).length ≤ 1 := by
    rw [numeralSpan_of_no_digit hdigit.symm]
    split <;> decide
  have hpos := hsees.pos.trans h.pos
  have hahead := h.ahead_le
  rw [reach_numeralRun, reach, reach, hpos, h.pos] at hreach
  rw [hn] at hpos hreach
  simp only at hpos hreach
  exact ⟨hpos, by omega⟩

end Window

/-! ## Lexers between tokens -/

namespace Lexer

open Window

variable {l : Lexer}

/-- A call leaves a lexer between tokens. Either a numeral is cut off, or the character that comes next
is, and if that is a point, the character after it stays looked at. -/
theorem settled_next (h : l.source.Settled) : l.next.2.source.Settled := by
  rcases hn : l.source.skipBlanks.numeral? with ⟨_ | text, w⟩
  · obtain ⟨hpos, hahead⟩ := h.skipBlanks.numeral?_of_none hn
    by_cases hend : w.upcoming = []
    · have hnext : l.next = (none, ⟨w⟩) := by
        simp only [next, hn, advance_of_nil hend]
      rw [hnext]
      exact settled_of_nil hpos hend
    · have hcut := settled_discard_advance hahead hend
      obtain ⟨c, cs, hc⟩ := List.exists_cons_of_ne_nil hend
      have hchar : w.advance.1 = some c := by rw [fst_advance, hc, List.head?_cons]
      rcases hw : w.advance with ⟨found, w'⟩
      rw [hw] at hcut hchar
      obtain rfl : found = some c := hchar
      have hnext : l.next = (some (.ofChar c), ⟨w'.discard⟩) := by
        simp only [next, hn, hw]
      rw [hnext]
      exact hcut
  · have hnext : l.next = (some (.ofNumeral text), ⟨w⟩) := by
      rw [next, hn]
    rw [hnext]
    exact h.skipBlanks.numeral?_of_some hn

/-- However often it is called, whether it answers or has come to the end, a lexer is then between
tokens. -/
theorem settled_source_after (h : l.source.Settled) (n : Nat) : (after n l).source.Settled := by
  induction n generalizing l with
  | zero => exact h
  | succ n ih => exact ih (settled_next h)

end Lexer

/-! ## How a text is cut up to the end of a lexeme -/

/-- The characters `past`, before `rest`, are cut into blanks and the lexemes of these tokens in turn, up to
the end of the last lexeme. -/
inductive Munched : List Char → List Token → List Char → Prop
  | nil {rest : List Char} : Munched [] [] rest
  | cons {ws m past rest : List Char} {t : Token} {ts : List Token} :
      BlankRun ws (m ++ (past ++ rest)) → FirstLexeme (m ++ (past ++ rest)) m → Denotes m t →
      Munched past ts rest → Munched (ws ++ (m ++ past)) (t :: ts) rest

section Munched

variable {past rest rest' ws m : List Char} {ts us : List Token} {t : Token} {text : String}

/-- A text that agrees with another through the character after a place goes on from there with the same
character, or ends there as the other does. -/
theorem exists_append_of_take {cs : List Char}
    (h : cs.take (past.length + 1) = (past ++ rest).take (past.length + 1)) :
    ∃ rest', cs = past ++ rest' ∧ rest'.head? = rest.head? := by
  rw [List.take_length_add_append] at h
  obtain ⟨rest', rfl⟩ : past <+: cs :=
    (List.prefix_append past _).trans (h ▸ List.take_prefix _ cs)
  rw [List.take_length_add_append] at h
  have hnext := congrArg List.head? (List.append_cancel_left h)
  rw [List.head?_take, List.head?_take] at hnext
  exact ⟨rest', rfl, hnext⟩

/-- The longest run of blanks that starts a text. -/
theorem blankRun_takeWhile (cs : List Char) :
    BlankRun (cs.takeWhile blanks.contains) (cs.dropWhile blanks.contains) := by
  refine ⟨List.all_eq_true.mp List.all_takeWhile, fun c hc => ?_⟩
  have hfirst := List.head?_dropWhile_not blanks.contains cs
  rwa [Option.mem_def.mp hc] at hfirst

/-- The blanks before a lexeme are told by the lexeme. -/
theorem BlankRun.congr (hws : BlankRun ws (m ++ rest)) (hm : m ≠ []) :
    BlankRun ws (m ++ rest') := by
  refine ⟨hws.1, ?_⟩
  have hfirst := hws.2
  rwa [List.head?_append_of_ne_nil m hm] at hfirst ⊢

/-- How a text is cut up to a place is told by the characters before it and the one after it, or by the
end of the text there. -/
theorem Munched.congr (h : Munched past ts rest) (hnext : rest'.head? = rest.head?) :
    Munched past ts rest' := by
  induction h with
  | nil => exact .nil
  | @cons ws m past rest t ts hws hm ht _ ih =>
    have hsame : (m ++ (past ++ rest')).take (m.length + 1) =
        (m ++ (past ++ rest)).take (m.length + 1) := by
      rw [List.take_length_add_append, List.take_length_add_append, List.take_one, List.take_one,
        List.head?_append, List.head?_append, hnext]
    exact .cons (hws.congr hm.ne_nil) (hm.congr hsame) ht (ih hnext)

/-- A lexeme that starts a text is split off as the token that it denotes. -/
theorem FirstLexeme.scans (hm : FirstLexeme (m ++ rest) m) (hws : BlankRun ws (m ++ rest))
    (ht : Denotes m t) (h : Scans rest us) : Scans (ws ++ (m ++ rest)) (t :: us) := by
  refine Scans.blanks_append hws.1 ?_
  generalize hcs : m ++ rest = cs at hm hws
  cases hm with
  | numeral hm =>
    have hspan := hm.eq_numeralSpan
    rw [← hcs] at hspan
    rw [← hcs, (denotes_numeral_iff hm.1).mp ht]
    exact .numeral hm.1.exists_digit hspan h
  | @char c cs hnone =>
    have hliteral : ¬ Literal [c] := fun hl => hnone [c] hl (List.prefix_append [c] cs)
    rw [(denotes_char_iff hliteral).mp ht]
    obtain rfl : rest = cs := (List.cons.inj hcs).2
    have hdigit := not_any_digit_of_not_prefix hnone
    exact .char (hws.2 c rfl) hdigit h

/-- The tokens up to a place come before those of the rest. -/
theorem Munched.scans (h : Munched past ts rest) (hrest : Scans rest us) :
    Scans (past ++ rest) (ts ++ us) := by
  induction h with
  | nil => exact hrest
  | cons hws hm ht _ ih =>
    rw [List.append_assoc, List.append_assoc]
    exact hm.scans hws ht (ih hrest)

/-- They are the first tokens of the text. -/
theorem Munched.take_tokens (h : Munched past ts rest) (htext : text.toList = past ++ rest) :
    (Lexer.tokens text).take ts.length = ts := by
  obtain ⟨us, hrest⟩ := exists_scans rest
  have hall := h.scans hrest
  rw [← htext] at hall
  rw [scans_iff.mp hall, List.take_left]

end Munched

namespace Lexer

variable {l : Lexer} {t : Token}

/-- A lexer that answers has gone over blanks and the lexeme of its answer. -/
theorem exists_firstLexeme (h : l.next.1 = some t) :
    ∃ ws m, l.source.upcoming = ws ++ (m ++ l.next.2.source.upcoming) ∧
      BlankRun ws (m ++ l.next.2.source.upcoming) ∧
      FirstLexeme (m ++ l.next.2.source.upcoming) m ∧ Denotes m t := by
  have hsplit : l.source.upcoming.takeWhile blanks.contains ++ l.unblanked = l.source.upcoming :=
    List.takeWhile_append_dropWhile
  have hblanks : BlankRun (l.source.upcoming.takeWhile blanks.contains) l.unblanked :=
    blankRun_takeWhile l.source.upcoming
  refine ⟨l.source.upcoming.takeWhile blanks.contains, ?_⟩
  by_cases hdigit : (numeralSpan l.unblanked).any digits.contains = true
  · obtain ⟨rest, hrest⟩ := exists_numeralSpan_append l.unblanked
    obtain ⟨hanswer, hleft⟩ := next_of_numeral hrest.symm hdigit (by rw [hrest])
    obtain rfl := Option.some.inj (h.symm.trans hanswer)
    obtain ⟨hm, hdenotes⟩ := firstLexeme_numeral hdigit (by rw [hrest])
    refine ⟨numeralSpan l.unblanked, ?_⟩
    rw [hrest] at hm
    rw [hleft, hrest]
    exact ⟨hsplit.symm, hblanks, hm, (hdenotes _).mpr rfl⟩
  · rw [Bool.not_eq_true] at hdigit
    obtain ⟨hanswer, hleft⟩ := next_of_no_numeral rfl hdigit
    rw [h, eq_comm, Option.map_eq_some_iff] at hanswer
    obtain ⟨c, hc, rfl⟩ := hanswer
    obtain ⟨rest, hrest⟩ := List.head?_eq_some_iff.mp hc
    rw [hrest] at hdigit hleft hblanks hsplit
    obtain ⟨hm, hdenotes⟩ := firstLexeme_char hdigit
    refine ⟨[c], ?_⟩
    rw [hleft]
    exact ⟨hsplit.symm, hblanks, hm, (hdenotes _).mpr rfl⟩

/-- After `n` answers a lexer stands at the end of the lexeme of the last. -/
theorem exists_munched_after {n : Nat} (hn : n ≤ (TokenSource.toList l).length) :
    ∃ past, l.source.upcoming = past ++ (after n l).source.upcoming ∧
      Munched past ((TokenSource.toList l).take n) (after n l).source.upcoming := by
  induction n generalizing l with
  | zero => exact ⟨[], rfl, .nil⟩
  | succ n ih =>
    rcases hnext : l.next with ⟨_ | t, l'⟩
    · rw [TokenSource.toList_of_none hnext] at hn
      cases hn
    · have hlist : TokenSource.toList l = t :: TokenSource.toList l' :=
        TokenSource.toList_of_some hnext
      rw [hlist, List.length_cons, Nat.add_le_add_iff_right] at hn
      obtain ⟨past, hpast, hmunched⟩ := ih hn
      obtain ⟨ws, m, hupcoming, hws, hm, ht⟩ := exists_firstLexeme (by rw [hnext])
      simp only [hnext, hpast] at hupcoming hws hm
      rw [after, hnext, hlist]
      refine ⟨ws ++ (m ++ past), ?_, .cons hws hm ht hmunched⟩
      rw [hupcoming, List.append_assoc, List.append_assoc]

end Lexer

/-- **Between tokens.** After any number of calls, answered or not, the lexeme of a lexer is empty and it
has looked at one character at most. After any number of answers it stands at the end of a lexeme, and the
text so far is cut into the lexemes of these answers. A text that is the same up to there, and in the
character that follows or in that none does, is cut as far in the same way and has the same tokens. -/
theorem settled_after (text : String) (n : Nat) :
    (Lexer.after n (.ofString text)).source.Settled ∧
      (n ≤ (Lexer.tokens text).length →
        ∃ past, text.toList = past ++ (Lexer.after n (.ofString text)).source.upcoming ∧
          Munched past ((Lexer.tokens text).take n)
            (Lexer.after n (.ofString text)).source.upcoming ∧
          ∀ other : String,
            other.toList.take (past.length + 1) = text.toList.take (past.length + 1) →
              Munched past ((Lexer.tokens text).take n) (other.toList.drop past.length) ∧
                (Lexer.tokens other).take n = (Lexer.tokens text).take n) := by
  refine ⟨Lexer.settled_source_after ⟨rfl, Nat.zero_le _⟩ n, fun hn => ?_⟩
  obtain ⟨past, htext, hmunched⟩ :
      ∃ past, text.toList = past ++ (Lexer.after n (.ofString text)).source.upcoming ∧
        Munched past ((Lexer.tokens text).take n) (Lexer.after n (.ofString text)).source.upcoming :=
    Lexer.exists_munched_after hn
  refine ⟨past, htext, hmunched, fun other hsame => ?_⟩
  rw [htext] at hsame
  obtain ⟨rest, hother, hnext⟩ := exists_append_of_take hsame
  have hagain := hmunched.congr hnext
  rw [hother, List.drop_left]
  refine ⟨hagain, ?_⟩
  have hfirst := hagain.take_tokens hother
  rwa [List.length_take_of_le hn] at hfirst

/-- Up to the end of the lexeme alone is not enough, as a digit makes a point part of a numeral. -/
example : (Lexer.tokens ".5").take 1 ≠ (Lexer.tokens ".").take 1 := by decide +kernel

theorem tokens_points : Lexer.tokens " 1. .x" = [.number 1, .unknown ".", .unknown "x"] := by
  decide +kernel

/-- The lone point is cut off, and the character that shows it to be alone stays looked at. -/
theorem after_points : Lexer.after 2 (.ofString " 1. .x") = ⟨[], ['x'], []⟩ := by
  decide +kernel

/-- Behind a number and a lone point, in texts that differ two characters further on. -/
theorem settled_after_points :
    2 ≤ (Lexer.tokens " 1. .x").length ∧ (Lexer.after 2 (.ofString " 1. .x")).source.Settled ∧
      " 1. .x5".toList.take 6 = " 1. .x".toList.take 6 ∧
      Munched [' ', '1', '.', ' ', '.'] [.number 1, .unknown "."] ['x', '5'] ∧
      (Lexer.tokens " 1. .x5").take 2 = [.number 1, .unknown "."] := by
  have hlength : 2 ≤ (Lexer.tokens " 1. .x").length := by
    rw [tokens_points]
    decide
  obtain ⟨hsettled, hcut⟩ := settled_after " 1. .x" 2
  obtain ⟨past, htext, -, hdecides⟩ := hcut hlength
  rw [after_points] at htext
  have hpast : [' ', '1', '.', ' ', '.'] ++ ['x'] = past ++ ['x'] := htext
  obtain rfl := List.append_cancel_right hpast
  obtain ⟨hmunched, hsame⟩ := hdecides " 1. .x5" rfl
  rw [tokens_points] at hmunched hsame
  exact ⟨hlength, hsettled, rfl, hmunched, hsame⟩

end Reckoner
