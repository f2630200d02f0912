import Reckoner.Proofs.Rendering

/-!
# Cuts of a text

A text can be cut where no numeral reaches across: where a blank stands, or where the character before
the cut or the one after it is neither a digit nor a point. What stands on one side is then split
without regard to the other, and blanks at the cut are nothing to the tokens.

* `SafeCut`: blanks, or none, between two texts that can be cut there.
* `SafeCut.tokens`: the tokens of the whole are those of the two texts.
* `result_ofText_congr`, `calculation_congr`: texts with the same tokens are converted and calculated
  alike.
* `tokens_append_safeCut`: tokens across a cut, and blanks at it.
-/

namespace Reckoner

variable {a w b s t : String}

/-- The blanks `w`, maybe none, stand between `a` and `b`, and no numeral of `a` could go on in `b`
without them. Before an empty text and after one none could. -/
def SafeCut (a w b : String) : Prop :=
  (∀ c ∈ w.toList, blanks.contains c = true) ∧
    (w ≠ "" ∨ PastNumeral a.toList ∨ EndsNumeral b.toList)

/-- At a safe cut the tokens of the whole are those of the one text and then those of the other. -/
theorem SafeCut.tokens (h : SafeCut a w b) :
    Lexer.tokens (a ++ w ++ b) = Lexer.tokens a ++ Lexer.tokens b := by
  obtain ⟨hw, hcut⟩ := h
  have hb := (scans_tokens b).blanks_append hw
  have hwhole : Scans (a.toList ++ (w.toList ++ b.toList)) (Lexer.tokens a ++ Lexer.tokens b) := by
    rcases hcut with hne | hpast | hends
    · -- The first blank ends a numeral, so that it does not matter what stands before and after.
      obtain ⟨c, cs, hc⟩ : ∃ c cs, w.toList = c :: cs :=
        List.exists_cons_of_ne_nil fun hnil => hne (String.toList_eq_nil_iff.mp hnil)
      refine (scans_tokens a).append hb ?_
      rw [hc]
      exact .of_blank (hw c (by rw [hc]; exact List.mem_cons_self))
    · exact (scans_tokens a).append_of_past hb hpast
    · refine (scans_tokens a).append hb ?_
      cases hc : w.toList with
      | nil => exact hends
      | cons c cs => exact .of_blank (hw c (by rw [hc]; exact List.mem_cons_self))
  apply scans_iff.mp
  simpa using hwhole

/-! ## Texts with the same tokens -/

/-- Texts with the same tokens are converted alike. -/
theorem result_ofText_congr (h : Lexer.tokens s = Lexer.tokens t) :
    (Postfix.ofText s).result = (Postfix.ofText t).result := by
  rw [Postfix.result_ofText, Postfix.result_ofText, h]

/-- They are calculated alike, down to the events. -/
theorem calculation_congr (h : Lexer.tokens s = Lexer.tokens t) : calculation s = calculation t := by
  have hlog : (Postfix.ofText s).log = (Postfix.ofText t).log := by
    rw [Postfix.log_ofText, Postfix.log_ofText, h]
  simp only [calculation, result_ofText_congr h, hlog]

/-- **Cuts.** At a safe cut the tokens of a text are those before the cut and then those after it.
Whatever blanks stand there, and whether any do, the text is converted and calculated alike. -/
theorem tokens_append_safeCut (h : SafeCut a w b) :
    Lexer.tokens (a ++ w ++ b) = Lexer.tokens a ++ Lexer.tokens b ∧
      ∀ w', SafeCut a w' b →
        (Postfix.ofText (a ++ w' ++ b)).result = (Postfix.ofText (a ++ w ++ b)).result ∧
          calculate (a ++ w' ++ b) = calculate (a ++ w ++ b) := by
  refine ⟨h.tokens, fun w' h' => ?_⟩
  have hsame : Lexer.tokens (a ++ w' ++ b) = Lexer.tokens (a ++ w ++ b) := by
    rw [h.tokens, h'.tokens]
  exact ⟨result_ofText_congr hsame, congrArg Calculation.result (calculation_congr hsame)⟩

/-- Without a blank, a numeral goes on across the cut. -/
example : Lexer.tokens ("1." ++ "5") ≠ Lexer.tokens "1." ++ Lexer.tokens "5" := by decide +kernel

theorem safeCut_blank : SafeCut "1." "\t" ".5 &" := by
  refine ⟨?_, .inl (by decide)⟩
  intro c hc
  rw [List.mem_singleton.mp hc]
  rfl

theorem safeCut_symbol : SafeCut "3&*" "" ".5" := by
  refine ⟨List.forall_mem_nil _, .inr (.inl ?_)⟩
  rintro c ⟨⟩
  exact ⟨rfl, by decide⟩

/-- A blank between two points, and blanks where none is needed, after a text with an unknown
character in it. -/
theorem tokens_append_safeCut_blank :
    SafeCut "1." "\t" ".5 &" ∧
      Lexer.tokens ("1." ++ "\t" ++ ".5 &") = Lexer.tokens "1." ++ Lexer.tokens ".5 &" ∧
      SafeCut "3&*" "" ".5" ∧ SafeCut "3&*" " \n" ".5" ∧
      (Postfix.ofText ("3&*" ++ " \n" ++ ".5")).result = (Postfix.ofText ("3&*" ++ "" ++ ".5")).result ∧
      calculate ("3&*" ++ " \n" ++ ".5") = calculate ("3&*" ++ "" ++ ".5") := by
  have hblanks : SafeCut "3&*" " \n" ".5" :=
    ⟨List.all_eq_true.mp (by rfl), .inl (by decide)⟩
  obtain ⟨hresult, hcalculate⟩ := (tokens_append_safeCut safeCut_symbol).2 _ hblanks
  exact ⟨safeCut_blank, (tokens_append_safeCut safeCut_blank).1, safeCut_symbol, hblanks,
    hresult, hcalculate⟩

end Reckoner
