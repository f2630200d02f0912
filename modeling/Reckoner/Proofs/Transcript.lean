import Reckoner.Proofs.Accounting
import Reckoner.Proofs.Unemitted

/-!
# The log of a calculation

Each stage reports every token before it acts on it, with what waits at that moment, and its outcome
at the end. So the log of a call tells how far it came: up to the first token that is refused, or to
the end. What waits is told by the tokens before, as long as none of these is refused.

* `Event.report`: the level, message and fields of an event.
* `steps`, `throughFirst`: the reports of tokens, and the tokens up to the first that is refused.
* `pendingCount`, `operandCount`: what waits in conversion and in evaluation.
* `Reads.length_rest`, `Reads.log`, `log_of_taken`: a run reports what waits before each token.
* `log_convert`, `log_evaluate`: the log of each stage.
* `calculation_transcript`: the log of a calculation, and of an evaluation of lexemes.
-/

namespace Reckoner

/-- What is reported of an event. -/
structure Event.Report where
  level : Event.Level
  message : String
  fields : List (String × Event.Field)
  deriving DecidableEq, Repr

def Event.report (e : Event) : Event.Report :=
  ⟨e.level, e.message, e.fields⟩

/-! ## Reports of tokens -/

/-- The report of a token that is read while so much waits. -/
def stepReport (message : String) (t : Token) (waiting : Nat) : Event.Report :=
  ⟨.trace, message, [("token", .text t.text), ("depth", .count waiting)]⟩

/-- The reports of tokens, where `waiting` tells what waits after those before. -/
def steps (message : String) (waiting : List Token → Nat) (ts : List Token) : List Event.Report :=
  ts.mapIdx fun i t => stepReport message t (waiting (ts.take i))

/-- The tokens up to the first that is refused and with it, or all of them. -/
def throughFirst (refused : Nat → Prop) [DecidablePred refused] (ts : List Token) : List Token :=
  match (List.range ts.length).find? fun i => refused i with
  | some i => ts.take (i + 1)
  | none => ts

section Steps

variable {message : String} {waiting : List Token → Nat} {refused : Nat → Prop}
variable [DecidablePred refused] {ts pre : List Token}

theorem steps_concat (ts : List Token) (t : Token) :
    steps message waiting (ts ++ [t]) =
      steps message waiting ts ++ [stepReport message t (waiting ts)] := by
  rw [steps, List.mapIdx_concat, List.take_left, steps]
  refine congrArg (· ++ _) (List.mapIdx_eq_mapIdx_iff.mpr fun i hi => ?_)
  rw [List.take_append_of_le_length (Nat.le_of_lt hi)]

theorem throughFirst_of_first (hpre : ∀ j < pre.length, ¬ refused j) (h : refused pre.length)
    (t : Token) (post : List Token) : throughFirst refused (pre ++ t :: post) = pre ++ [t] := by
  have hfind : (List.range (pre ++ t :: post).length).find? (fun i => refused i) =
      some pre.length := by
    simpa [List.find?_range_eq_some] using ⟨h, hpre⟩
  rw [throughFirst, hfind]
  exact List.take_length_add_append 1

theorem throughFirst_of_none (h : ∀ i, ¬ refused i) : throughFirst refused ts = ts := by
  have hfind : (List.range ts.length).find? (fun i => refused i) = none := by
    simpa using fun i _ => h i
  rw [throughFirst, hfind]

end Steps

/-! ## What waits -/

open Postfix

/-- The parentheses that the tokens leave open and the operators that they leave unemitted. -/
def pendingCount (before : List Token) : Nat :=
  (depth before).toNat + unemitted before

/-- The operands that the tokens leave, one for each number less one for each operator. -/
def operandCount (before : List Token) : Nat :=
  (surplus before).toNat

/-- The reports of a conversion that come before its outcome. -/
def conversionSteps (ts : List Token) : List Event.Report :=
  steps "shunting" pendingCount (throughFirst (Offends ts) ts)

/-- The reports of an evaluation that come before its outcome. -/
def evaluationSteps (ts : List Token) : List Event.Report :=
  steps "reducing" operandCount (throughFirst (faultAt? ts · ≠ none) ts)

namespace Postfix

variable {ts pre emitted : List Token} {rest : List Pending} {operands : List Float}

theorem Reads.length_rest (h : Reads [] ts emitted rest) : rest.length = pendingCount ts := by
  have hopen := h.count_paren
  rw [List.count_nil] at hopen
  rw [length_eq_count_add_held, h.length_held, pendingCount]
  omega

theorem length_eq_operandCount (h : operandsAfter ts = .ok operands) :
    operands.length = operandCount ts := by
  have := length_of_operandsAfter h
  rw [operandCount]
  omega

/-! ## The log of a conversion -/

/-- A run reports each token. -/
theorem Reads.log (h : Reads [] ts emitted rest) :
    (convertFrom [] ts).2.1.map Event.report = steps "shunting" pendingCount ts := by
  induction ts using List.reverseRecOn generalizing emitted rest with
  | nil =>
    rw [convertFrom_nil]
    rfl
  | append_singleton ts t ih =>
    obtain ⟨out, middle, more, hr, ht, -⟩ := reads_append_iff.mp h
    have hs := shunt_eq_ok_iff.mpr (reads_singleton_iff.mp ht)
    simp only [hr.convertFrom_append, convertFrom_cons, hs, convertFrom_nil]
    rw [List.map_append, ih hr, steps_concat, ← hr.length_rest]
    rfl

/-- A conversion reports the tokens up to the first offence, and then its outcome. -/
theorem log_convert (ts : List Token) :
    (convert ts).log.map Event.report =
      conversionSteps ts ++ [(conversionEvent (convert ts).result).report] := by
  have hlog : (convert ts).log = (convertFrom [] ts).2.1 ++ [conversionEvent (convert ts).result] :=
    rfl
  rw [hlog, List.map_append, List.map_singleton]
  refine congrArg (· ++ _) ?_
  rw [conversionSteps]
  obtain ⟨emitted, rest, hr⟩ | ⟨pre, t, post, emitted, rest, fault, rfl, hr, hf⟩ :=
    reads_or_stops [] ts
  · rw [throughFirst_of_none (convert_of_reads hr).1, hr.log]
  · obtain ⟨hoff, hnone⟩ := (convert_of_stops hr hf post).1
    rw [throughFirst_of_first hnone hoff, hr.convertFrom_append, convertFrom_cons, hf,
      List.map_append, hr.log, steps_concat, ← hr.length_rest]
    rfl

/-! ## The log of an evaluation -/

/-- Tokens that are taken are reported. -/
theorem log_of_taken (h : operandsAfter ts = .ok operands) :
    (evaluateFrom [] ts).2.map Event.report = steps "reducing" operandCount ts := by
  induction ts using List.reverseRecOn generalizing operands with
  | nil => rfl
  | append_singleton ts t ih =>
    rw [operandsAfter, List.foldlM_append] at h
    obtain ⟨middle, hm, h⟩ := bind_eq_ok_iff.mp h
    obtain ⟨next, ht, -⟩ := bind_eq_ok_iff.mp h
    rw [evaluateFrom_append hm, evaluateFrom_cons, ht, List.map_append, ih hm, steps_concat,
      ← length_eq_operandCount hm]
    rfl

/-- The report of what an evaluation answers. -/
def outcomeReport : Except EvaluationFault Float → Event.Report
  | .ok value => ⟨.debug, "evaluated postfix expression", [("value", .number value)]⟩
  | .error fault => ⟨.debug, "evaluation failed", [("err", .text fault.message)]⟩

theorem report_evaluationEvent (result : Except EvaluationFault Float) :
    (evaluationEvent result).report = outcomeReport result := by
  cases result <;> rfl

/-- An evaluation reports the tokens up to the first fault, and then its outcome. -/
theorem log_evaluate (p : Postfix) :
    p.evaluate.log.map Event.report =
      evaluationSteps p.tokens ++ [outcomeReport p.evaluate.result] := by
  obtain ⟨ts⟩ := p
  have hlog : (evaluate ⟨ts⟩).log =
      (evaluateFrom [] ts).2 ++ [evaluationEvent (evaluate ⟨ts⟩).result] := rfl
  rw [hlog, List.map_append, List.map_singleton, report_evaluationEvent]
  refine congrArg (· ++ _) ?_
  rw [evaluationSteps]
  obtain ⟨operands, ht⟩ | ⟨pre, t, post, operands, fault, rfl, hb, hf⟩ := taken_or_stops [] ts
  · rw [throughFirst_of_none fun i hi => hi (faultAt?_of_taken ht i), log_of_taken ht]
  · obtain ⟨hfault, hnone⟩ := (result_of_stops hb hf post).1
    rw [throughFirst_of_first (fun j hj hne => hne (hnone j hj)) (by simp [hfault]),
      evaluateFrom_append hb, evaluateFrom_cons, hf, List.map_append, log_of_taken hb,
      steps_concat, ← length_eq_operandCount hb]
    rfl

/-- Tokens without an offence are read, whatever follows them. -/
theorem exists_reads_of_not_offends {after : List Token}
    (h : ∀ i < ts.length, ¬ Offends (ts ++ after) i) : ∃ emitted rest, Reads [] ts emitted rest := by
  obtain hr | ⟨pre, t, post, emitted, rest, fault, rfl, hr, hf⟩ := reads_or_stops [] ts
  · exact hr
  · have hoff := (convert_of_stops hr hf (post ++ after)).1.1
    exact absurd (by simpa using hoff) (h pre.length (by simp))

end Postfix

/-! ## Calls -/

/-- **Transcript.** The log of a calculation reports the tokens of the text up to the first that
offends, each with the parentheses that are open and the operators that wait, and then the outcome
of the conversion. If that is a fault, it is the answer and the end of the log. If not, the tokens
of the postfix sequence follow up to the first fault, each with the operands that wait, and then the
answer. An evaluation of lexemes has the second part of such a log, or none if a lexeme is bad. -/
theorem calculation_transcript (text : String) (lexemes : List String) :
    (∀ fault, (ofText text).result = .error fault →
      calculate text = .error (.conversion fault) ∧
        (calculation text).log.map Event.report = conversionSteps (Lexer.tokens text) ++
          [⟨.debug, "conversion failed", [("err", .text fault.message)]⟩]) ∧
    (∀ p, (ofText text).result = .ok p →
      calculate text = p.evaluate.result.mapError .evaluation ∧
        (calculation text).log.map Event.report = conversionSteps (Lexer.tokens text) ++
          ⟨.debug, "converted to postfix",
            [("tokens", .count ((Lexer.tokens text).countP (!·.isParen)))]⟩ ::
          (evaluationSteps p.tokens ++ [outcomeReport p.evaluate.result])) ∧
    (∀ before after, Lexer.tokens text = before ++ after →
      (∀ i < before.length, ¬ Offends (Lexer.tokens text) i) →
      ∃ emitted rest, Reads [] before emitted rest ∧
        before.countP Token.isOperator = emitted.countP Token.isOperator + unemitted before) ∧
    (∀ cause, ofLexemes lexemes = .error cause →
      evaluate lexemes = .error (.malformed cause) ∧ (evaluateLexemes lexemes).log = []) ∧
    (∀ p, ofLexemes lexemes = .ok p →
      evaluate lexemes = p.evaluate.result ∧
        (evaluateLexemes lexemes).log.map Event.report =
          evaluationSteps p.tokens ++ [outcomeReport p.evaluate.result]) := by
  refine ⟨fun fault h => ⟨calculate_of_fault h, ?_⟩,
    fun p h => ⟨calculate_of_result_ofText h, ?_⟩, fun before after hcut hnone => ?_,
    fun cause h => ?_, fun p h => ?_⟩
  · have hlog : (calculation text).log = (ofText text).log := by simp only [calculation, h]
    rw [hlog, log_ofText, log_convert, ← result_ofText, h]
    rfl
  · have hlog : (calculation text).log = (ofText text).log ++ p.evaluate.log := by
      simp only [calculation, h]
    have hcount : p.tokens.length = (Lexer.tokens text).countP (!·.isParen) := by
      rw [(perm_of_convert (result_ofText text ▸ h)).length_eq, List.countP_eq_length_filter]
    rw [hlog, List.map_append, log_ofText, log_convert, ← result_ofText, h, log_evaluate,
      List.append_assoc, ← hcount]
    rfl
  · rw [hcut] at hnone
    obtain ⟨emitted, rest, hr⟩ := exists_reads_of_not_offends hnone
    exact ⟨emitted, rest, hr, hr.countP_isOperator⟩
  · rw [evaluate, evaluateLexemes, h]
    exact ⟨rfl, rfl⟩
  · rw [evaluate, evaluateLexemes, h]
    exact ⟨rfl, log_evaluate p⟩

/-- The tokens `( 1 0 / /`. -/
def overdrawing : List Token :=
  [.openParen, .number 1, .number 0, .op .div, .op .div]

theorem tokens_refused : Lexer.tokens "1)2" = [.number 1, .closeParen, .number 2] := by
  decide +kernel

theorem not_offends_overdrawing :
    ∀ i < overdrawing.length, ¬ Offends (overdrawing ++ [.closeParen]) i := by decide

/-- A text that is refused at its second token, one that is converted and then divides by zero, with
one operator waiting for the other to be emitted, and the lexemes of both. -/
theorem calculation_transcript_overdrawn :
    (ofText "1)2").result = .error (.unbalanced .opening) ∧
      (calculation "1)2").log.map Event.report =
        [stepReport "shunting" (.number 1) 0, stepReport "shunting" .closeParen 0,
          ⟨.debug, "conversion failed",
            [("err", .text "unbalanced parentheses: missing opening paren")]⟩] ∧
      (ofText "(1 0//)").result = .ok overdrawn ∧
      (calculation "(1 0//)").log.map Event.report =
        [stepReport "shunting" .openParen 0, stepReport "shunting" (.number 1) 1,
          stepReport "shunting" (.number 0) 1, stepReport "shunting" (.op .div) 1,
          stepReport "shunting" (.op .div) 2, stepReport "shunting" .closeParen 2,
          ⟨.debug, "converted to postfix", [("tokens", .count 4)]⟩,
          stepReport "reducing" (.number 1) 0, stepReport "reducing" (.number 0) 1,
          stepReport "reducing" (.op .div) 2,
          ⟨.debug, "evaluation failed", [("err", .text "division by zero")]⟩] ∧
      (∃ emitted rest, Reads [] overdrawing emitted rest ∧
        2 = emitted.countP Token.isOperator + unemitted overdrawing) ∧
      ofLexemes ["1", ")", "2"] = .error (.badToken ")") ∧
      (evaluateLexemes ["1", ")", "2"]).log = [] ∧
      ofLexemes ["1", "0", "/", "/"] = .ok overdrawn ∧
      (evaluateLexemes ["1", "0", "/", "/"]).log.map Event.report =
        [stepReport "reducing" (.number 1) 0, stepReport "reducing" (.number 0) 1,
          stepReport "reducing" (.op .div) 2,
          ⟨.debug, "evaluation failed", [("err", .text "division by zero")]⟩] := by
  have hrefused : (ofText "1)2").result = .error (.unbalanced .opening) := by decide +kernel
  have hbad : ofLexemes ["1", ")", "2"] = .error (.badToken ")") := by decide +kernel
  have hgood : ofLexemes ["1", "0", "/", "/"] = .ok overdrawn := by decide +kernel
  have hzero : overdrawn.evaluate.result = .error .divisionByZero := rfl
  have hfirst := ((calculation_transcript "1)2" []).1 _ hrefused).2
  obtain ⟨-, hsecond, hwaits, -, -⟩ := calculation_transcript "(1 0//)" []
  have hthird := (calculation_transcript "" ["1", ")", "2"]).2.2.2.1 _ hbad
  have hfourth := (calculation_transcript "" ["1", "0", "/", "/"]).2.2.2.2 _ hgood
  rw [tokens_refused] at hfirst
  rw [tokens_overdrawn] at hsecond hwaits
  have hsecond := (hsecond _ result_ofText_overdrawn).2
  rw [hzero] at hsecond hfourth
  refine ⟨hrefused, hfirst.trans (by decide), result_ofText_overdrawn,
    hsecond.trans (by decide), ?_, hbad, hthird.2, hgood,
    hfourth.2.trans (by decide)⟩
  exact hwaits overdrawing [.closeParen] rfl not_offends_overdrawing

end Reckoner
