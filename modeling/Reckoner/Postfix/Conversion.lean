import Reckoner.Event
import Reckoner.Postfix
import Reckoner.Token.Source

/-!
# From infix to postfix

Numbers pass straight through. An operator waits until one comes that it is applied before, or
until the parenthesis around it closes, or until the end. Only parentheses are checked here:
tokens that are no sentence of infix notation, such as two numbers in a row, are reordered by the
same rule.

* `unwind`, `release`: the operators that stop waiting at a closing parenthesis, at the end, and
  at an incoming operator.
* `shunt`: what one token emits and leaves waiting.
* `convert`: the conversion of a source of tokens, with its events and what it leaves.
* `unwind_eq`, `release_eq`: nothing that waits is lost.
-/

namespace Reckoner

/-- What waits for a later token: an operator for its right operand, an opening parenthesis for
its partner. -/
inductive Pending where
  | operator (o : Operator)
  | paren
  deriving DecidableEq, Repr

namespace Postfix

/-- The operators that wait above the last open parenthesis, the latest first, and what waits from
that parenthesis down. -/
def unwind : List Pending → List Operator × List Pending
  | .operator o :: waiting => (o :: (unwind waiting).1, (unwind waiting).2)
  | waiting => ([], waiting)

/-- The waiting operators that are applied before an incoming one, the latest first, and what goes
on waiting. -/
def release (incoming : Operator) : List Pending → List Operator × List Pending
  | .operator o :: waiting =>
    if o.binding.appliesBefore incoming.binding then
      (o :: (release incoming waiting).1, (release incoming waiting).2)
    else ([], .operator o :: waiting)
  | waiting => ([], waiting)

/-- The tokens that one token emits, and what waits after it. -/
def shunt (waiting : List Pending) : Token → Except ConversionFault (List Token × List Pending)
  | .number value => .ok ([.number value], waiting)
  | .openParen => .ok ([], .paren :: waiting)
  | .closeParen =>
    match unwind waiting with
    | (done, .paren :: rest) => .ok (done.map .op, rest)
    | _ => .error (.unbalanced .opening)
  | .op o => .ok ((release o waiting).1.map .op, .operator o :: (release o waiting).2)
  | .unknown text => .error (.invalidToken text)

/-- The tokens that the end emits. -/
def flush (waiting : List Pending) : Except ConversionFault (List Token) :=
  match unwind waiting with
  | (done, []) => .ok (done.map .op)
  | _ => .error (.unbalanced .closing)

/-- The outcome of a conversion: its result, its events, and the source that it leaves. A failed
conversion has taken the token at which it failed and none after it. -/
structure Conversion (σ : Type) where
  result : Except ConversionFault Postfix
  log : List Event
  rest : σ

variable {σ : Type} [TokenSource σ]

/-- The tokens that a source emits when it is converted under what waits already, the event of
each token read, and the source after the last of them. -/
def convertFrom (waiting : List Pending) (s : σ) :
    Except ConversionFault (List Token) × List Event × σ :=
  match h : TokenSource.next s with
  | (none, rest) => (flush waiting, [], rest)
  | (some t, rest) =>
    match shunt waiting t with
    | .error fault => (.error fault, [.shunting t waiting.length], rest)
    | .ok (emitted, waiting') =>
      have : TokenSource.size rest < TokenSource.size s := by
        have := TokenSource.size_next_lt (s := s) (t := t) (by rw [h])
        rwa [h] at this
      let (result, log, last) := convertFrom waiting' rest
      (result.map (emitted ++ ·), .shunting t waiting.length :: log, last)
termination_by TokenSource.size s

/-- The event that reports the outcome of a conversion. -/
def conversionEvent : Except ConversionFault Postfix → Event
  | .ok p => .converted p.tokens.length
  | .error fault => .conversionFailed fault

/-- Converts the tokens of a source, up to its end or the first fault. -/
def convert (s : σ) : Conversion σ :=
  let (tokens, log, rest) := convertFrom [] s
  let result := tokens.map Postfix.mk
  ⟨result, log ++ [conversionEvent result], rest⟩

/-- Converts `n` times in a row, each time going on with what the last conversion left. -/
def convertTimes : Nat → σ → List (Except ConversionFault Postfix) × σ
  | 0, s => ([], s)
  | n + 1, s =>
    let c := convert s
    let (results, rest) := convertTimes n c.rest
    (c.result :: results, rest)

/-- Converts the text of an expression. -/
def ofText (text : String) : Conversion Lexer :=
  convert (Lexer.ofString text)

/-! ## Nothing that waits is lost -/

theorem unwind_eq (waiting : List Pending) :
    (unwind waiting).1.map .operator ++ (unwind waiting).2 = waiting := by
  fun_induction unwind waiting with
  | case1 o waiting ih => simp [ih]
  | case2 waiting => rfl

theorem release_eq (incoming : Operator) (waiting : List Pending) :
    (release incoming waiting).1.map .operator ++ (release incoming waiting).2 = waiting := by
  fun_induction release incoming waiting with
  | case1 o waiting h ih => simp [ih]
  | case2 o waiting h => rfl
  | case3 waiting => rfl

end Postfix

end Reckoner
