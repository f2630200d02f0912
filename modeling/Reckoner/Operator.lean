/-!
# Operators and how they bind

* `Operator`: the four binary operators, `Operator.symbol` the character that writes each.
* `Operator.ofSymbol?_eq_some_iff`: a character is read as an operator exactly when it is its
  symbol.
* `Binding`: how tightly an operator holds its operands and to which side equals group.
  `Binding.appliesBefore` is the rule by which a waiting operator is applied before a later one.
-/

namespace Reckoner

/-- The binary operators of an expression. -/
inductive Operator where
  | add
  | sub
  | mul
  | div
  deriving DecidableEq, Repr

/-- The side to which operators of one level group: `a - b - c` groups to the left. -/
inductive Grouping where
  | left
  | right
  deriving DecidableEq, Repr

/-- How an operator binds: a higher level binds tighter, and among equals `grouping` decides. -/
structure Binding where
  level : Nat
  grouping : Grouping
  deriving DecidableEq, Repr

/-- A waiting operator is applied before an incoming one that binds looser, or as tight and groups
to the left. -/
def Binding.appliesBefore (waiting incoming : Binding) : Bool :=
  incoming.level < waiting.level ||
    (waiting.level == incoming.level && incoming.grouping == .left)

namespace Operator

/-- All operators, in their order of declaration. -/
def all : List Operator := [add, sub, mul, div]

/-- The character that writes an operator. -/
def symbol : Operator → Char
  | add => '+'
  | sub => '-'
  | mul => '*'
  | div => '/'

/-- The operator that a character writes. -/
def ofSymbol? (c : Char) : Option Operator :=
  all.find? fun o => o.symbol == c

/-- Products bind tighter than sums, and all four operators group to the left. -/
def binding : Operator → Binding
  | add => ⟨1, .left⟩
  | sub => ⟨1, .left⟩
  | mul => ⟨2, .left⟩
  | div => ⟨2, .left⟩

/-- An operator is written by its symbol alone. -/
def text (o : Operator) : String :=
  String.singleton o.symbol

@[simp] theorem ofSymbol?_symbol (o : Operator) : ofSymbol? o.symbol = some o := by
  cases o <;> rfl

theorem ofSymbol?_eq_some_iff {c : Char} {o : Operator} :
    ofSymbol? c = some o ↔ c = o.symbol := by
  constructor
  · intro h
    unfold ofSymbol? at h
    have : o.symbol = c := by simpa using List.find?_some h
    exact this.symm
  · rintro rfl
    exact ofSymbol?_symbol o

/-- All operators group to the left, so one is applied before those that bind no tighter. -/
theorem appliesBefore_iff {o p : Operator} :
    o.binding.appliesBefore p.binding = true ↔ p.binding.level ≤ o.binding.level := by
  cases o <;> cases p <;> decide

end Operator

end Reckoner
