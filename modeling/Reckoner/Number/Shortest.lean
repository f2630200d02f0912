import Reckoner.Number.Nearest

/-!
# The shortest decimal of a double

`shortest bits` is a decimal that is read back as the double with these bits, with as few digits
as any such decimal, and of those the one nearest to the double. Of two that are equally near it
is the larger.

The search goes through the decimal grids from coarse to fine. On each grid only the two
neighbours of the double can be read back as it, if any can, and each is tested by reading it.

* `nearestBits_of_tryGrid`: what a grid offers is read back as the double.
-/

namespace Reckoner.Number

/-- The decimal number `digits · 10 ^ exponent`. -/
structure Decimal where
  digits : Nat
  exponent : Int
  deriving DecidableEq, Repr

/-- The bits of the double nearest to a decimal. -/
def Decimal.nearestBits (d : Decimal) : Nat :=
  Number.nearestBits (d.digits * 10 ^ d.exponent.toNat) (10 ^ (-d.exponent).toNat)

/-- The significand of a double, with the leading one that normal doubles leave out. -/
def significand (bits : Nat) : Nat :=
  if bits < 2 ^ 52 then bits else bits % 2 ^ 52 + 2 ^ 52

/-- The exponent of the power of two that the significand of a double counts. -/
def scale (bits : Nat) : Int :=
  if bits < 2 ^ 52 then -1074 else (bits / 2 ^ 52 : Nat) - 1075

/-- The decimal on the grid of multiples of `10 ^ exponent` that is read back as the double: the
nearer of its two neighbours on the grid if both are, and the upper one if they are equally
near. -/
def tryGrid (bits : Nat) (exponent : Int) : Option Decimal :=
  let num := significand bits * 2 ^ (scale bits).toNat * 10 ^ (-exponent).toNat
  let den := 2 ^ (-scale bits).toNat * 10 ^ exponent.toNat
  let below : Decimal := ⟨num / den, exponent⟩
  let above : Decimal := ⟨num / den + 1, exponent⟩
  if below.nearestBits = bits then
    if above.nearestBits = bits ∧ den ≤ 2 * (num % den) then some above else some below
  else if above.nearestBits = bits then some above
  else none

/-- The exponent of a grid on which the double lies below the first point after zero. The decimal
logarithm of two is taken as `30103 / 100000`, which is exact enough for every exponent of a
double. -/
def coarsest (bits : Nat) : Int :=
  ((significand bits).log2 + scale bits + 1) * 30103 / 100000 + 1

/-- The decimal that is equal to the double. -/
def exact (bits : Nat) : Decimal :=
  if 0 ≤ scale bits then ⟨significand bits * 2 ^ (scale bits).toNat, 0⟩
  else ⟨significand bits * 5 ^ (-scale bits).toNat, scale bits⟩

/-- The shortest decimal that is read back as the double. Seventeen digits are always enough, so
one of the twenty grids from the coarsest one on has it. -/
def shortest (bits : Nat) : Decimal :=
  ((List.range 20).findSome? fun (k : Nat) => tryGrid bits (coarsest bits - k)).getD (exact bits)

/-- What a grid offers is read back as the double. -/
theorem nearestBits_of_tryGrid {bits : Nat} {exponent : Int} {d : Decimal}
    (h : tryGrid bits exponent = some d) : d.nearestBits = bits := by
  simp only [tryGrid] at h
  split at h
  · next hb =>
    split at h
    · next ha => rw [← Option.some.inj h]; exact ha.1
    · rw [← Option.some.inj h]; exact hb
  · split at h
    · next ha => rw [← Option.some.inj h]; exact ha
    · cases h

end Reckoner.Number
