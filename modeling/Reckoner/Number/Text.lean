import Reckoner.Number.Shortest

/-!
# The text of a number

A number is written with the shortest digits that are read back as it, always in positional
notation: never an exponent, and no point without digits after it.

* `Decimal.text`: the positional layout of a decimal.
* `text`: the text of a double. Negative zero is `-0`; the others that no decimal writes are
  `inf`, `-inf` and `NaN`.
-/

namespace Reckoner.Number

/-- The digits of a decimal, with zeros where the exponent asks for them, and the point among
them. -/
def Decimal.layout (d : Decimal) : List Char :=
  let digits := Nat.toDigits 10 d.digits
  let places := (-d.exponent).toNat
  if places = 0 then digits ++ List.replicate d.exponent.toNat '0'
  else if places < digits.length then
    digits.take (digits.length - places) ++ '.' :: digits.drop (digits.length - places)
  else '0' :: '.' :: (List.replicate (places - digits.length) '0' ++ digits)

/-- The text of the non-negative double with these bits. -/
def magnitudeText (bits : Nat) : List Char :=
  if bits = 0 then ['0']
  else if bits < infinityBits then (shortest bits).layout
  else ['i', 'n', 'f']

/-- The text of a double. -/
def text (x : Float) : String :=
  let bits := x.toBits.toNat
  if x.isNaN then "NaN"
  else if bits < 2 ^ 63 then String.ofList (magnitudeText bits)
  else String.ofList ('-' :: magnitudeText (bits - 2 ^ 63))

/-- Digits that are as near from below as from above round up. -/
example : text (Float.ofBits 0x3e60000000000000) = "0.000000029802322387695313" := by
  decide +kernel

example : text 1e22 = "10000000000000000000000" ∧ text (-0.0) = "-0" := by decide +kernel

end Reckoner.Number
