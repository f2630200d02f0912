import Reckoner.Number.Bits
import Reckoner.Number.Rounding
import Reckoner.Number.Text
import Reckoner.Numeral

/-!
# Numbers are read back from their texts

* `numeralValue?_text`: the text of a finite number that is not negative is a numeral, and its
  value is the number.
-/

namespace Reckoner.Number

private theorem toDigits_digits (n : Nat) : ∀ c ∈ Nat.toDigits 10 n, digits.contains c = true :=
  fun _ hc => digits_contains_of_isDigit (Nat.isDigit_of_mem_toDigits (by decide) (by decide) hc)

private theorem replicate_digits (n : Nat) :
    ∀ c ∈ List.replicate n '0', digits.contains c = true := by
  intro c hc
  rw [List.eq_of_mem_replicate hc]
  rfl

private theorem append_digits {cs ds : List Char} (hc : ∀ c ∈ cs, digits.contains c = true)
    (hd : ∀ c ∈ ds, digits.contains c = true) : ∀ c ∈ cs ++ ds, digits.contains c = true := by
  intro c h
  exact (List.mem_append.mp h).elim (hc c) (hd c)

/-- The layout of a decimal is a numeral with the value of the decimal. -/
theorem numeralValue?_layout (d : Decimal) :
    numeralValue? d.layout = some (Float.ofBits d.nearestBits.toUInt64) := by
  have hd := toDigits_digits d.digits
  have hv := Nat.ofDigitChars_ten_toDigits (n := d.digits)
  have hne := Nat.toDigits_ne_nil (n := d.digits) (b := 10)
  simp only [Decimal.layout, Decimal.nearestBits]
  split
  · next hp =>
    rw [numeralValue?_of_digits (append_digits hd (replicate_digits _)) (by simp [hne]),
      Nat.ofDigitChars_append, hv, Nat.ofDigitChars_replicate_zero, hp, Nat.mul_comm]
    rfl
  · next hp =>
    have he : d.exponent.toNat = 0 := by omega
    rw [he, Nat.pow_zero, Nat.mul_one]
    split
    · next hl =>
      have hlen : ((Nat.toDigits 10 d.digits).drop
          ((Nat.toDigits 10 d.digits).length - (-d.exponent).toNat)).length
            = (-d.exponent).toNat := by
        rw [List.length_drop]
        omega
      rw [numeralValue?_of_point (fun c hc => hd c (List.mem_of_mem_take hc))
        (fun c hc => hd c (List.mem_of_mem_drop hc)), List.take_append_drop, hv, hlen]
      · rfl
      · rw [← List.length_pos_iff, List.length_take]
        omega
    · next hl =>
      have hlen : (List.replicate ((-d.exponent).toNat - (Nat.toDigits 10 d.digits).length) '0'
          ++ Nat.toDigits 10 d.digits).length = (-d.exponent).toNat := by
        rw [List.length_append, List.length_replicate]
        omega
      have hzeros := replicate_digits ((-d.exponent).toNat - (Nat.toDigits 10 d.digits).length)
      have hpoint := @numeralValue?_of_point ['0'] _ (replicate_digits 1)
        (append_digits hzeros hd) (List.cons_ne_nil _ _)
      rw [List.cons_append, List.nil_append] at hpoint
      rw [hpoint, hlen, List.cons_append, List.nil_append, Nat.ofDigitChars_cons,
        Nat.ofDigitChars_append, Nat.ofDigitChars_replicate_zero]
      simp only [Nat.mul_zero, Nat.sub_self, Nat.add_zero, hv]
      rfl

/-- The text of a finite number that is not negative is a numeral with the number as its value. -/
theorem numeralValue?_text {x : Float} (hf : x.isFinite = true) (hs : x.toBits.toNat < 2 ^ 63) :
    numeralValue? (text x).toList = some x := by
  have hi : x.toBits.toNat < infinityBits := by
    have := (isFinite_iff x).mp hf
    rwa [Nat.mod_eq_of_lt hs] at this
  have hx : Float.ofBits x.toBits.toNat.toUInt64 = x := by
    rw [show x.toBits.toNat.toUInt64 = x.toBits from UInt64.ofNat_toNat]
    exact Float.ofBits_toBits x
  simp only [text, isNaN_of_isFinite hf, hs, if_true, Bool.false_eq_true, if_false,
    String.toList_ofList]
  by_cases h0 : x.toBits.toNat = 0
  · rw [← hx, h0]
    decide +kernel
  · simp only [magnitudeText, h0, hi, if_true, if_false]
    rw [numeralValue?_layout, nearestBits_shortest hi.le, hx]

end Reckoner.Number
