/-!
# The nearest double

`nearest num den` is the double nearest to the fraction `num / den`. Halfway cases go to the even
significand, and fractions beyond the largest double to infinity.

* `two_mul_dist_roundHalfEven_le`: rounding moves a quotient by at most half a unit.
  `even_roundHalfEven`: what it moves by just half a unit becomes even.
* `powLe_binaryExponent`: the exponent is that of the leading binary digit.
* `nearestBits_le`: a fraction is rounded to a finite double or to infinity.

A non-negative double is handled through its bits, read as a natural number: eleven bits of
exponent over 52 bits of significand. In that reading the doubles are numbered in order of size.
-/

namespace Reckoner.Number

-- A power of natural numbers is the one of core, also where an algebraic one is imported.
attribute [instance (2000), default_instance (20000)] instPowNat

/-- The whole number nearest to `num / den`, and the even one of two that are equally near. -/
def roundHalfEven (num den : Nat) : Nat :=
  let quotient := num / den
  let twice := 2 * (num % den)
  if twice < den then quotient
  else if den < twice then quotient + 1
  else quotient + quotient % 2

/-- The exponent of the largest power of two that is at most `num / den`. -/
def binaryExponent (num den : Nat) : Int :=
  let k : Int := num.log2 - den.log2
  if den * 2 ^ k.toNat ≤ num * 2 ^ (-k).toNat then k else k - 1

/-- The bits of infinity: the exponent is all ones, the significand zero. -/
def infinityBits : Nat :=
  2047 * 2 ^ 52

/-- The exponent of the unit in which the double nearest to `num / den` counts: 52 places below
the leading one, but never below the unit of the subnormal doubles. -/
def unitExponent (num den : Nat) : Int :=
  max (binaryExponent num den - 52) (-1074)

/-- The bits of the non-negative double nearest to `num / den`. A significand that rounds up to
the next power of two carries into the exponent. -/
def nearestBits (num den : Nat) : Nat :=
  if num = 0 then 0
  else
    let e := unitExponent num den
    let significand := roundHalfEven (num * 2 ^ (-e).toNat) (den * 2 ^ e.toNat)
    min ((e + 1074).toNat * 2 ^ 52 + significand) infinityBits

/-- The non-negative double nearest to `num / den`. -/
def nearest (num den : Nat) : Float :=
  Float.ofBits (nearestBits num den).toUInt64

/-- The rounded quotient, in units of `den`, lies within half a unit of `num`. -/
theorem two_mul_dist_roundHalfEven_le (num : Nat) {den : Nat} (h : 0 < den) :
    2 * (roundHalfEven num den * den) ≤ 2 * num + den ∧
      2 * num ≤ 2 * (roundHalfEven num den * den) + den := by
  have hd := Nat.div_add_mod num den
  have hr := Nat.mod_lt num h
  rw [Nat.mul_comm] at hd
  simp only [roundHalfEven]
  split
  · omega
  · split
    · rw [Nat.add_mul]; omega
    · rcases Nat.mod_two_eq_zero_or_one (num / den) with he | he
      · rw [he, Nat.add_zero]; omega
      · rw [he, Nat.add_mul]; omega

/-- Of two whole numbers that are equally near to a quotient, it is rounded to the even one. -/
theorem even_roundHalfEven {num den : Nat} (h : 0 < den)
    (htie : 2 * (roundHalfEven num den * den) = 2 * num + den ∨
      2 * num = 2 * (roundHalfEven num den * den) + den) : roundHalfEven num den % 2 = 0 := by
  have hd := Nat.div_add_mod num den
  have hr := Nat.mod_lt num h
  rw [Nat.mul_comm] at hd
  rcases Nat.lt_trichotomy (2 * (num % den)) den with hlt | heq | hgt
  · simp only [roundHalfEven, hlt, if_true] at htie
    omega
  · simp only [roundHalfEven, heq, Nat.lt_irrefl, if_false]
    omega
  · simp only [roundHalfEven, hgt, Nat.lt_asymm hgt, if_true, if_false, Nat.add_mul] at htie
    omega

/-! ## The leading digit -/

/-- The power `2 ^ k` is at most `num / den`. -/
def PowLe (num den : Nat) (k : Int) : Prop :=
  den * 2 ^ k.toNat ≤ num * 2 ^ (-k).toNat

private theorem not_powLe_log2_add_one {num den : Nat} (hd : den ≠ 0) :
    ¬ PowLe num den ((num.log2 : Int) - den.log2 + 1) := by
  have hn := @Nat.lt_log2_self num
  have hd := Nat.log2_self_le hd
  unfold PowLe
  rw [Nat.not_le]
  by_cases h : den.log2 ≤ num.log2
  · rw [show (-((num.log2 : Int) - den.log2 + 1)).toNat = 0 by omega, Nat.pow_zero, Nat.mul_one]
    refine Nat.lt_of_lt_of_le hn (Nat.le_trans ?_ (Nat.mul_le_mul_right _ hd))
    rw [← Nat.pow_add]
    exact Nat.pow_le_pow_right (by decide) (by omega)
  · rw [show ((num.log2 : Int) - den.log2 + 1).toNat = 0 by omega, Nat.pow_zero, Nat.mul_one]
    refine Nat.lt_of_lt_of_le (Nat.mul_lt_mul_of_pos_right hn (Nat.two_pow_pos _)) ?_
    rw [← Nat.pow_add]
    exact Nat.le_trans (Nat.pow_le_pow_right (by decide) (by omega)) hd

private theorem powLe_log2_sub_one {num den : Nat} (hn : num ≠ 0) :
    PowLe num den ((num.log2 : Int) - den.log2 - 1) := by
  have hn := Nat.log2_self_le hn
  have hd := @Nat.lt_log2_self den
  unfold PowLe
  by_cases h : den.log2 < num.log2
  · rw [show (-((num.log2 : Int) - den.log2 - 1)).toNat = 0 by omega, Nat.pow_zero, Nat.mul_one]
    refine Nat.le_trans (Nat.mul_le_mul_right _ (Nat.le_of_lt hd)) (Nat.le_trans ?_ hn)
    rw [← Nat.pow_add]
    exact Nat.pow_le_pow_right (by decide) (by omega)
  · rw [show ((num.log2 : Int) - den.log2 - 1).toNat = 0 by omega, Nat.pow_zero, Nat.mul_one]
    refine Nat.le_trans (Nat.le_of_lt hd) (Nat.le_trans ?_ (Nat.mul_le_mul_right _ hn))
    rw [← Nat.pow_add]
    exact Nat.pow_le_pow_right (by decide) (by omega)

/-- The exponent is that of the largest power of two that is at most the fraction. -/
theorem powLe_binaryExponent {num den : Nat} (hn : num ≠ 0) (hd : den ≠ 0) :
    PowLe num den (binaryExponent num den) ∧ ¬ PowLe num den (binaryExponent num den + 1) := by
  simp only [binaryExponent]
  split
  · next h => exact ⟨h, not_powLe_log2_add_one hd⟩
  · next h => exact ⟨powLe_log2_sub_one hn, by rwa [Int.sub_add_cancel]⟩

theorem nearestBits_le (num den : Nat) : nearestBits num den ≤ infinityBits := by
  unfold nearestBits
  split
  · exact Nat.zero_le _
  · exact Nat.min_le_right _ _

end Reckoner.Number
