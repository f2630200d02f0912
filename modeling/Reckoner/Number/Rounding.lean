import Mathlib.Algebra.Order.Field.Power
import Mathlib.Data.Rat.Cast.Order
import Mathlib.Tactic.FieldSimp
import Mathlib.Tactic.Linarith
import Mathlib.Tactic.Qify
import Mathlib.Tactic.Ring
import Reckoner.Number.Shortest

/-!
# Rounding to the nearest double

`nearestBits` is correct rounding: no double is nearer to the fraction than the one it answers, and
of two that are equally near it answers the even one. Infinity takes part as the power of two that
follows the largest double, so a fraction goes there from halfway between the two on.

* `magnitude`, `IsNearest`: what a double stands for, and what it is to be nearest to a rational.
  `NearestAt` says that of numbers of any kind.
* `magnitude_strictMono`: doubles are numbered in order of size.
* `roundHalfEven_nearest`, `unitCount_nearest`: no whole quotient is nearer, and no multiple of the
  unit.
* `unboundedBits_nearest`: no double is nearer, if the exponent has no bound above.
* `nearestBits_eq_iff`: rounding answers the nearest double, and there is just one.
* `nearestBits_shortest`: the shortest decimal of a double is read back as it.

A double is a multiple of the unit in which the fraction is counted, or its exponent is smaller. In
the second case it lies below a multiple that is no larger than the fraction.
-/

namespace Reckoner.Number

variable {num den bits k r : Nat} {e : Int} {x : ℚ}

/-- The number that a non-negative double stands for. Infinity counts as the power of two that
follows the largest double. -/
def magnitude (bits : Nat) : ℚ :=
  significand bits * 2 ^ scale bits

/-- No double is nearer to `x`. If another one is as near, this one is even. -/
structure IsNearest (x : ℚ) (bits : Nat) : Prop where
  le : bits ≤ infinityBits
  nearest : ∀ b ≤ infinityBits, |magnitude bits - x| ≤ |magnitude b - x|
  even : ∀ b ≤ infinityBits, |magnitude b - x| = |magnitude bits - x| → b = bits ∨ Even bits

/-- The number that is counted `n` is nearest to `x`. If another one is as near, `n` is even. -/
def NearestAt (number : Nat → ℚ) (x : ℚ) (n : Nat) : Prop :=
  ∀ k, |number n - x| ≤ |number k - x| ∧ (|number k - x| = |number n - x| → k = n ∨ Even n)

/-! ## Doubles in order of size -/

theorem scale_add_significand (bits : Nat) :
    (scale bits + 1074).toNat * 2 ^ 52 + significand bits = bits := by
  unfold significand scale
  split <;> omega

theorem scale_spec (bits : Nat) :
    -1074 ≤ scale bits ∧ (scale bits = -1074 ∨ 2 ^ 52 ≤ significand bits) ∧
      significand bits < 2 ^ 53 := by
  unfold significand scale
  split <;> omega

/-- A significand may be the next power of two, which carries into the exponent. -/
theorem magnitude_of_units (he : -1074 ≤ e) (hlow : e = -1074 ∨ 2 ^ 52 ≤ r) (hr : r ≤ 2 ^ 53) :
    magnitude ((e + 1074).toNat * 2 ^ 52 + r) = r * 2 ^ e := by
  by_cases hcarry : r = 2 ^ 53
  · have hs : significand ((e + 1074).toNat * 2 ^ 52 + r) = 2 ^ 52 := by
      unfold significand
      split <;> omega
    have hq : scale ((e + 1074).toNat * 2 ^ 52 + r) = e + 1 := by
      unfold scale
      split <;> omega
    rw [magnitude, hs, hq, hcarry, zpow_add_one₀ two_ne_zero]
    push_cast
    ring
  · have hs : significand ((e + 1074).toNat * 2 ^ 52 + r) = r := by
      unfold significand
      split <;> omega
    have hq : scale ((e + 1074).toNat * 2 ^ 52 + r) = e := by
      unfold scale
      split <;> omega
    rw [magnitude, hs, hq]

theorem magnitude_strictMono : StrictMono magnitude := by
  refine strictMono_nat_of_lt_succ fun bits => ?_
  obtain ⟨he, hlow, hr⟩ := scale_spec bits
  have hnext := magnitude_of_units he (hlow.imp_right Nat.le_succ_of_le) hr
  rw [Nat.succ_eq_add_one, ← Nat.add_assoc, scale_add_significand] at hnext
  rw [hnext, magnitude]
  gcongr
  exact Nat.lt_succ_self _

/-- A double of a larger exponent is a multiple of the unit. -/
theorem exists_magnitude_eq (h : e ≤ scale bits) : ∃ k : Nat, magnitude bits = k * 2 ^ e := by
  refine ⟨significand bits * 2 ^ (scale bits - e).toNat, ?_⟩
  rw [magnitude]
  push_cast
  rw [← zpow_natCast, mul_assoc, ← zpow_add₀ two_ne_zero]
  congr 2
  omega

/-- One of a smaller exponent comes before all normal doubles with this unit. -/
theorem lt_of_scale_lt (h : scale bits < e) :
    -1074 < e ∧ bits < (e + 1074).toNat * 2 ^ 52 + 2 ^ 52 := by
  unfold scale at h
  split at h <;> omega

theorem isNearest_magnitude (h : bits ≤ infinityBits) : IsNearest (magnitude bits) bits where
  le := h
  nearest b _ := by simp
  even b _ heq := by
    rw [sub_self, abs_zero, abs_eq_zero, sub_eq_zero] at heq
    exact .inl (magnitude_strictMono.injective heq)

/-- Between two even doubles that are equally near lies one that is nearer. -/
theorem IsNearest.unique {b : Nat} (h : IsNearest x bits) (h' : IsNearest x b) : bits = b := by
  by_contra hne
  wlog hlt : bits < b generalizing bits b
  · exact this h' h (Ne.symm hne) (by omega)
  have heq := le_antisymm (h'.nearest bits h.le) (h.nearest b h'.le)
  obtain ⟨m, hm⟩ := (h.even b h'.le heq).resolve_left (Ne.symm hne)
  obtain ⟨n, hn⟩ := (h'.even bits h.le heq.symm).resolve_left hne
  have hlow := magnitude_strictMono (Nat.lt_succ_self bits)
  have hhigh : magnitude (bits + 1) < magnitude b := magnitude_strictMono (by omega)
  have hmid := h.nearest (bits + 1) (hlt.trans_le h'.le)
  have hcloser : |magnitude (bits + 1) - x| < |magnitude bits - x| := by
    rcases abs_eq_abs.mp heq with hsame | hflip
    · linarith
    · rw [← heq]
      exact lt_of_lt_of_le (abs_lt.mpr ⟨by linarith, by linarith⟩) (le_abs_self _)
  exact absurd hmid (not_le.mpr hcloser)

/-! ## Quotients -/

theorem abs_roundHalfEven_sub_le (num : Nat) (h : 0 < den) :
    |(roundHalfEven num den : ℚ) - num / den| ≤ 1 / 2 := by
  obtain ⟨hup, hdown⟩ := two_mul_dist_roundHalfEven_le num h
  have hpos : (0 : ℚ) < den := Nat.cast_pos.mpr h
  qify at hup hdown
  have below : (roundHalfEven num den : ℚ) - 1 / 2 ≤ num / den := by
    rw [le_div_iff₀ hpos]
    linarith
  have above : (num / den : ℚ) ≤ roundHalfEven num den + 1 / 2 := by
    rw [div_le_iff₀ hpos]
    linarith
  exact abs_le.mpr ⟨by linarith, by linarith⟩

theorem even_of_abs_roundHalfEven_sub (h : 0 < den)
    (htie : |(roundHalfEven num den : ℚ) - num / den| = 1 / 2) : Even (roundHalfEven num den) := by
  have hne : (den : ℚ) ≠ 0 := Nat.cast_ne_zero.mpr h.ne'
  refine Nat.even_iff.mpr (even_roundHalfEven h ?_)
  qify
  rcases eq_or_eq_neg_of_abs_eq htie with heq | heq
  · left
    field_simp at heq
    linarith
  · right
    field_simp at heq
    linarith

/-- No whole number is nearer to the quotient: another one is at least 1 away from it, and the
quotient no more than 1/2. -/
theorem roundHalfEven_nearest (num : Nat) (h : 0 < den) :
    NearestAt (fun k => (k : ℚ)) (num / den) (roundHalfEven num den) := by
  intro k
  have hhalf := abs_roundHalfEven_sub_le num h
  by_cases hk : k = roundHalfEven num den
  · exact ⟨by rw [hk], fun _ => .inl hk⟩
  · have hone : (1 : ℚ) ≤ |(k : ℚ) - roundHalfEven num den| := by
      have hne : (k : Int) - roundHalfEven num den ≠ 0 := by omega
      exact_mod_cast Int.one_le_abs hne
    have hsum := abs_sub_le (k : ℚ) (num / den) (roundHalfEven num den)
    rw [abs_sub_comm (num / den : ℚ)] at hsum
    exact ⟨by linarith, fun heq => .inr (even_of_abs_roundHalfEven_sub h (by linarith))⟩

theorem roundHalfEven_le (h : 0 < den) (hk : (num / den : ℚ) ≤ k) : roundHalfEven num den ≤ k := by
  have hhalf := abs_le.mp (abs_roundHalfEven_sub_le num h)
  have hlt : (roundHalfEven num den : ℚ) < k + 1 := by linarith
  exact Nat.lt_succ_iff.mp (by exact_mod_cast hlt)

theorem le_roundHalfEven (h : 0 < den) (hk : (k : ℚ) ≤ num / den) : k ≤ roundHalfEven num den := by
  have hhalf := abs_le.mp (abs_roundHalfEven_sub_le num h)
  have hlt : (k : ℚ) < roundHalfEven num den + 1 := by linarith
  exact Nat.lt_succ_iff.mp (by exact_mod_cast hlt)

/-! ## Units -/

private theorem two_pow_toNat (e : Int) : (2 : ℚ) ^ e.toNat = 2 ^ e * 2 ^ (-e).toNat := by
  rw [← zpow_natCast, ← zpow_natCast, ← zpow_add₀ two_ne_zero]
  congr 1
  omega

private theorem cast_div_units (num den : Nat) (e : Int) :
    ((num * 2 ^ (-e).toNat : Nat) : ℚ) / (den * 2 ^ e.toNat : Nat) = num / den / 2 ^ e := by
  push_cast
  rw [two_pow_toNat e, ← mul_assoc, mul_div_mul_right _ _ (by positivity), div_div]

theorem powLe_iff (hd : 0 < den) (k : Int) : PowLe num den k ↔ (2 : ℚ) ^ k ≤ num / den := by
  have hpos : (0 : ℚ) < den := Nat.cast_pos.mpr hd
  have hpow : (0 : ℚ) < 2 ^ (-k).toNat := by positivity
  rw [le_div_iff₀ hpos, ← mul_le_mul_iff_of_pos_right hpow, mul_right_comm, ← two_pow_toNat,
    mul_comm (2 ^ k.toNat : ℚ), PowLe]
  norm_cast

/-- The unit leaves a fraction 53 binary digits, or fewer if it is the smallest one. -/
theorem unitExponent_spec (hn : num ≠ 0) (hd : 0 < den) :
    -1074 ≤ unitExponent num den ∧
      (unitExponent num den = -1074 ∨ (2 : ℚ) ^ 52 * 2 ^ unitExponent num den ≤ num / den) ∧
      (num / den : ℚ) < 2 ^ 53 * 2 ^ unitExponent num den := by
  obtain ⟨hlow, hhigh⟩ := powLe_binaryExponent hn hd.ne'
  rw [powLe_iff hd] at hlow hhigh
  have hunit : unitExponent num den = max (binaryExponent num den - 52) (-1074) := rfl
  refine ⟨by omega, ?_, ?_⟩
  · rcases eq_or_ne (unitExponent num den) (-1074) with he | he
    · exact .inl he
    · refine .inr (le_trans (le_of_eq ?_) hlow)
      rw [← zpow_natCast, ← zpow_add₀ two_ne_zero]
      congr 1
      push_cast
      omega
  · refine lt_of_lt_of_le (not_le.mp hhigh) ?_
    rw [← zpow_natCast, ← zpow_add₀ two_ne_zero]
    exact zpow_le_zpow_right₀ one_le_two (by push_cast; omega)

/-- How many units of `2 ^ e` are nearest to a fraction. -/
def unitCount (num den : Nat) (e : Int) : Nat :=
  roundHalfEven (num * 2 ^ (-e).toNat) (den * 2 ^ e.toNat)

theorem unitCount_le (h : 0 < den) (hk : (num / den : ℚ) ≤ k * 2 ^ e) :
    unitCount num den e ≤ k := by
  refine roundHalfEven_le (Nat.mul_pos h (Nat.two_pow_pos _)) ?_
  rwa [cast_div_units, div_le_iff₀ (by positivity)]

theorem le_unitCount (h : 0 < den) (hk : k * 2 ^ e ≤ (num / den : ℚ)) :
    k ≤ unitCount num den e := by
  refine le_roundHalfEven (Nat.mul_pos h (Nat.two_pow_pos _)) ?_
  rwa [cast_div_units, le_div_iff₀ (by positivity)]

private theorem abs_units_sub (x y : ℚ) (e : Int) :
    |y * 2 ^ e - x| = |y - x / 2 ^ e| * 2 ^ e := by
  have hpos : (0 : ℚ) < 2 ^ e := by positivity
  rw [← abs_of_pos hpos, ← abs_mul, abs_of_pos hpos, sub_mul, div_mul_cancel₀ _ hpos.ne']

/-- No multiple of the unit is nearer to the fraction. -/
theorem unitCount_nearest (num : Nat) (h : 0 < den) (e : Int) :
    NearestAt (fun k => k * 2 ^ e) (num / den) (unitCount num den e) := by
  intro k
  have hpos : (0 : ℚ) < 2 ^ e := by positivity
  have hnear := roundHalfEven_nearest (num * 2 ^ (-e).toNat)
    (Nat.mul_pos h (Nat.two_pow_pos e.toNat)) k
  rw [cast_div_units] at hnear
  simp only [abs_units_sub, unitCount, mul_le_mul_iff_of_pos_right hpos, mul_left_inj' hpos.ne']
  exact hnear

/-! ## Fractions -/

/-- The bits of the double nearest to a fraction, if the exponent has no bound above. -/
def unboundedBits (num den : Nat) : Nat :=
  (unitExponent num den + 1074).toNat * 2 ^ 52 + unitCount num den (unitExponent num den)

theorem nearestBits_eq_min (hn : num ≠ 0) (den : Nat) :
    nearestBits num den = min (unboundedBits num den) infinityBits := if_neg hn

theorem magnitude_unboundedBits (hn : num ≠ 0) (hd : 0 < den) :
    magnitude (unboundedBits num den) =
      unitCount num den (unitExponent num den) * 2 ^ unitExponent num den := by
  obtain ⟨he, hlow, hhigh⟩ := unitExponent_spec hn hd
  refine magnitude_of_units he (hlow.imp_right fun hlow => le_unitCount hd ?_) (unitCount_le hd ?_)
  · exact_mod_cast hlow
  · exact_mod_cast hhigh.le

private theorem abs_sub_lt_abs_sub {y z : ℚ} (hy : y < z) (hz : z ≤ x) : |z - x| < |y - x| := by
  rw [abs_of_nonpos (by linarith), abs_of_neg (by linarith)]
  linarith

theorem unboundedBits_nearest (hn : num ≠ 0) (hd : 0 < den) :
    NearestAt magnitude (num / den) (unboundedBits num den) := by
  intro b
  have hm := magnitude_unboundedBits hn hd
  have hnear := unitCount_nearest num hd (unitExponent num den)
  rcases le_or_gt (unitExponent num den) (scale b) with hs | hs
  · obtain ⟨k, hk⟩ := exists_magnitude_eq hs
    rw [hm, hk]
    refine ⟨(hnear k).1, fun heq => ?_⟩
    rcases (hnear k).2 heq with rfl | heven
    · exact .inl (magnitude_strictMono.injective (hk.trans hm.symm))
    · exact .inr ((Even.mul_left (by decide) _).add heven)
  · obtain ⟨he, hlt⟩ := lt_of_scale_lt hs
    have hfloor := magnitude_of_units he.le (.inr (le_refl (2 ^ 52))) (by decide)
    have hx : magnitude ((unitExponent num den + 1074).toNat * 2 ^ 52 + 2 ^ 52) ≤ num / den := by
      rw [hfloor]
      exact_mod_cast (unitExponent_spec hn hd).2.1.resolve_left he.ne'
    have hstep : |magnitude (unboundedBits num den) - num / den| ≤
        |magnitude ((unitExponent num den + 1074).toNat * 2 ^ 52 + 2 ^ 52) - num / den| := by
      rw [hm, hfloor]
      exact (hnear (2 ^ 52)).1
    have hcloser := lt_of_le_of_lt hstep (abs_sub_lt_abs_sub (magnitude_strictMono hlt) hx)
    exact ⟨hcloser.le, fun heq => absurd heq hcloser.ne'⟩

/-- What is rounded beyond infinity is at least as large as it, so infinity is nearest. -/
theorem isNearest_nearestBits (num : Nat) (hd : 0 < den) :
    IsNearest (num / den) (nearestBits num den) := by
  by_cases hn : num = 0
  · have hzero : IsNearest (magnitude 0) 0 := isNearest_magnitude (Nat.zero_le _)
    simpa [hn, nearestBits, magnitude, significand] using hzero
  have hnear := unboundedBits_nearest hn hd
  rw [nearestBits_eq_min hn]
  rcases le_or_gt (unboundedBits num den) infinityBits with hle | hgt
  · rw [min_eq_left hle]
    exact ⟨hle, fun b _ => (hnear b).1, fun b _ => (hnear b).2⟩
  · rw [min_eq_right hgt.le]
    have hover : magnitude infinityBits ≤ num / den := by
      -- Below infinity, infinity would be nearer than what lies beyond it.
      by_contra hx
      have hm := magnitude_strictMono hgt
      have hstep := (hnear infinityBits).1
      rw [abs_of_pos (by linarith), abs_of_pos (by linarith)] at hstep
      linarith
    refine ⟨le_rfl, fun b hb => ?_, fun b _ _ => .inr (by decide)⟩
    rcases hb.eq_or_lt with rfl | hlt
    · exact le_rfl
    · exact (abs_sub_lt_abs_sub (magnitude_strictMono hlt) hover).le

/-- **Correct rounding.** A fraction is rounded to the double nearest to it. -/
theorem nearestBits_eq_iff (hd : 0 < den) :
    nearestBits num den = bits ↔ IsNearest (num / den) bits :=
  ⟨fun h => h ▸ isNearest_nearestBits num hd, fun h => (isNearest_nearestBits num hd).unique h⟩

/-! ## Decimals -/

/-- The number that a decimal stands for. -/
def Decimal.toRat (d : Decimal) : ℚ :=
  d.digits * 10 ^ d.exponent

theorem Decimal.nearestBits_eq_iff {d : Decimal} :
    d.nearestBits = bits ↔ IsNearest d.toRat bits := by
  have hpos : 0 < 10 ^ (-d.exponent).toNat := Nat.pow_pos (by decide)
  have hx : ((d.digits * 10 ^ d.exponent.toNat : Nat) : ℚ) / (10 ^ (-d.exponent).toNat : Nat) =
      d.toRat := by
    push_cast
    rw [Decimal.toRat, div_eq_iff (by positivity), mul_assoc, ← zpow_natCast, ← zpow_natCast,
      ← zpow_add₀ (by decide)]
    congr 2
    omega
  rw [Decimal.nearestBits, Number.nearestBits_eq_iff hpos, hx]

theorem toRat_exact (bits : Nat) : (exact bits).toRat = magnitude bits := by
  unfold exact Decimal.toRat magnitude
  split
  · next h =>
    push_cast
    rw [mul_one, ← zpow_natCast, Int.toNat_of_nonneg h]
  · next h =>
    have hfive : (5 : ℚ) ^ (-scale bits).toNat * 10 ^ scale bits = 2 ^ scale bits := by
      rw [show (10 : ℚ) = 5 * 2 by norm_num, mul_zpow, ← mul_assoc, ← zpow_natCast,
        ← zpow_add₀ (by decide), show ((-scale bits).toNat : Int) + scale bits = 0 by omega,
        zpow_zero, one_mul]
    push_cast
    rw [mul_assoc, hfive]

/-- The exact decimal of a double is read back as it. -/
theorem nearestBits_exact (h : bits ≤ infinityBits) : (exact bits).nearestBits = bits := by
  rw [Decimal.nearestBits_eq_iff, toRat_exact]
  exact isNearest_magnitude h

/-- So is the shortest one. -/
theorem nearestBits_shortest (h : bits ≤ infinityBits) : (shortest bits).nearestBits = bits := by
  unfold shortest
  cases hg : (List.range 20).findSome? fun (k : Nat) => tryGrid bits (coarsest bits - k) with
  | none => exact nearestBits_exact h
  | some d =>
    obtain ⟨k, -, hk⟩ := List.exists_of_findSome?_eq_some hg
    exact nearestBits_of_tryGrid hk

end Reckoner.Number
