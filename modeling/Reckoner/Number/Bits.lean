import Mathlib
import Reckoner.Number.Nearest

/-!
# Doubles and their bits

* `toNat_toBits_ofBits`, `toNat_toBits_nearest`: the bits of a non-negative double are kept by it.
* `isFinite_iff`: a double is finite when its exponent is not all ones.
* `eq_zero_of_beq`: a double equal to zero is zero, or its sign is set.

A word is a sign, eleven bits of exponent and 52 bits of mantissa.
-/

namespace Reckoner.Number

open Float.Model Float.Model.UnpackedFloat

/-- The exponent field of a word. -/
private theorem toNat_unpackExponent (b : BitVec 64) :
    (@unpackExponent Format.binary64 b).toNat = b.toNat / 2 ^ 52 % 2 ^ 11 := by
  simp [unpackExponent, Nat.shiftRight_eq_div_pow]

/-- The mantissa field of a word. -/
private theorem toNat_unpackMantissa (b : BitVec 64) :
    (@unpackMantissa Format.binary64 b).toNat = b.toNat % 2 ^ 52 := by
  simp [unpackMantissa]

private theorem toNat_unpackExponent_eq_ones {b : BitVec 64}
    (h : @unpackExponent Format.binary64 b = -BitVec.ofNat Format.binary64.exponentBits 1) :
    b.toNat / 2 ^ 52 % 2 ^ 11 = 2047 := by
  rw [← toNat_unpackExponent, h]
  rfl

private theorem isFinite_unpack_iff (b : BitVec 64) :
    (UnpackedFloat.unpack Format.binary64 b).isFinite = true ↔
      (@unpackExponent Format.binary64 b).toNat ≠ 2 ^ 11 - 1 := by
  have ones : (@unpackExponent Format.binary64 b).toNat = 2 ^ 11 - 1 ↔
      @unpackExponent Format.binary64 b = -BitVec.ofNat Format.binary64.exponentBits 1 := by
    rw [← BitVec.toNat_inj]
    rfl
  rw [Ne, ones, UnpackedFloat.unpack]
  split
  · next h =>
    refine ⟨fun hf => ?_, fun hne => absurd h hne⟩
    split at hf <;> cases hf
  · next h =>
    refine ⟨fun _ => h, fun _ => ?_⟩
    split
    · split <;> rfl
    · rfl

/-- A double is finite when its exponent is not all ones. -/
theorem isFinite_iff (x : Float) :
    x.isFinite = true ↔ x.toBits.toNat % 2 ^ 63 < infinityBits := by
  have := isFinite_unpack_iff x.toBits.toBitVec
  rw [toNat_unpackExponent] at this
  refine Iff.trans this ?_
  change x.toBits.toNat / 2 ^ 52 % 2 ^ 11 ≠ 2 ^ 11 - 1 ↔ _
  unfold infinityBits
  omega

theorem isNaN_of_isFinite {x : Float} (h : x.isFinite = true) : x.isNaN = false := by
  change x.toModel.unpack.isFinite = true at h
  change x.toModel.unpack.isNaN = false
  generalize x.toModel.unpack = u at h
  cases u with
  | notANumber => cases h
  | _ => rfl

private theorem exists_zero_of_beq {u : UnpackedFloat} (h : u.beq (.zero .positive) = true) :
    ∃ s, u = .zero s := by
  cases u with
  | zero s => exact ⟨s, rfl⟩
  | notANumber => cases h
  | infinity s => cases s <;> cases h
  | finite s => cases s <;> cases h

/-- Two doubles are equal to zero, and the sign tells them apart. -/
theorem eq_zero_of_beq {x : Float} (h : (x == 0.0) = true) (hs : x.toBits.toNat < 2 ^ 63) :
    x = 0.0 := by
  obtain ⟨s, hz⟩ := exists_zero_of_beq (u := x.toModel.unpack) h
  have hpack : UnpackedFloat.pack Format.binary64 x.toModel.unpack = x.toBits.toBitVec :=
    pack_unpack_of_valid x.toModel.valid
  rw [hz] at hpack
  have hbits : x.toBits.toNat = (packedZero Format.binary64 s).toNat :=
    congrArg BitVec.toNat hpack.symm
  cases s with
  | positive =>
    apply Float.toBits_inj.mp
    apply UInt64.toNat_inj.mp
    rw [hbits]
    rfl
  | negative =>
    rw [hbits] at hs
    exact absurd hs (by decide)

/-- Bits of a non-negative double are kept by it. -/
theorem toNat_toBits_ofBits {n : Nat} (h : n ≤ infinityBits) :
    (Float.ofBits n.toUInt64).toBits.toNat = n := by
  have hn : n.toUInt64.toBitVec.toNat = n := Nat.mod_eq_of_lt (by unfold infinityBits at h; omega)
  have valid : Format.binary64.Valid n.toUInt64.toBitVec := by
    refine ⟨fun hones hm => absurd ?_ hm⟩
    have he := toNat_unpackExponent_eq_ones hones
    rw [hn] at he
    apply BitVec.eq_of_toNat_eq
    rw [toNat_unpackMantissa, hn]
    unfold infinityBits at h
    change n % 2 ^ 52 = 0
    omega
  change (UInt64.ofBitVec (UnpackedFloat.pack Format.binary64
    (UnpackedFloat.unpack Format.binary64 n.toUInt64.toBitVec))).toNat = n
  rw [pack_unpack_of_valid valid]
  exact hn

theorem toNat_toBits_nearest (num den : Nat) :
    (nearest num den).toBits.toNat = nearestBits num den :=
  toNat_toBits_ofBits (nearestBits_le num den)

end Reckoner.Number
