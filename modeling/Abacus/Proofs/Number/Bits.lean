import Mathlib
import Abacus.Number.Nearest

/-!
# The bits of doubles

A double is given by its sign and its magnitude, the bits below the sign bit.

* `ofParts_self`: a double is put together from its sign and magnitude;
* `magnitude_ofParts`, `isNegative_ofParts`: taking apart what was put together, for magnitudes up
  to that of infinity;
* `isFinite_iff`, `isInf_iff`, `isNaN_iff`: a double is finite, infinite or no number as its
  magnitude lies below that of infinity, at it or above.
-/

namespace Abacus.Number

open Float.Model Float.Model.UnpackedFloat

theorem natPow_eq (b n : Nat) : Nat.pow b n = b ^ n := rfl

theorem infinity_eq : Nearest.infinity = 2047 * 2 ^ 52 := rfl

/-- The exponent field of a double reads eleven bits above the lowest 52. -/
theorem toNat_unpackExponent (b : BitVec 64) :
    (@unpackExponent Format.binary64 b).toNat = b.toNat / 2 ^ 52 % 2 ^ 11 := by
  rw [unpackExponent_def, BitVec.extractLsb'_toNat, Nat.shiftRight_eq_div_pow]

theorem toNat_unpackMantissa (b : BitVec 64) :
    (@unpackMantissa Format.binary64 b).toNat = b.toNat % 2 ^ 52 := by
  rw [unpackMantissa_def, BitVec.extractLsb'_toNat, Nat.shiftRight_zero]

theorem unpackExponent_eq_iff (b : BitVec 64) :
    @unpackExponent Format.binary64 b = -1#11 ↔
      Nearest.infinity ≤ b.toNat % 2 ^ 63 := by
  rw [← BitVec.toNat_inj, toNat_unpackExponent, infinity_eq]
  have := b.isLt
  simp only [show (-1#11 : BitVec 11).toNat = 2047 from rfl]
  omega

theorem unpackMantissa_eq_iff (b : BitVec 64) :
    @unpackMantissa Format.binary64 b = 0#52 ↔ b.toNat % 2 ^ 52 = 0 := by
  rw [← BitVec.toNat_inj, toNat_unpackMantissa]
  rfl

theorem isNaNBits_iff (b : BitVec 64) :
    @isNaNBits Format.binary64 b = true ↔ Nearest.infinity < b.toNat % 2 ^ 63 := by
  rw [isNaNBits, decide_eq_true_iff, unpackExponent_eq_iff, ne_eq, unpackMantissa_eq_iff,
    infinity_eq]
  omega

/-! ## Putting together -/

/-- Bits that are no NaN are those of a double. -/
theorem toBits_ofBits {b : UInt64} (h : b.toNat % 2 ^ 63 ≤ Nearest.infinity) :
    (Float.ofBits b).toBits = b := by
  rw [← UInt64.toBitVec_inj]
  refine (@pack_unpack Format.binary64 b.toBitVec (by decide)).trans (if_neg ?_)
  rw [isNaNBits_iff]
  exact not_lt.2 h

theorem toNat_toBits_ofParts (negative : Bool) {m : Nat} (h : m ≤ Nearest.infinity) :
    (ofParts negative m).toBits.toNat = if negative then 2 ^ 63 + m else m := by
  have hm : m < 2 ^ 63 := h.trans_lt (by decide)
  have hlt : (if negative then 2 ^ 63 + m else m) < 2 ^ 64 := by split <;> omega
  have hnat : (UInt64.ofNat (if negative then 2 ^ 63 + m else m)).toNat =
      if negative then 2 ^ 63 + m else m := by
    rw [UInt64.toNat_ofNat', Nat.mod_eq_of_lt hlt]
  rw [ofParts, natPow_eq, toBits_ofBits, hnat]
  rw [hnat]
  split <;> omega

@[simp] theorem magnitude_ofParts (negative : Bool) {m : Nat} (h : m ≤ Nearest.infinity) :
    magnitude (ofParts negative m) = m := by
  have hm : m < 2 ^ 63 := h.trans_lt (by decide)
  rw [magnitude, toNat_toBits_ofParts negative h, natPow_eq]
  split <;> omega

@[simp] theorem isNegative_ofParts (negative : Bool) {m : Nat} (h : m ≤ Nearest.infinity) :
    isNegative (ofParts negative m) = negative := by
  have hm : m < 2 ^ 63 := h.trans_lt (by decide)
  rw [isNegative, toNat_toBits_ofParts negative h, natPow_eq]
  cases negative <;> simp
  omega

/-- **A double is put together from its sign and magnitude.** -/
theorem ofParts_self (x : Float) : ofParts (isNegative x) (magnitude x) = x := by
  have hlt := x.toBits.toNat_lt
  have hnat : (if isNegative x then Nat.pow 2 63 + magnitude x else magnitude x) =
      x.toBits.toNat := by
    rw [isNegative, magnitude, natPow_eq]
    by_cases h : 2 ^ 63 ≤ x.toBits.toNat
    · rw [if_pos (by simpa using h)]
      omega
    · rw [if_neg (by simpa using h)]
      omega
  rw [ofParts, hnat, UInt64.ofNat_toNat, Float.ofBits_toBits]

/-! ## Taking apart -/

theorem isFinite_unpack (b : BitVec 64) :
    (UnpackedFloat.unpack Format.binary64 b).isFinite = true ↔
      b.toNat % 2 ^ 63 < Nearest.infinity := by
  rw [← not_le, ← unpackExponent_eq_iff, UnpackedFloat.unpack]
  split_ifs with h₁ h₂ h₃ h₄
  · exact iff_of_false Bool.false_ne_true (not_not.2 h₁)
  · exact iff_of_false Bool.false_ne_true (not_not.2 h₁)
  · exact iff_of_true rfl h₁
  · exact iff_of_true rfl h₁
  · exact iff_of_true rfl h₁

theorem isInf_unpack (b : BitVec 64) :
    (UnpackedFloat.unpack Format.binary64 b).isInf = true ↔
      b.toNat % 2 ^ 63 = Nearest.infinity := by
  have hsplit : b.toNat % 2 ^ 63 = Nearest.infinity ↔
      @unpackExponent Format.binary64 b = -1#11 ∧
        @unpackMantissa Format.binary64 b = 0#52 := by
    rw [unpackExponent_eq_iff, unpackMantissa_eq_iff, infinity_eq]
    omega
  rw [hsplit, UnpackedFloat.unpack]
  split_ifs with h₁ h₂ h₃ h₄
  · exact iff_of_true rfl ⟨h₁, h₂⟩
  · exact iff_of_false Bool.false_ne_true fun h => h₂ h.2
  · exact iff_of_false Bool.false_ne_true fun h => h₁ h.1
  · exact iff_of_false Bool.false_ne_true fun h => h₁ h.1
  · exact iff_of_false Bool.false_ne_true fun h => h₁ h.1

theorem isNaN_unpack (b : BitVec 64) :
    (UnpackedFloat.unpack Format.binary64 b).isNaN = true ↔
      Nearest.infinity < b.toNat % 2 ^ 63 := by
  have hsplit : Nearest.infinity < b.toNat % 2 ^ 63 ↔
      @unpackExponent Format.binary64 b = -1#11 ∧
        @unpackMantissa Format.binary64 b ≠ 0#52 := by
    rw [unpackExponent_eq_iff, ne_eq, unpackMantissa_eq_iff, infinity_eq]
    omega
  rw [hsplit, UnpackedFloat.unpack]
  split_ifs with h₁ h₂ h₃ h₄
  · exact iff_of_false Bool.false_ne_true fun h => h.2 h₂
  · exact iff_of_true rfl ⟨h₁, h₂⟩
  · exact iff_of_false Bool.false_ne_true fun h => h₁ h.1
  · exact iff_of_false Bool.false_ne_true fun h => h₁ h.1
  · exact iff_of_false Bool.false_ne_true fun h => h₁ h.1

theorem isFinite_iff (x : Float) : x.isFinite = true ↔ magnitude x < Nearest.infinity :=
  isFinite_unpack x.toBits.toBitVec

theorem isInf_iff (x : Float) : x.isInf = true ↔ magnitude x = Nearest.infinity :=
  isInf_unpack x.toBits.toBitVec

theorem isNaN_iff (x : Float) : x.isNaN = true ↔ Nearest.infinity < magnitude x :=
  isNaN_unpack x.toBits.toBitVec

/-- A finite double is no NaN and no infinity. -/
theorem isNaN_isInf_of_isFinite {x : Float} (hx : x.isFinite = true) :
    x.isNaN = false ∧ x.isInf = false := by
  have hlt := (isFinite_iff x).1 hx
  constructor
  · rw [← Bool.not_eq_true, isNaN_iff]
    omega
  · rw [← Bool.not_eq_true, isInf_iff]
    omega

theorem isFinite_ofParts (negative : Bool) {m : Nat} (h : m < Nearest.infinity) :
    (ofParts negative m).isFinite = true := by
  rw [isFinite_iff, magnitude_ofParts negative h.le]
  exact h

/-- The double nearest to an integer is finite, when there is one. -/
theorem isFinite_of_ofInt? {n : Int} {x : Float} (h : ofInt? n = some x) : x.isFinite = true := by
  rw [ofInt?] at h
  split_ifs at h with hlt
  cases h
  exact isFinite_ofParts _ hlt

end Abacus.Number
