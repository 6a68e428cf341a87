import Mathlib
import Abacus.Proofs.Number.Arithmetic

/-!
# The power against that of IEEE arithmetic

A power of finite doubles is refused where it is not finite, and what stands in its place is told
from the base and the exponent alone. Of the power of IEEE arithmetic no more is assumed here than
which infinities it makes of finite doubles.

* `isNegative_iff_sign`, `lt_zero_iff_isNegative`, `eq_infinity_of_isInf`, `eq_nan_of_isNaN`: the
  sign bit of a double, and the doubles that are not finite;
* `Arithmetic.Checks`, `Arithmetic.checks`: the four ways in which a power is returned or refused;
* `Arithmetic.InfinityLaws`: what is assumed;
* `Arithmetic.powerBy_eq_iff`: the power is that of IEEE arithmetic but for the poles of a negative
  zero.
-/

namespace Abacus

namespace Number

open Float.Model Float.Model.UnpackedFloat

variable {x : Float}

/-! ## Signs -/

theorem toNat_unpackSign (b : BitVec 64) :
    (@unpackSign Format.binary64 b).toNat = b.toNat / 2 ^ 63 := by
  have hlt := b.isLt
  have hsign : (@unpackSign Format.binary64 b).toNat = b.toNat / 2 ^ 63 % 2 ^ 1 := by
    rw [unpackSign, BitVec.toNat_cast, BitVec.extractLsb_toNat, Nat.shiftRight_eq_div_pow]
    rfl
  rw [hsign]
  omega

/-- The sign of the parts is the sign bit. -/
theorem ofBitVec_unpackSign (b : BitVec 64) :
    Sign.ofBitVec (@unpackSign Format.binary64 b) = .negative ↔ 2 ^ 63 ≤ b.toNat := by
  have hzero : @unpackSign Format.binary64 b = 0#1 ↔ b.toNat / 2 ^ 63 = 0 := by
    rw [← BitVec.toNat_inj, toNat_unpackSign]
    rfl
  rw [Sign.ofBitVec]
  split_ifs with h
  · rw [hzero] at h
    exact iff_of_false (by rintro ⟨⟩) (by omega)
  · rw [hzero] at h
    exact iff_of_true rfl (by omega)

/-- The sign bit of a finite double that is no zero is read off its parts. -/
theorem isNegative_iff_sign {sign : Sign} {mantissa : ℕ} {exponent : ℤ} {pos : 0 < mantissa}
    (h : x.toModel.unpack = .finite sign mantissa exponent pos) :
    isNegative x = true ↔ sign = .negative := by
  have hsign : Sign.ofBitVec (@unpackSign Format.binary64 x.toBits.toBitVec) = sign := by
    change UnpackedFloat.unpack Format.binary64 x.toBits.toBitVec = _ at h
    rw [UnpackedFloat.unpack] at h
    split_ifs at h <;> cases h <;> rfl
  rw [← hsign, ofBitVec_unpackSign, isNegative, decide_eq_true_iff]
  rfl

/-- **A finite double other than a zero is negative as its sign bit says.** -/
theorem lt_zero_iff_isNegative (hx : x.isFinite = true) (hzero : (x == 0) = false) :
    x < 0 ↔ isNegative x = true := by
  have hlt : x < 0 ↔ x.toModel.unpack.lt (.zero .positive) = true := decide_eq_true_iff
  change x.toModel.unpack.isFinite = true at hx
  change x.toModel.unpack.beq (.zero .positive) = false at hzero
  rw [hlt]
  cases h : x.toModel.unpack with
  | zero sign => rw [h] at hzero; cases sign <;> cases hzero
  | infinity sign => rw [h] at hx; cases hx
  | notANumber => rw [h] at hx; cases hx
  | finite sign mantissa exponent pos =>
    rw [isNegative_iff_sign h]
    cases sign with
    | negative => exact iff_of_true rfl rfl
    | positive => exact iff_of_false Bool.false_ne_true (by rintro ⟨⟩)

/-- The sign bit tells the zeros apart. -/
theorem isNegative_of_beq_zero (hzero : (x == 0) = true) : isNegative x = true ↔ x = -0 := by
  rcases beq_zero_iff.1 hzero with rfl | rfl
  · exact iff_of_false (by decide) (by intro h; exact absurd (congrArg isNegative h) (by decide))
  · exact iff_of_true (by decide) rfl

theorem isFinite_of_beq_zero (hzero : (x == 0) = true) : x.isFinite = true := by
  rcases beq_zero_iff.1 hzero with rfl | rfl <;> decide

/-- An infinity is known by its sign. -/
theorem eq_infinity_of_isInf (hx : x.isInf = true) :
    x = ofParts (isNegative x) Nearest.infinity := by
  rw [← (isInf_iff x).1 hx]
  exact (ofParts_self x).symm

theorem isNaN_of_isInf (hx : x.isInf = true) : x.isNaN = false := by
  rw [← Bool.not_eq_true, isNaN_iff, (isInf_iff x).1 hx]
  exact lt_irrefl _

/-- There is one NaN. -/
theorem eq_nan_of_isNaN (hx : x.isNaN = true) : x = nan := by
  have hnan : nan.toModel.unpack = .notANumber := rfl
  apply eq_of_unpack_eq
  rw [hnan]
  change x.toModel.unpack.isNaN = true at hx
  cases h : x.toModel.unpack with
  | notANumber => rfl
  | zero sign | infinity sign | finite sign mantissa exponent pos => rw [h] at hx; cases hx

/-- **An odd integer is finite.** A magnitude from that of infinity on stands for an even number of
units. -/
theorem isFinite_of_isOdd (hx : isOdd x = true) : x.isFinite = true := by
  by_contra hinfinite
  rw [isFinite_iff, not_lt, infinity_eq] at hinfinite
  have hlt : magnitude x < 2 ^ 63 := by
    rw [magnitude, natPow_eq]
    exact Nat.mod_lt _ (by decide)
  have he : magnitude x / Nat.pow 2 52 = 2047 := by
    rw [natPow_eq]
    omega
  obtain ⟨m, k, hk, hm⟩ : ∃ m k, k ≠ 0 ∧ Nearest.value (magnitude x) = (m * Nat.pow 2 k, 1) := by
    rw [Nearest.value, he]
    exact ⟨_, (((max 2047 1 : ℕ) : ℤ) - 1075).toNat, by decide, rfl⟩
  have heven : m * Nat.pow 2 k % 2 = 0 :=
    Nat.mod_eq_zero_of_dvd ((dvd_pow_self 2 hk).mul_left m)
  rw [isOdd, hm, Bool.and_eq_true, decide_eq_true_eq, decide_eq_true_eq, Nat.div_one, heven] at hx
  exact absurd hx.2 (by decide)

end Number

namespace Arithmetic

/-! ## What is refused -/

/-- **How a power is returned or refused.** It is returned if an operand or the value is not finite
or the value is; it is out of the domain if it is no number, or infinite at a zero base; and out of
range if it is infinite elsewhere. -/
inductive Checks (pow : Float → Float → Float) (b e : Float) : Except PowerFault Float → Prop
  | returned (h : b.isFinite = true → e.isFinite = true → (pow b e).isFinite = true) :
      Checks pow b e (.ok (pow b e))
  | undefined (hb : b.isFinite = true) (he : e.isFinite = true) (h : (pow b e).isNaN = true) :
      Checks pow b e (.error .domain)
  | pole (hb : b.isFinite = true) (he : e.isFinite = true) (hzero : (b == 0) = true)
      (h : (pow b e).isInf = true) : Checks pow b e (.error .domain)
  | overflow (hb : b.isFinite = true) (he : e.isFinite = true) (hzero : (b == 0) = false)
      (h : (pow b e).isInf = true) : Checks pow b e (.error .range)

variable {pow : Float → Float → Float} {b e : Float}

theorem not_returned (h : ¬(!(b.isFinite && e.isFinite) || (pow b e).isFinite) = true) :
    (b.isFinite = true ∧ e.isFinite = true) ∧ (pow b e).isFinite = false := by
  rwa [Bool.or_eq_true, not_or, Bool.not_eq_true, Bool.not_eq_false', Bool.and_eq_true,
    Bool.not_eq_true] at h

theorem checks (pow : Float → Float → Float) (b e : Float) :
    Checks pow b e (checkedBy pow b e) := by
  unfold checkedBy
  dsimp only
  split_ifs with hreturned hdomain
  · refine .returned fun hb he => ?_
    simpa [hb, he] using hreturned
  · obtain ⟨⟨hb, he⟩, hr⟩ := not_returned hreturned
    rcases Number.isInf_or_isNaN hr with hinf | hnan
    · rw [Number.isNaN_of_isInf hinf, Bool.false_or] at hdomain
      exact .pole hb he hdomain hinf
    · exact .undefined hb he hnan
  · obtain ⟨⟨hb, he⟩, hr⟩ := not_returned hreturned
    rw [Bool.or_eq_true, not_or, Bool.not_eq_true, Bool.not_eq_true] at hdomain
    rcases Number.isInf_or_isNaN hr with hinf | hnan
    · exact .overflow hb he hdomain.2 hinf
    · rw [hdomain.1] at hnan
      cases hnan

/-! ## The two powers -/

/-- What IEEE arithmetic says of a power of finite doubles that is an infinity or has a zero
base. -/
structure InfinityLaws (pow : Float → Float → Float) : Prop where
  /-- An infinity is negative if the base has its sign bit set and the exponent is an odd
  integer. -/
  negative_iff : ∀ b e, b.isFinite = true → e.isFinite = true → (pow b e).isInf = true →
    (Number.isNegative (pow b e) = true ↔ Number.isNegative b = true ∧ Number.isOdd e = true)
  /-- A zero has a pole at each negative exponent. -/
  pole : ∀ b e, (b == 0) = true → e.isFinite = true → e < 0 → (pow b e).isInf = true
  /-- A zero has a finite power for each other exponent. -/
  regular : ∀ b e, (b == 0) = true → e.isFinite = true → ¬e < 0 → (pow b e).isFinite = true

/-- What stands in the place of a power out of range has the sign of the power. -/
theorem InfinityLaws.eq_of_overflow (laws : InfinityLaws pow) (hb : b.isFinite = true)
    (he : e.isFinite = true) (hzero : (b == 0) = false) (h : (pow b e).isInf = true) :
    pow b e =
      if b < 0 && Number.isOdd e then Number.negativeInfinity else Number.infinity := by
  have hsign : (b < 0 && Number.isOdd e) = Number.isNegative (pow b e) := by
    rw [Bool.eq_iff_iff, laws.negative_iff b e hb he h, Bool.and_eq_true, decide_eq_true_eq,
      Number.lt_zero_iff_isNegative hb hzero]
  rw [hsign]
  split_ifs with hnegative
  · rw [Number.eq_infinity_of_isInf h, hnegative]
    rfl
  · rw [Number.eq_infinity_of_isInf h, Bool.eq_false_iff.2 hnegative]
    rfl

/-- **The pole of a zero** is negative if the zero is and the exponent is odd. -/
theorem InfinityLaws.eq_of_pole (laws : InfinityLaws pow) (he : e.isFinite = true)
    (hzero : (b == 0) = true) (h : (pow b e).isInf = true) :
    pow b e =
      if b = -0 ∧ Number.isOdd e = true then Number.negativeInfinity else Number.infinity := by
  have hsign := laws.negative_iff b e (Number.isFinite_of_beq_zero hzero) he h
  rw [Number.isNegative_of_beq_zero hzero] at hsign
  split_ifs with hnegative
  · rw [Number.eq_infinity_of_isInf h, hsign.2 hnegative]
    rfl
  · rw [Number.eq_infinity_of_isInf h, Bool.eq_false_iff.2 (mt hsign.1 hnegative)]
    rfl

/-- A zero has no power of a finite exponent that is no number. -/
theorem InfinityLaws.isNaN_of_beq_zero (laws : InfinityLaws pow) (hzero : (b == 0) = true)
    (he : e.isFinite = true) : (pow b e).isNaN = false := by
  by_cases hneg : e < 0
  · exact Number.isNaN_of_isInf (laws.pole b e hzero he hneg)
  · exact (Number.isNaN_isInf_of_isFinite (laws.regular b e hzero he hneg)).1

/-- A zero has poles at negative exponents only. -/
theorem InfinityLaws.neg_of_isInf (laws : InfinityLaws pow) (hzero : (b == 0) = true)
    (he : e.isFinite = true) (h : (pow b e).isInf = true) : e < 0 := by
  by_contra hneg
  rw [(Number.isNaN_isInf_of_isFinite (laws.regular b e hzero he hneg)).2] at h
  cases h

/-- **Away from the odd poles of a negative zero** the power is that of IEEE arithmetic. -/
theorem InfinityLaws.powerBy_eq (laws : InfinityLaws pow)
    (h : ¬(b = -0 ∧ e < 0 ∧ Number.isOdd e = true)) : powerBy pow b e = pow b e := by
  have hchecks := checks pow b e
  unfold powerBy
  generalize checkedBy pow b e = outcome at hchecks
  cases hchecks with
  | returned => rfl
  | undefined hb he hnan =>
    have hzero : ¬(b == 0) = true := by
      intro hzero
      rw [laws.isNaN_of_beq_zero hzero he] at hnan
      cases hnan
    exact (if_neg hzero).trans (Number.eq_nan_of_isNaN hnan).symm
  | pole hb he hzero hinf =>
    have hneg := laws.neg_of_isInf hzero he hinf
    have hpole := laws.eq_of_pole he hzero hinf
    rw [if_neg fun hodd => h ⟨hodd.1, hneg, hodd.2⟩] at hpole
    exact (if_pos hzero).trans hpole.symm
  | overflow hb he hzero hinf => exact (laws.eq_of_overflow hb he hzero hinf).symm

/-- **At the odd poles of a negative zero** the power is infinite on the wrong side. -/
theorem InfinityLaws.powerBy_negativeZero (laws : InfinityLaws pow) (hneg : e < 0)
    (hodd : Number.isOdd e = true) :
    powerBy pow (-0) e = Number.infinity ∧ pow (-0) e = Number.negativeInfinity := by
  have he := Number.isFinite_of_isOdd hodd
  have hzero : ((-0 : Float) == 0) = true := by decide
  have hinf := laws.pole (-0) e hzero he hneg
  refine ⟨?_, by rw [laws.eq_of_pole he hzero hinf, if_pos ⟨rfl, hodd⟩]⟩
  have hchecks := checks pow (-0) e
  unfold powerBy
  generalize checkedBy pow (-0) e = outcome at hchecks
  cases hchecks with
  | returned hfinite =>
    rw [(Number.isNaN_isInf_of_isFinite (hfinite (by decide) he)).2] at hinf
    cases hinf
  | undefined => exact if_pos hzero
  | pole => exact if_pos hzero
  | overflow _ _ hnonzero =>
    rw [hzero] at hnonzero
    cases hnonzero

/-- **The power is that of IEEE arithmetic but for one kind of pole.** Take any power of which the
laws of IEEE arithmetic for infinities and zero bases hold. What is computed from it is the same
double, the signs of zeros and infinities included, for all bases and exponents but a negative zero
and a negative odd integer. There IEEE arithmetic has negative infinity, and positive infinity is
computed. -/
theorem powerBy_eq_iff {pow : Float → Float → Float} (laws : InfinityLaws pow) :
    powerBy Float.pow = power ∧
      (∀ b e, powerBy pow b e = pow b e ↔ ¬(b = -0 ∧ e < 0 ∧ Number.isOdd e = true)) ∧
      ∀ e, e < 0 → Number.isOdd e = true →
        powerBy pow (-0) e = Number.infinity ∧ pow (-0) e = Number.negativeInfinity := by
  refine ⟨rfl, fun b e => ⟨?_, laws.powerBy_eq⟩, fun e => laws.powerBy_negativeZero⟩
  rintro heq ⟨rfl, hneg, hodd⟩
  obtain ⟨hpower, hpow⟩ := laws.powerBy_negativeZero hneg hodd
  rw [hpower, hpow] at heq
  exact absurd (congrArg Number.isNegative heq) (by decide)

/-- A power that is an infinity except for a zero base and an exponent that is not negative. With an
odd exponent a negative base overflows on the right side, and a negative zero has its pole on the
wrong one. -/
theorem powerBy_eq_iff_odd_exponent :
    let pow : Float → Float → Float := fun b e =>
      if (b == 0) = true ∧ ¬e < 0 then 0
      else Number.ofParts (Number.isNegative b && Number.isOdd e) Number.Nearest.infinity
    InfinityLaws pow ∧
      pow (-10) 401 = Number.negativeInfinity ∧ powerBy pow (-10) 401 = Number.negativeInfinity ∧
      pow (-0) (-1) = Number.negativeInfinity ∧ powerBy pow (-0) (-1) = Number.infinity := by
  intro pow
  have hinfinite : ∀ b e, ¬((b == 0) = true ∧ ¬e < 0) → pow b e =
      Number.ofParts (Number.isNegative b && Number.isOdd e) Number.Nearest.infinity :=
    fun b e h => if_neg h
  have hzero : ∀ b e, (b == 0) = true ∧ ¬e < 0 → pow b e = 0 := fun b e h => if_pos h
  have laws : InfinityLaws pow := by
    constructor
    · intro b e hb he hinf
      by_cases h : (b == 0) = true ∧ ¬e < 0
      · rw [hzero b e h] at hinf
        cases hinf
      · rw [hinfinite b e h, Number.isNegative_ofParts _ le_rfl, Bool.and_eq_true]
    · intro b e hb he hneg
      rw [hinfinite b e fun h => h.2 hneg, Number.isInf_iff, Number.magnitude_ofParts _ le_rfl]
    · intro b e hb he hneg
      rw [hzero b e ⟨hb, hneg⟩]
      decide
  obtain ⟨-, hiff, hpole⟩ := powerBy_eq_iff laws
  have hoverflow : pow (-10) 401 = Number.negativeInfinity := by
    rw [hinfinite (-10) 401 fun h => absurd h.1 (by decide)]
    decide +kernel
  have hten : ¬((-10 : Float) = -0 ∧ (401 : Float) < 0 ∧ Number.isOdd 401 = true) :=
    fun h => absurd h.2.1 (by decide)
  obtain ⟨hpower, hpow⟩ := hpole (-1) (by decide) (by decide +kernel)
  exact ⟨laws, hoverflow, ((hiff (-10) 401).2 hten).trans hoverflow, hpow, hpower⟩

end Arithmetic

end Abacus
