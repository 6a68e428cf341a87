import Mathlib
import Abacus.Proofs.Number.Bits

/-!
# Rounding to the nearest double

The bits that a fraction is rounded to depend on its value only.

* `Nearest.round`, `Nearest.bits`: the nearest natural number, a half going to the even one, and the
  bits of the nearest double, both of a rational number;
* `divide_eq_round`, `binade_eq_log`, `ofRatio_eq_bits`: the computations with fractions agree with
  them, whatever the terms of the fraction;
* `bits_rational`: the value of finite bits is rounded to these bits;
* `bits_of_lt`, `bits_of_le`: what is too small is rounded to zero, what is too large to infinity.
-/

namespace Abacus.Number.Nearest

/-! ## Fractions -/

/-- A fraction in units of a power `k` of `b`, the power being put on the side where it is one. -/
theorem scaled_eq_div_zpow {b : ℕ} (hb : 0 < b) (num den : ℕ) (k : ℤ) :
    ((num * b ^ (-k).toNat : ℕ) : ℚ) / ((den * b ^ k.toNat : ℕ) : ℚ) =
      (num : ℚ) / den / (b : ℚ) ^ k := by
  have hb' : (b : ℚ) ≠ 0 := by exact_mod_cast hb.ne'
  rcases le_total 0 k with hk | hk
  · obtain ⟨n, rfl⟩ := Int.eq_ofNat_of_zero_le hk
    have hneg : (-(n : ℤ)).toNat = 0 := by omega
    rw [hneg, Int.toNat_natCast, zpow_natCast]
    push_cast
    rw [pow_zero, mul_one, div_div]
  · obtain ⟨n, hn⟩ := Int.eq_ofNat_of_zero_le (Int.neg_nonneg.2 hk)
    obtain rfl : k = -(n : ℤ) := by omega
    have hpos : (-(n : ℤ)).toNat = 0 := by omega
    rw [neg_neg, hpos, Int.toNat_natCast, zpow_neg, zpow_natCast]
    push_cast
    rw [pow_zero, mul_one, div_inv_eq_mul, div_mul_eq_mul_div]

/-- A natural number times a power of `b`, written as a fraction. -/
theorem scaled_eq_mul_zpow {b : ℕ} (hb : 0 < b) (num : ℕ) (k : ℤ) :
    ((num * b ^ k.toNat : ℕ) : ℚ) / ((b ^ (-k).toNat : ℕ) : ℚ) = (num : ℚ) * (b : ℚ) ^ k := by
  have h := scaled_eq_div_zpow hb num 1 (-k)
  rwa [neg_neg, one_mul, Nat.cast_one, div_one, zpow_neg, div_inv_eq_mul] at h

/-- The nearest natural number, a half going to the even one. -/
def round (q : ℚ) : ℕ :=
  let n := ⌊q⌋₊
  if 2 * (q - n) < 1 then n
  else if 2 * (q - n) = 1 then n + n % 2
  else n + 1

@[simp] theorem round_natCast (n : ℕ) : round n = n := by
  simp [round]

theorem divide_eq_round (num : ℕ) {den : ℕ} (h : 0 < den) :
    divide num den = round ((num : ℚ) / den) := by
  have hfloor : ⌊(num : ℚ) / den⌋₊ = num / den := Nat.floor_div_eq_div num den
  have hden : (0 : ℚ) < den := by exact_mod_cast h
  have hrest : (num : ℚ) / den - (num / den : ℕ) = ((num % den : ℕ) : ℚ) / den := by
    rw [eq_div_iff hden.ne', sub_mul, div_mul_cancel₀ _ hden.ne', sub_eq_iff_eq_add]
    exact_mod_cast (Nat.mod_add_div' num den).symm
  have hlt : 2 * ((num : ℚ) / den - (num / den : ℕ)) < 1 ↔ 2 * (num % den) < den := by
    rw [hrest, ← mul_div_assoc, div_lt_one hden]
    exact_mod_cast Iff.rfl
  have heq : 2 * ((num : ℚ) / den - (num / den : ℕ)) = 1 ↔ 2 * (num % den) = den := by
    rw [hrest, ← mul_div_assoc, div_eq_one_iff_eq hden.ne']
    exact_mod_cast Iff.rfl
  simp only [round, divide, hfloor, hlt, heq]

/-! ## Binades -/

theorem two_zpow_le_iff {num den : ℕ} (hd : 0 < den) (k : ℤ) :
    den * 2 ^ k.toNat ≤ num * 2 ^ (-k).toNat ↔ (2 : ℚ) ^ k ≤ (num : ℚ) / den := by
  have hpos : (0 : ℚ) < ((den * 2 ^ k.toNat : ℕ) : ℚ) := by positivity
  have hpow : (0 : ℚ) < (2 : ℚ) ^ k := by positivity
  rw [← one_le_div hpow, ← Nat.cast_ofNat (R := ℚ) (n := 2), ← scaled_eq_div_zpow two_pos num den k,
    one_le_div hpos]
  exact_mod_cast Iff.rfl

theorem two_zpow_log2_le {n : ℕ} (h : n ≠ 0) : (2 : ℚ) ^ (n.log2 : ℤ) ≤ n := by
  rw [zpow_natCast]
  exact_mod_cast Nat.log2_self_le h

theorem lt_two_zpow_log2 (n : ℕ) : (n : ℚ) < (2 : ℚ) ^ ((n.log2 : ℤ) + 1) := by
  rw [show (n.log2 : ℤ) + 1 = ((n.log2 + 1 : ℕ) : ℤ) by push_cast; rfl, zpow_natCast]
  exact_mod_cast Nat.lt_log2_self

/-- **The binade of a fraction** is the integral part of the binary logarithm of its value. -/
theorem binade_eq_log {num den : ℕ} (hn : 0 < num) (hd : 0 < den) :
    binade num den = Int.log 2 ((num : ℚ) / den) := by
  have hn' : (0 : ℚ) < num := by exact_mod_cast hn
  have hd' : (0 : ℚ) < den := by exact_mod_cast hd
  have hq : (0 : ℚ) < (num : ℚ) / den := div_pos hn' hd'
  have hle : ∀ k : ℤ, (2 : ℚ) ^ k ≤ (num : ℚ) / den ↔ k ≤ Int.log 2 ((num : ℚ) / den) :=
    fun k => by exact_mod_cast Int.zpow_le_iff_le_log (b := 2) one_lt_two hq
  have hlow : (2 : ℚ) ^ ((num.log2 : ℤ) - den.log2 - 1) ≤ (num : ℚ) / den := by
    rw [le_div_iff₀ hd', show (num.log2 : ℤ) - den.log2 - 1 = num.log2 - (den.log2 + 1) by ring,
      zpow_sub₀ two_ne_zero, div_mul_eq_mul_div, div_le_iff₀ (by positivity)]
    exact mul_le_mul (two_zpow_log2_le hn.ne') (lt_two_zpow_log2 den).le hd'.le hn'.le
  have hhigh : (num : ℚ) / den < (2 : ℚ) ^ ((num.log2 : ℤ) - den.log2 + 1) := by
    rw [div_lt_iff₀ hd', show (num.log2 : ℤ) - den.log2 + 1 = num.log2 + 1 - den.log2 by ring,
      zpow_sub₀ two_ne_zero, div_mul_eq_mul_div, lt_div_iff₀ (by positivity)]
    exact mul_lt_mul (lt_two_zpow_log2 num) (two_zpow_log2_le hd.ne') (by positivity)
      (by positivity)
  have h₁ := (hle _).1 hlow
  have h₂ := lt_of_not_ge fun h => hhigh.not_ge ((hle _).2 h)
  rw [binade]
  simp only [natPow_eq, two_zpow_le_iff hd, hle]
  split_ifs with h <;> omega

/-! ## Bits of rational numbers -/

/-- The exponent of the unit in the last place at a rational number. -/
def unitAt (q : ℚ) : ℤ := max (Int.log 2 q - 52) (-1074)

/-- The bits of the double nearest to a rational number that is not negative. -/
def bits (q : ℚ) : ℕ :=
  if q = 0 then 0
  else min ((unitAt q + 1074).toNat * 2 ^ 52 + round (q / 2 ^ unitAt q)) infinity

@[simp] theorem bits_zero : bits 0 = 0 := if_pos rfl

/-- **The bits nearest to a fraction** are those nearest to its value. -/
theorem ofRatio_eq_bits (num : ℕ) {den : ℕ} (hd : 0 < den) :
    ofRatio num den = bits ((num : ℚ) / den) := by
  rcases Nat.eq_zero_or_pos num with rfl | hn
  · simp [ofRatio]
  · have hunit : unit num den = unitAt ((num : ℚ) / den) := by
      rw [unit, unitAt, binade_eq_log hn hd]
    have hq : (num : ℚ) / den ≠ 0 := by positivity
    have hpos : 0 < den * 2 ^ (unitAt ((num : ℚ) / den)).toNat := by positivity
    rw [ofRatio, bits, if_neg hn.ne', if_neg hq]
    simp only [natPow_eq, hunit]
    rw [divide_eq_round _ hpos, scaled_eq_div_zpow two_pos]
    norm_num

/-! ## Exact values -/

/-- The bits at a whole number of units. -/
theorem bits_mul_zpow {m : ℕ} {u : ℤ} (hm : 0 < m) (hu : unitAt (m * 2 ^ u) = u) :
    bits (m * 2 ^ u) = min ((u + 1074).toNat * 2 ^ 52 + m) infinity := by
  have hpow : (2 : ℚ) ^ u ≠ 0 := by positivity
  have hq : (m : ℚ) * 2 ^ u ≠ 0 := by positivity
  rw [bits, if_neg hq, hu, mul_div_cancel_right₀ _ hpow, round_natCast]

theorem log_mul_zpow {m : ℕ} (hm : 0 < m) (u : ℤ) :
    Int.log 2 ((m : ℚ) * 2 ^ u) = (m.log2 : ℤ) + u := by
  have hpow : (0 : ℚ) < 2 ^ u := by positivity
  have hq : (0 : ℚ) < m * 2 ^ u := by positivity
  have hle : ∀ k : ℤ, (2 : ℚ) ^ k ≤ m * 2 ^ u ↔ k ≤ Int.log 2 ((m : ℚ) * 2 ^ u) :=
    fun k => by exact_mod_cast Int.zpow_le_iff_le_log (b := 2) one_lt_two hq
  have hlow : (2 : ℚ) ^ ((m.log2 : ℤ) + u) ≤ m * 2 ^ u := by
    rw [zpow_add₀ two_ne_zero]
    exact mul_le_mul_of_nonneg_right (two_zpow_log2_le hm.ne') hpow.le
  have hhigh : (m : ℚ) * 2 ^ u < 2 ^ ((m.log2 : ℤ) + u + 1) := by
    rw [add_right_comm, zpow_add₀ two_ne_zero]
    exact mul_lt_mul_of_pos_right (lt_two_zpow_log2 m) hpow
  have h₁ := (hle _).1 hlow
  have h₂ := lt_of_not_ge fun h => hhigh.not_ge ((hle _).2 h)
  omega

/-- The rational number that bits stand for. -/
def rational (b : ℕ) : ℚ := ((value b).1 : ℚ) / (value b).2

theorem rational_eq (b : ℕ) :
    rational b =
      ((if b / 2 ^ 52 = 0 then b % 2 ^ 52 else 2 ^ 52 + b % 2 ^ 52 : ℕ) : ℚ) *
        2 ^ ((max (b / 2 ^ 52) 1 : ℕ) - 1075 : ℤ) := by
  rw [rational, value]
  simp only [natPow_eq]
  generalize ((max (b / 2 ^ 52) 1 : ℕ) - 1075 : ℤ) = u
  exact scaled_eq_mul_zpow two_pos _ u

/-- **Rounding is exact**: the value of finite bits is rounded to these bits. -/
theorem bits_rational {b : ℕ} (hb : b < infinity) : bits (rational b) = b := by
  rcases Nat.eq_zero_or_pos b with rfl | hpos
  · simp [rational_eq]
  rw [infinity_eq] at hb
  rw [rational_eq]
  by_cases he : b / 2 ^ 52 = 0
  · have hm : 0 < b % 2 ^ 52 := by omega
    have hlog : (b % 2 ^ 52).log2 < 52 := (Nat.log2_lt hm.ne').2 (Nat.mod_lt _ (by decide))
    have hunit : unitAt ((b % 2 ^ 52 : ℕ) * 2 ^ (-1074 : ℤ)) = -1074 := by
      rw [unitAt, log_mul_zpow hm]
      omega
    have h := bits_mul_zpow hm hunit
    rw [infinity_eq] at h
    rw [if_pos he, he]
    refine Eq.trans ?_ (h.trans ?_)
    · norm_num
    · omega
  · generalize hu : ((max (b / 2 ^ 52) 1 : ℕ) - 1075 : ℤ) = u
    have hm : 0 < 2 ^ 52 + b % 2 ^ 52 := by omega
    have hlog : (2 ^ 52 + b % 2 ^ 52).log2 = 52 := by
      have hlt : b % 2 ^ 52 < 2 ^ 52 := Nat.mod_lt _ (by decide)
      exact (Nat.log2_eq_iff hm.ne').2 ⟨by omega, by omega⟩
    have hunit : unitAt ((2 ^ 52 + b % 2 ^ 52 : ℕ) * 2 ^ u) = u := by
      rw [unitAt, log_mul_zpow hm, hlog]
      omega
    have h := bits_mul_zpow hm hunit
    rw [infinity_eq] at h
    rw [if_neg he, h]
    omega

/-! ## Beyond the range -/

/-- **Underflow**: below half of the least positive double everything is rounded to zero. -/
theorem bits_of_lt {q : ℚ} (h₀ : 0 ≤ q) (h : q < 2 ^ (-1075 : ℤ)) : bits q = 0 := by
  rcases h₀.eq_or_lt with rfl | hq
  · exact bits_zero
  have hlog : Int.log 2 q < -1075 := by
    exact_mod_cast (Int.lt_zpow_iff_log_lt (b := 2) one_lt_two hq).1 (by exact_mod_cast h)
  have hunit : unitAt q = -1074 := by
    rw [unitAt]
    omega
  have hhalf : q / 2 ^ (-1074 : ℤ) < 1 / 2 := by
    rw [div_lt_iff₀ (by positivity)]
    refine h.trans_eq ?_
    rw [show (-1075 : ℤ) = -1 + -1074 from rfl, zpow_add₀ two_ne_zero]
    norm_num
  have hnonneg : 0 ≤ q / 2 ^ (-1074 : ℤ) := by positivity
  have hfloor : ⌊q / 2 ^ (-1074 : ℤ)⌋₊ = 0 := Nat.floor_eq_zero.2 (by linarith)
  have hround : round (q / 2 ^ (-1074 : ℤ)) = 0 := by
    rw [round]
    simp only [hfloor, Nat.cast_zero, sub_zero]
    rw [if_pos (by linarith)]
  rw [bits, if_neg hq.ne', hunit, hround]
  simp

/-- **Overflow**: from the power of two after the greatest double on everything is rounded to
infinity. -/
theorem bits_of_le {q : ℚ} (h : 2 ^ (1024 : ℤ) ≤ q) : bits q = infinity := by
  have hq : 0 < q := lt_of_lt_of_le (by positivity) h
  have hlog : 1024 ≤ Int.log 2 q := by
    exact_mod_cast (Int.zpow_le_iff_le_log (b := 2) one_lt_two hq).1 (by exact_mod_cast h)
  have hunit : unitAt q = Int.log 2 q - 52 := by
    rw [unitAt]
    omega
  have hscaled : (2 ^ 52 : ℕ) ≤ q / 2 ^ unitAt q := by
    have hself : (2 : ℚ) ^ Int.log 2 q ≤ q := by
      exact_mod_cast Int.zpow_log_le_self (b := 2) one_lt_two hq
    rw [le_div_iff₀ (by positivity), hunit, zpow_sub₀ two_ne_zero]
    refine le_trans (le_of_eq ?_) hself
    push_cast
    field_simp
  have hround : 2 ^ 52 ≤ round (q / 2 ^ unitAt q) := by
    have hfloor : 2 ^ 52 ≤ ⌊q / 2 ^ unitAt q⌋₊ := Nat.le_floor hscaled
    rw [round]
    split_ifs <;> omega
  rw [bits, if_neg hq.ne', infinity_eq]
  omega

end Abacus.Number.Nearest

namespace Abacus.Number

/-! ## Decimals -/

theorem digitCount_le_iff {n k : ℕ} : digitCount n ≤ k ↔ n < 10 ^ k := by
  rw [digitCount]
  split_ifs with h
  · simp [h]
  · rcases Nat.eq_zero_or_pos k with rfl | hk
    · have := Nat.length_toDigits_pos (b := 10) (n := n)
      simp only [pow_zero]
      omega
    · exact Nat.length_toDigits_le_iff (by decide) hk

theorem two_pow_lt_ten_pow : 2 ^ 1075 < 10 ^ 324 := by decide +kernel

theorem two_pow_le_ten_pow : 2 ^ 1024 ≤ 10 ^ 310 := by decide +kernel

/-- **The double nearest to a decimal**: the shortcuts outside the range change nothing. -/
theorem ofScaled_eq (negative : Bool) (m : ℕ) (e : ℤ) :
    ofScaled negative m e = ofParts negative (Nearest.bits (m * 10 ^ e)) := by
  rw [ofScaled]
  congr 1
  rcases Nat.eq_zero_or_pos m with rfl | hm
  · simp
  have hm' : m ≠ 0 := hm.ne'
  have hpos : (0 : ℚ) < 10 ^ e := by positivity
  have hupper : (m : ℚ) < 10 ^ (digitCount m : ℤ) := by
    rw [zpow_natCast]
    exact_mod_cast digitCount_le_iff.1 le_rfl
  have hlower : (10 : ℚ) ^ ((digitCount m : ℤ) - 1) ≤ m := by
    have hlt : ¬digitCount m ≤ digitCount m - 1 := by
      have : 0 < digitCount m := by
        rw [digitCount, if_neg hm']
        exact Nat.length_toDigits_pos
      omega
    rw [digitCount_le_iff, not_lt] at hlt
    have hsub : ((digitCount m : ℤ) - 1) = ((digitCount m - 1 : ℕ) : ℤ) := by
      have : digitCount m ≠ 0 := by
        rw [digitCount, if_neg hm']
        exact Nat.length_toDigits_pos.ne'
      omega
    rw [hsub, zpow_natCast]
    exact_mod_cast hlt
  simp only [hm', decide_false, Bool.false_or, decide_eq_true_eq, natPow_eq]
  split_ifs with hsmall hlarge
  · refine (Nearest.bits_of_lt (by positivity) ?_).symm
    calc (m : ℚ) * 10 ^ e < 10 ^ (digitCount m : ℤ) * 10 ^ e := mul_lt_mul_of_pos_right hupper hpos
      _ = 10 ^ ((digitCount m : ℤ) + e) := (zpow_add₀ (by norm_num) _ _).symm
      _ ≤ 10 ^ (-324 : ℤ) := zpow_le_zpow_right₀ (by norm_num) (by omega)
      _ < 2 ^ (-1075 : ℤ) := by
        rw [zpow_neg, zpow_neg]
        exact inv_strictAnti₀ (by positivity) (by exact_mod_cast two_pow_lt_ten_pow)
  · refine (Nearest.bits_of_le ?_).symm
    calc (2 : ℚ) ^ (1024 : ℤ) ≤ 10 ^ (310 : ℤ) := by exact_mod_cast two_pow_le_ten_pow
      _ ≤ 10 ^ ((digitCount m : ℤ) - 1 + e) := zpow_le_zpow_right₀ (by norm_num) (by omega)
      _ = 10 ^ ((digitCount m : ℤ) - 1) * 10 ^ e := zpow_add₀ (by norm_num) _ _
      _ ≤ m * 10 ^ e := mul_le_mul_of_nonneg_right hlower hpos.le
  · rw [Nearest.ofRatio_eq_bits _ (by positivity), Nearest.scaled_eq_mul_zpow (by decide)]
    rfl

end Abacus.Number
