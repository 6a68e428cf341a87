import Mathlib
import Abacus.Proofs.Number.Notation

/-!
# The text of a double is short

The search for a short decimal never goes far: it stays between the greatest double and the least
one, and the exact expansion at its end has no more digits than a power of five allows. So the text
of a double has a bounded length. The bound is generous; what counts is that there is one.

* `Decimal.IsShort`: a bound on the digits of a decimal and on its exponent;
* `Shortest.isShort_candidate?`, `Shortest.isShort_exact`, `Decimal.IsShort.trimZeros`,
  `isShort_shortest`: it holds of all decimals in the search;
* `length_text_le`: the length of a text.
-/

namespace Abacus.Number

/-! ## The decimals of the search -/

/-- A decimal with few digits and an exponent between two bounds, of which the upper one leaves room
for `room` zeros to be moved into it. -/
structure Decimal.IsShort (d : Decimal) (room : ℕ) : Prop where
  digits : d.digits < 10 ^ 1400
  low : -1100 ≤ d.exponent
  high : d.exponent + room ≤ 800

theorem Decimal.IsShort.trimZeros {fuel : ℕ} {d : Decimal} (h : d.IsShort fuel) :
    (Decimal.trimZeros fuel d).IsShort 0 := by
  induction fuel generalizing d with
  | zero => exact h
  | succ fuel ih =>
    have hhigh := h.high
    rw [Decimal.trimZeros]
    split_ifs
    · refine ih ⟨(Nat.div_le_self _ _).trans_lt h.digits, ?_, ?_⟩
      · exact h.low.trans (Int.le_add_one le_rfl)
      · push_cast at hhigh ⊢
        omega
    · refine ⟨h.digits, h.low, ?_⟩
      push_cast at hhigh ⊢
      omega

namespace Nearest

/-- The value of finite bits as a fraction: both terms are bounded. -/
theorem value_bounds {b : ℕ} (hb : b < infinity) :
    (value b).1 < 10 ^ 310 ∧ ∃ k ≤ 1074, (value b).2 = 2 ^ k := by
  rw [infinity_eq] at hb
  have he : b / 2 ^ 52 < 2047 := by omega
  have hm : (if b / 2 ^ 52 = 0 then b % 2 ^ 52 else 2 ^ 52 + b % 2 ^ 52) < 2 ^ 53 := by
    have := Nat.mod_lt b (Nat.two_pow_pos 52)
    split_ifs <;> omega
  rw [value]
  simp only [natPow_eq]
  generalize hu : ((max (b / 2 ^ 52) 1 : ℕ) - 1075 : ℤ) = u
  refine ⟨?_, (-u).toNat, by omega, rfl⟩
  calc _ < 2 ^ 53 * 2 ^ u.toNat := Nat.mul_lt_mul_of_pos_right hm (Nat.two_pow_pos _)
    _ = 2 ^ (53 + u.toNat) := (pow_add 2 53 u.toNat).symm
    _ ≤ 2 ^ 1024 := pow_le_pow_right₀ one_le_two (by omega)
    _ ≤ 10 ^ 310 := two_pow_le_ten_pow

end Nearest

namespace Shortest

variable {num den : ℕ}

/-- The first digit of a fraction stands near the point. -/
theorem pointPosition_bounds (hnum : num < 10 ^ 310) (hden : den < 10 ^ 324) :
    -323 ≤ pointPosition num den ∧ pointPosition num den ≤ 310 := by
  rw [pointPosition]
  split_ifs
  · have hcount : digitCount (num / den) ≤ 310 :=
      digitCount_le_iff.2 ((Nat.div_le_self _ _).trans_lt hnum)
    omega
  · have hcount : digitCount ((den - 1) / num) ≤ 324 :=
      digitCount_le_iff.2 (((Nat.div_le_self _ _).trans (Nat.sub_le _ _)).trans_lt hden)
    omega

/-- A fraction below a power of ten in units that are not too small. -/
theorem inUnits_fst_lt (hnum : num < 10 ^ 310) {exponent : ℤ} (h : -340 ≤ exponent) :
    (inUnits num den exponent).1 / (inUnits num den exponent).2 + 1 < 10 ^ 1400 := by
  rw [inUnits]
  simp only [natPow_eq]
  generalize hk : (-exponent).toNat = k
  calc num * 10 ^ k / (den * 10 ^ exponent.toNat) + 1
      ≤ num * 10 ^ k + 1 := Nat.add_le_add_right (Nat.div_le_self _ _) 1
    _ ≤ 10 ^ 310 * 10 ^ k + 1 := Nat.add_le_add_right (Nat.mul_le_mul_right _ hnum.le) 1
    _ = 10 ^ (310 + k) + 1 := by rw [pow_add]
    _ ≤ 10 ^ (310 + k + 1) := Nat.pow_lt_pow_right (by decide) (Nat.lt_succ_self _)
    _ < 10 ^ 1400 := pow_lt_pow_right₀ (by decide) (by omega)

theorem isShort_candidate? {bits : ℕ} (hnum : num < 10 ^ 310) {exponent : ℤ}
    (hlow : -340 ≤ exponent) (hhigh : exponent ≤ 310) {d : Decimal}
    (h : candidate? bits num den exponent = some d) : d.IsShort 400 := by
  have hdigits := @inUnits_fst_lt num den hnum exponent hlow
  rw [candidate?] at h
  dsimp only at h
  split_ifs at h
  · cases h
    exact ⟨(Nat.lt_succ_self _).trans hdigits, by dsimp only; omega, by dsimp only; omega⟩
  · cases h
    exact ⟨hdigits, by dsimp only; omega, by dsimp only; omega⟩

theorem isShort_exact {b : ℕ} (hb : b < Nearest.infinity) : (exact b).IsShort 400 := by
  obtain ⟨hnum, k, hk, hden⟩ := Nearest.value_bounds hb
  have hlog : (Nearest.value b).2.log2 = k := by rw [hden, Nat.log2_two_pow]
  rw [exact]
  dsimp only
  rw [hlog]
  simp only [natPow_eq]
  refine ⟨?_, by dsimp only; omega, by dsimp only; omega⟩
  calc (Nearest.value b).1 * 5 ^ k
      ≤ 10 ^ 310 * 10 ^ k := Nat.mul_le_mul hnum.le (Nat.pow_le_pow_left (by decide) k)
    _ = 10 ^ (310 + k) := (pow_add 10 310 k).symm
    _ < 10 ^ 1400 := pow_lt_pow_right₀ (by decide) (by omega)

/-- **The search stays among short decimals.** -/
theorem isShort_search {b : ℕ} (hb : b < Nearest.infinity) (hnum : num < 10 ^ 310) {position : ℤ}
    (hlow : -323 ≤ position) (hhigh : position ≤ 310) {left count : ℕ}
    (hcount : count + left ≤ 18) :
    (search b num den position left count).IsShort 400 := by
  induction left generalizing count with
  | zero => exact isShort_exact hb
  | succ left ih =>
    rw [search]
    split
    · next d hd => exact isShort_candidate? hnum (by omega) (by omega) hd
    · exact ih (by omega)

end Shortest

/-- **The shortest decimal of a finite double is short.** -/
theorem isShort_shortest {b : ℕ} (hb : b < Nearest.infinity) : (shortest b).IsShort 0 := by
  obtain ⟨hnum, k, hk, hden⟩ := Nearest.value_bounds hb
  have hden' : (Nearest.value b).2 < 10 ^ 324 := by
    rw [hden]
    exact (Nat.pow_lt_pow_right (by decide) (by omega)).trans two_pow_lt_ten_pow
  obtain ⟨hlow, hhigh⟩ := Shortest.pointPosition_bounds hnum hden'
  rw [shortest]
  exact (Shortest.isShort_search hb hnum hlow hhigh (by decide)).trimZeros

/-! ## Texts -/

namespace Notation

theorem length_exponentText_le {f : Notation} (hf : f.exponentWidth ≤ 2) {e : ℤ}
    (he : e.natAbs < 10 ^ 4) : (f.exponentText e).length ≤ 8 := by
  have hdigits : (Text.ofNat e.natAbs).length ≤ 4 := Text.length_ofNat_le (by decide) he
  have hsign : (if e < 0 then "e-" else "e+" : Text).length = 2 := by split_ifs <;> rfl
  rw [exponentText]
  simp only [List.length_append, List.length_replicate, hsign]
  omega

theorem length_decimalText_le {d : Decimal} (hd : d.IsShort 0) :
    (plain.decimalText d).length ≤ 1450 := by
  have hdigits : (Text.ofNat d.digits).length ≤ 1400 :=
    Text.length_ofNat_le (by decide) hd.digits
  have hlow := hd.low
  have hhigh := hd.high
  have hexponent : (plain.exponentText (firstExponent d)).length ≤ 8 := by
    refine length_exponentText_le le_rfl ?_
    rw [firstExponent]
    omega
  have hleast : plain.least = -4 := rfl
  have hbound : plain.bound = 16 := rfl
  rw [decimalText_eq]
  split_ifs with hrange hneg hrest hlength
  · rw [Bool.and_eq_true, decide_eq_true_eq, decide_eq_true_eq] at hrange
    simp only [List.length_cons, List.length_append, List.length_replicate]
    omega
  · rw [Bool.and_eq_true, decide_eq_true_eq, decide_eq_true_eq] at hrange
    simp only [List.length_cons, List.length_append, List.length_replicate, List.length_take,
      List.length_nil]
    omega
  · rw [Bool.and_eq_true, decide_eq_true_eq, decide_eq_true_eq] at hrange
    simp only [List.length_cons, List.length_append, List.length_replicate, List.length_take,
      List.length_drop, List.length_nil]
    omega
  · simp only [List.length_append, List.length_take, List.length_nil]
    omega
  · simp only [List.length_append, List.length_take, List.length_cons, List.length_drop]
    omega

end Notation

/-- **The text of a finite double is short.** -/
theorem length_text_le {x : Float} (hx : x.isFinite = true) : (text x).length ≤ 1500 := by
  have hlt := (isFinite_iff x).1 hx
  have hsign : (if isNegative x then "-" else "" : Text).length ≤ 1 := by
    split
    · exact le_rfl
    · exact Nat.zero_le 1
  have hzero : (Text.ofString "0.0").length = 3 := rfl
  have hdecimal := Notation.length_decimalText_le (isShort_shortest hlt)
  rw [text, write]
  dsimp only
  rw [if_neg hlt.le.not_gt, if_neg hlt.ne]
  generalize (if isNegative x then "-" else "" : Text) = sign at hsign ⊢
  split_ifs
  · rw [List.length_append, hzero]
    omega
  · rw [List.length_append]
    omega

end Abacus.Number
