import Mathlib
import Abacus.Number.Shortest
import Abacus.Proofs.Number.Rounding

/-!
# The shortest decimal is read back

* `Decimal.rational`: the value of a decimal, on which rounding it depends (`Decimal.nearest_eq`);
* `Decimal.rational_trimZeros`: zeros at the end of a decimal may go;
* `nearest_search`: whatever the search for a short decimal stops at is rounded to the bits it was
  made for;
* `nearest_shortest`, `ofParts_nearest_shortest`: the same for the shortest decimal of a double.
-/

namespace Abacus.Number

namespace Decimal

/-- The value of a decimal. -/
def rational (d : Decimal) : ℚ := d.digits * 10 ^ d.exponent

theorem nearest_eq (d : Decimal) : d.nearest = Nearest.bits d.rational := by
  rw [nearest, ratio]
  simp only [natPow_eq]
  rw [Nearest.ofRatio_eq_bits _ (by positivity), Nearest.scaled_eq_mul_zpow (by decide), rational]
  rfl

theorem rational_trimZeros (fuel : ℕ) (d : Decimal) : (trimZeros fuel d).rational = d.rational := by
  induction fuel generalizing d with
  | zero => rfl
  | succ fuel ih =>
    rw [trimZeros]
    split_ifs with h
    · have hzero : d.digits % 10 = 0 := by simpa using (Bool.and_eq_true_iff.1 h).2
      have hdiv : d.digits = d.digits / 10 * 10 := by omega
      rw [ih, rational, rational, zpow_add_one₀ (by norm_num)]
      dsimp only
      conv_rhs => rw [hdiv]
      push_cast
      ring
    · rfl

end Decimal

namespace Shortest

theorem nearest_of_candidate? {bits num den : ℕ} {exponent : ℤ} {d : Decimal}
    (h : candidate? bits num den exponent = some d) : d.nearest = bits := by
  rw [candidate?] at h
  dsimp only at h
  split_ifs at h with hlow hhigh
  · cases h
    simpa using (Bool.and_eq_true_iff.1 hlow).1
  · cases h
    exact hhigh

theorem rational_exact (b : ℕ) : (exact b).rational = Nearest.rational b := by
  obtain ⟨k, hk⟩ : ∃ k : ℕ, (Nearest.value b).2 = 2 ^ k := ⟨_, rfl⟩
  have hten : (10 : ℚ) ^ k = 5 ^ k * 2 ^ k := by rw [← mul_pow]; norm_num
  rw [exact, Decimal.rational, Nearest.rational]
  simp only [natPow_eq, hk, Nat.log2_two_pow, zpow_neg, zpow_natCast, hten]
  push_cast
  field_simp

/-- **The search stops at a decimal that is rounded to the given bits**, also when it has run out
of candidates. -/
theorem nearest_search {b : ℕ} (hb : b < Nearest.infinity) (num den : ℕ) (position : ℤ)
    (left count : ℕ) : (search b num den position left count).nearest = b := by
  induction left generalizing count with
  | zero =>
    rw [search, Decimal.nearest_eq, rational_exact]
    exact Nearest.bits_rational hb
  | succ left ih =>
    rw [search]
    split
    · next d hd => exact nearest_of_candidate? hd
    · exact ih _

end Shortest

/-- **The shortest decimal of a double is rounded to this double.** -/
theorem nearest_shortest {b : ℕ} (hb : b < Nearest.infinity) : (shortest b).nearest = b := by
  rw [shortest, Decimal.nearest_eq, Decimal.rational_trimZeros, ← Decimal.nearest_eq]
  exact Shortest.nearest_search hb _ _ _ _ _

/-- **A finite double is its sign and what its shortest decimal is rounded to.** -/
theorem ofParts_nearest_shortest {x : Float} (hx : x.isFinite = true) :
    ofParts (isNegative x) (shortest (magnitude x)).nearest = x := by
  rw [nearest_shortest ((isFinite_iff x).1 hx), ofParts_self]

theorem digits_shortest_pos {b : ℕ} (h₀ : 0 < b) (hb : b < Nearest.infinity) :
    0 < (shortest b).digits := by
  refine Nat.pos_of_ne_zero fun h => h₀.ne ?_
  rw [← nearest_shortest hb, Decimal.nearest_eq, Decimal.rational, h]
  simp

end Abacus.Number
