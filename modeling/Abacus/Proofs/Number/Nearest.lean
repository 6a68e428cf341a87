import Mathlib
import Abacus.Proofs.Number.Rounding

/-!
# What rounding to the nearest double means

The patterns of bits count the doubles that are not negative in their order. Those from infinity on
are given the values of the doubles that there would be with more binades. A number is rounded to
the pattern whose value is nearest to it, halfway between two of them to the even one, and to a
double if that pattern lies below infinity.

* `rational_add`, `rational_strictMono`: the values of the patterns in one binade, and their order;
* `IsNearest`, `IsNearest.unique`: the pattern with the nearest value;
* `exists_isNearest`, `bits_eq_iff`: it is the one that is computed;
* `IsNearest.lt_infinity_iff`: the numbers that are rounded to finite doubles;
* `IsRounded`, `isRounded_iff`: the finite double that a value with a sign is rounded to.
-/

namespace Abacus.Number.Nearest

variable {q : ℚ} {b b' : ℕ}

/-! ## The values of patterns -/

/-- The values in a binade are the multiples of its unit, up to the first one of the next binade. -/
theorem rational_add {u : ℤ} (hu : -1074 ≤ u) {k : ℕ} (hk : k ≤ 2 ^ 53)
    (hlow : u = -1074 ∨ 2 ^ 52 ≤ k) : rational ((u + 1074).toNat * 2 ^ 52 + k) = k * 2 ^ u := by
  obtain ⟨n, hn⟩ := Int.eq_ofNat_of_zero_le (show 0 ≤ u + 1074 by omega)
  obtain rfl : u = n - 1074 := by omega
  rw [rational_eq, sub_add_cancel, Int.toNat_natCast]
  rcases lt_or_ge k (2 ^ 52) with hsmall | hlarge
  · obtain rfl : n = 0 := by omega
    have hquot : (0 * 2 ^ 52 + k) / 2 ^ 52 = 0 := by omega
    have hrem : (0 * 2 ^ 52 + k) % 2 ^ 52 = k := by omega
    rw [hquot, hrem, if_pos rfl]
    norm_num
  · rcases hk.lt_or_eq with hk | rfl
    · have hquot : (n * 2 ^ 52 + k) / 2 ^ 52 = n + 1 := by omega
      have hrem : 2 ^ 52 + (n * 2 ^ 52 + k) % 2 ^ 52 = k := by omega
      rw [hquot, hrem, if_neg (by omega), max_eq_left (by omega)]
      congr 2
      push_cast
      ring
    · have hquot : (n * 2 ^ 52 + 2 ^ 53) / 2 ^ 52 = n + 2 := by omega
      have hrem : (n * 2 ^ 52 + 2 ^ 53) % 2 ^ 52 = 0 := by omega
      have hexponent : ((n + 2 : ℕ) - 1075 : ℤ) = 1 + (n - 1074) := by
        push_cast
        ring
      rw [hquot, hrem, if_neg (by omega), max_eq_left (by omega), hexponent,
        zpow_add₀ two_ne_zero]
      push_cast
      ring

/-- Every pattern lies in some binade. -/
theorem exists_binade (b : ℕ) :
    ∃ (u : ℤ) (k : ℕ), -1074 ≤ u ∧ k < 2 ^ 53 ∧ (u = -1074 ∨ 2 ^ 52 ≤ k) ∧
      b = (u + 1074).toNat * 2 ^ 52 + k := by
  rcases lt_or_ge b (2 ^ 52) with hsmall | hlarge
  · exact ⟨-1074, b, le_rfl, by omega, .inl rfl, by omega⟩
  · refine ⟨(b / 2 ^ 52 : ℕ) - 1075, 2 ^ 52 + b % 2 ^ 52, ?_, ?_, .inr ?_, ?_⟩ <;> omega

theorem rational_lt_succ (b : ℕ) : rational b < rational (b + 1) := by
  obtain ⟨u, k, hu, hk, hlow, rfl⟩ := exists_binade b
  rw [add_assoc, rational_add hu hk.le hlow, rational_add hu hk (hlow.imp_right (by omega))]
  have hpos : (0 : ℚ) < 2 ^ u := by positivity
  push_cast
  linarith

/-- **The order of the patterns is that of their values.** -/
theorem rational_strictMono : StrictMono rational := strictMono_nat_of_lt_succ rational_lt_succ

/-! ## The nearest pattern -/

/-- A pattern has the value nearest to a number, and is even if another one is as near. -/
structure IsNearest (q : ℚ) (b : ℕ) : Prop where
  le : ∀ b', |rational b - q| ≤ |rational b' - q|
  even : ∀ b', b' ≠ b → |rational b' - q| = |rational b - q| → b % 2 = 0

/-- Two even patterns are not both nearest: one between them is nearer. -/
theorem IsNearest.not_below (h : IsNearest q b) (h' : IsNearest q b') : ¬b < b' := by
  intro hlt
  have hdist : |rational b' - q| = |rational b - q| := le_antisymm (h'.le b) (h.le b')
  have hb := h.even b' hlt.ne' hdist
  have hb' := h'.even b hlt.ne hdist.symm
  have hlow := rational_strictMono (Nat.lt_succ_self b)
  have hhigh := rational_strictMono (show b + 1 < b' by omega)
  have hmiddle : rational b' - q = -(rational b - q) := by
    refine (abs_eq_abs.1 hdist).resolve_left fun heq => ?_
    linarith
  have hneg : rational b - q < 0 := by linarith
  refine (h.le (b + 1)).not_gt ?_
  rw [abs_of_neg hneg, abs_lt]
  constructor <;> linarith

/-- **There is one nearest pattern.** -/
theorem IsNearest.unique (h : IsNearest q b) (h' : IsNearest q b') : b = b' :=
  le_antisymm (not_lt.1 (h'.not_below h)) (not_lt.1 (h.not_below h'))

theorem dist_of_le (hq : rational b ≤ q) (h : b' ≤ b) : |rational b' - q| = q - rational b' := by
  have hle := rational_strictMono.monotone h
  rw [abs_of_nonpos (by linarith), neg_sub]

theorem dist_of_lt (hq : q < rational b) (h : b ≤ b') : |rational b' - q| = rational b' - q := by
  have hle := rational_strictMono.monotone h
  exact abs_of_pos (by linarith)

/-- **Of two neighbours with a number between their values** the nearer one is the nearest of all,
or the even one if they are as near. -/
theorem isNearest_of_neighbours {a : ℕ} (hlow : rational b ≤ q) (hhigh : q < rational (b + 1))
    (ha : a = b ∨ a = b + 1) (hle : |rational a - q| ≤ |rational b - q|)
    (hle' : |rational a - q| ≤ |rational (b + 1) - q|)
    (htie : |rational b - q| = |rational (b + 1) - q| → a % 2 = 0) : IsNearest q a := by
  have hbelow : ∀ b' < b, |rational b - q| < |rational b' - q| := by
    intro b' h
    have := rational_strictMono h
    rw [dist_of_le hlow le_rfl, dist_of_le hlow h.le]
    linarith
  have habove : ∀ b' > b + 1, |rational (b + 1) - q| < |rational b' - q| := by
    intro b' h
    have := rational_strictMono h
    rw [dist_of_lt hhigh le_rfl, dist_of_lt hhigh h.le]
    linarith
  have hcases : ∀ b', b' < b ∨ b' = b ∨ b' = b + 1 ∨ b + 1 < b' := by omega
  constructor
  · intro b'
    rcases hcases b' with h | rfl | rfl | h
    · exact hle.trans (hbelow b' h).le
    · exact hle
    · exact hle'
    · exact hle'.trans (habove b' h).le
  · intro b' hne heq
    rcases hcases b' with h | rfl | rfl | h
    · exact absurd heq (hle.trans_lt (hbelow b' h)).ne'
    · obtain rfl := ha.resolve_left hne.symm
      exact htie heq
    · obtain rfl := ha.resolve_right hne.symm
      exact htie heq.symm
    · exact absurd heq (hle'.trans_lt (habove b' h)).ne'

/-! ## What is computed -/

/-- A number in units of its binade. -/
theorem floor_bounds (hq : 0 < q) :
    ⌊q / 2 ^ unitAt q⌋₊ < 2 ^ 53 ∧ (unitAt q = -1074 ∨ 2 ^ 52 ≤ ⌊q / 2 ^ unitAt q⌋₊) := by
  have hself : (2 : ℚ) ^ Int.log 2 q ≤ q := by
    exact_mod_cast Int.zpow_log_le_self (b := 2) one_lt_two hq
  have hlt : q < (2 : ℚ) ^ (Int.log 2 q + 1) := by
    exact_mod_cast Int.lt_zpow_succ_log_self (b := 2) one_lt_two q
  have hpos : (0 : ℚ) < 2 ^ unitAt q := by positivity
  constructor
  · rw [Nat.floor_lt (by positivity), div_lt_iff₀ hpos]
    calc q < (2 : ℚ) ^ (Int.log 2 q + 1) := hlt
      _ ≤ 2 ^ (53 + unitAt q) := zpow_le_zpow_right₀ one_le_two (by rw [unitAt]; omega)
      _ = (2 ^ 53 : ℕ) * 2 ^ unitAt q := by
        rw [zpow_add₀ two_ne_zero]
        norm_num
  · rcases le_or_gt (Int.log 2 q - 52) (-1074) with h | h
    · exact .inl (max_eq_right h)
    · refine .inr (Nat.le_floor ?_)
      rw [le_div_iff₀ hpos, unitAt, max_eq_left h.le]
      calc ((2 ^ 52 : ℕ) : ℚ) * 2 ^ (Int.log 2 q - 52) = 2 ^ (52 + (Int.log 2 q - 52)) := by
            rw [zpow_add₀ two_ne_zero]
            norm_num
        _ = 2 ^ Int.log 2 q := by rw [add_sub_cancel]
        _ ≤ q := hself

/-- The two neighbours of a number, and how far they are in units of its binade. -/
theorem dist_neighbours {u : ℤ} (hu : -1074 ≤ u) (hk : ⌊q / 2 ^ u⌋₊ < 2 ^ 53)
    (hbinade : u = -1074 ∨ 2 ^ 52 ≤ ⌊q / 2 ^ u⌋₊) (hq : 0 ≤ q)
    (hb : b = (u + 1074).toNat * 2 ^ 52 + ⌊q / 2 ^ u⌋₊) :
    rational b ≤ q ∧ q < rational (b + 1) ∧
      |rational b - q| = (q / 2 ^ u - ⌊q / 2 ^ u⌋₊) * 2 ^ u ∧
      |rational (b + 1) - q| = (⌊q / 2 ^ u⌋₊ + 1 - q / 2 ^ u) * 2 ^ u := by
  have hpos : (0 : ℚ) < 2 ^ u := by positivity
  have hvalue := rational_add hu hk.le hbinade
  have hnext := rational_add hu hk (hbinade.imp_right (by omega))
  have hfloor := Nat.floor_le (div_nonneg hq hpos.le)
  have hceil := Nat.lt_floor_add_one (q / 2 ^ u)
  have hself : q / 2 ^ u * 2 ^ u = q := div_mul_cancel₀ _ hpos.ne'
  rw [← hb] at hvalue
  rw [Nat.succ_eq_add_one, ← add_assoc, ← hb, Nat.cast_succ] at hnext
  have hlow : rational b ≤ q := by
    rw [hvalue, ← hself]
    exact mul_le_mul_of_nonneg_right (by rwa [hself]) hpos.le
  have hhigh : q < rational (b + 1) := by
    rw [hnext, ← hself]
    exact mul_lt_mul_of_pos_right (by rwa [hself]) hpos
  refine ⟨hlow, hhigh, ?_, ?_⟩
  · rw [dist_of_le hlow le_rfl, hvalue, sub_mul, hself]
  · rw [dist_of_lt hhigh le_rfl, hnext, sub_mul, hself]

/-- The nearest number of units gives the nearest pattern. -/
theorem isNearest_add_round {u : ℤ} (hu : -1074 ≤ u) (hk : ⌊q / 2 ^ u⌋₊ < 2 ^ 53)
    (hbinade : u = -1074 ∨ 2 ^ 52 ≤ ⌊q / 2 ^ u⌋₊) (hq : 0 ≤ q) :
    IsNearest q ((u + 1074).toNat * 2 ^ 52 + round (q / 2 ^ u)) := by
  obtain ⟨hlow, hhigh, hbefore, hafter⟩ := dist_neighbours hu hk hbinade hq rfl
  have hpos : (0 : ℚ) < 2 ^ u := by positivity
  rw [round]
  generalize q / 2 ^ u = x at *
  generalize ⌊x⌋₊ = k at *
  generalize hbase : (u + 1074).toNat * 2 ^ 52 = base at *
  have hle_iff : ∀ y z : ℚ, y * 2 ^ u ≤ z * 2 ^ u ↔ y ≤ z := fun y z => mul_le_mul_iff_left₀ hpos
  have heq_iff : ∀ y z : ℚ, y * 2 ^ u = z * 2 ^ u ↔ y = z := fun y z => mul_left_inj' hpos.ne'
  split_ifs with hless htie
  · refine isNearest_of_neighbours hlow hhigh (.inl rfl) le_rfl ?_ ?_
    · rw [hbefore, hafter, hle_iff]
      linarith
    · rw [hbefore, hafter, heq_iff]
      intro h
      linarith
  · -- The even neighbour is taken: the patterns before the binade are even in number.
    have heven : base % 2 = 0 := by omega
    have hsame : |rational (base + k) - q| = |rational (base + k + 1) - q| := by
      rw [hbefore, hafter, heq_iff]
      linarith
    have hcases : base + (k + k % 2) = base + k ∨ base + (k + k % 2) = base + k + 1 := by omega
    refine isNearest_of_neighbours hlow hhigh hcases ?_ ?_ (by omega)
    · rcases hcases with h | h <;> rw [h]
      exact hsame.ge
    · rcases hcases with h | h <;> rw [h]
      exact hsame.le
  · have hmore : k + 1 - x < x - k := by
      rcases lt_or_gt_of_ne htie with h | h
      · exact absurd h hless
      · linarith
    refine isNearest_of_neighbours hlow hhigh (.inr rfl) ?_ le_rfl ?_
    · rw [← add_assoc, hbefore, hafter, hle_iff]
      exact hmore.le
    · rw [hbefore, hafter, heq_iff]
      intro h
      linarith

/-- **The nearest pattern** gives the bits, up to those of infinity. -/
theorem exists_isNearest (hq : 0 ≤ q) : ∃ b, IsNearest q b ∧ bits q = min b infinity := by
  rcases hq.eq_or_lt with rfl | hpos
  · have hzero : rational 0 = 0 := by simp [rational_eq]
    refine ⟨0, ⟨fun b' => ?_, fun b' _ _ => rfl⟩, ?_⟩
    · rw [hzero, sub_zero, abs_zero]
      exact abs_nonneg _
    · rw [bits_zero, Nat.zero_min]
  · have hunit : -1074 ≤ unitAt q := le_max_right _ _
    obtain ⟨hk, hbinade⟩ := floor_bounds hpos
    refine ⟨_, isNearest_add_round hunit hk hbinade hq, ?_⟩
    rw [bits, if_neg hpos.ne']

theorem bits_le_infinity (q : ℚ) : bits q ≤ infinity := by
  rw [bits]
  split_ifs
  · exact Nat.zero_le _
  · exact min_le_right _ _

/-- **A number is rounded to finite bits** exactly if they are the nearest pattern. -/
theorem bits_eq_iff (hq : 0 ≤ q) (hb : b < infinity) : bits q = b ↔ IsNearest q b := by
  obtain ⟨a, ha, hbits⟩ := exists_isNearest hq
  constructor
  · intro h
    obtain rfl : a = b := by omega
    exact ha
  · intro h
    obtain rfl := ha.unique h
    rw [hbits, min_eq_left hb.le]

/-! ## The range -/

/-- What is rounded to an odd pattern or a lower one lies below the middle of it and the next. -/
theorem IsNearest.le_iff {a : ℕ} (h : IsNearest q b) (ha : a % 2 = 1) :
    b ≤ a ↔ 2 * q < rational a + rational (a + 1) := by
  have hlt := rational_lt_succ a
  constructor
  · intro hle
    by_contra hge
    have hmono := rational_strictMono.monotone hle
    have hdist := dist_of_le (show rational a ≤ q by linarith) hle
    have hnear := h.le (a + 1)
    rcases le_or_gt (rational (a + 1)) q with hq | hq
    · rw [hdist, dist_of_le hq le_rfl] at hnear
      linarith
    · -- The two are as near, and the odd one is not taken.
      rw [hdist, dist_of_lt hq le_rfl] at hnear
      obtain rfl : b = a := rational_strictMono.injective (by linarith)
      have heven := h.even (b + 1) (by omega)
      rw [hdist, dist_of_lt hq le_rfl] at heven
      have := heven (by linarith)
      omega
  · intro hless
    by_contra hgt
    have hmono := rational_strictMono.monotone (show a + 1 ≤ b by omega)
    have hdist := dist_of_lt (show q < rational (a + 1) by linarith) (show a + 1 ≤ b by omega)
    have hnear := h.le a
    rcases le_or_gt (rational a) q with hq | hq
    · rw [hdist, dist_of_le hq le_rfl] at hnear
      linarith
    · rw [hdist, dist_of_lt hq le_rfl] at hnear
      linarith

/-- **The range of the doubles** ends in the middle of the greatest one and the next power of
two. -/
theorem IsNearest.lt_infinity_iff (h : IsNearest q b) :
    b < infinity ↔ q < 2 ^ (1024 : ℤ) - 2 ^ (970 : ℤ) := by
  have h971 : (2 : ℚ) ^ (971 : ℤ) = 2 * 2 ^ (970 : ℤ) := by
    rw [show (971 : ℤ) = 1 + 970 from rfl, zpow_add₀ two_ne_zero, zpow_one]
  have h1024 : (2 : ℚ) ^ (1024 : ℤ) = 2 ^ (54 : ℤ) * 2 ^ (970 : ℤ) := by
    rw [show (1024 : ℤ) = 54 + 970 from rfl, zpow_add₀ two_ne_zero]
  have hgreatest := rational_add (u := 971) (k := 2 ^ 53 - 1) (by decide) (by decide) (by decide)
  have hnext := rational_add (u := 971) (k := 2 ^ 53) (by decide) le_rfl (by decide)
  rw [show ((971 : ℤ) + 1074).toNat * 2 ^ 52 + (2 ^ 53 - 1) = infinity - 1 from rfl,
    h971] at hgreatest
  rw [show ((971 : ℤ) + 1074).toNat * 2 ^ 52 + 2 ^ 53 = infinity from rfl, h971] at hnext
  have hmiddle := h.le_iff (a := infinity - 1) (by decide)
  rw [show infinity - 1 + 1 = infinity from rfl, hgreatest, hnext] at hmiddle
  rw [h1024]
  generalize (2 : ℚ) ^ (970 : ℤ) = p at hmiddle ⊢
  have hle : b < infinity ↔ b ≤ infinity - 1 := Nat.lt_iff_le_pred (by decide)
  rw [hle, hmiddle]
  norm_num
  constructor <;> intro h <;> linarith

end Abacus.Number.Nearest

namespace Abacus.Number

/-! ## Doubles -/

/-- A finite double with a given sign, no other pattern being nearer to a value than its bits. -/
structure IsRounded (negative : Bool) (q : ℚ) (x : Float) : Prop where
  isFinite : x.isFinite = true
  isNegative : isNegative x = negative
  isNearest : Nearest.IsNearest q (magnitude x)

variable {negative : Bool} {q : ℚ} {x : Float}

/-- **A value is rounded to a finite double** exactly if its bits are those of one. -/
theorem isRounded_iff (hq : 0 ≤ q) :
    IsRounded negative q x ↔ ofParts negative (Nearest.bits q) = x ∧ x.isFinite = true := by
  have hle := Nearest.bits_le_infinity q
  constructor
  · rintro ⟨hfinite, rfl, hnearest⟩
    rw [(Nearest.bits_eq_iff hq ((isFinite_iff x).1 hfinite)).2 hnearest, ofParts_self]
    exact ⟨rfl, hfinite⟩
  · rintro ⟨rfl, hfinite⟩
    refine ⟨hfinite, isNegative_ofParts negative hle, ?_⟩
    rw [isFinite_iff] at hfinite
    rw [← Nearest.bits_eq_iff hq hfinite, magnitude_ofParts negative hle]

/-- Only values in the range of the doubles are rounded to finite ones. -/
theorem IsRounded.lt_range (h : IsRounded negative q x) :
    q < 2 ^ (1024 : ℤ) - 2 ^ (970 : ℤ) :=
  h.isNearest.lt_infinity_iff.1 ((isFinite_iff x).1 h.isFinite)

end Abacus.Number
