import Mathlib
import Abacus.Text.Numeral

/-!
# Decimal digits and back

* `Text.AllDigits`: texts of decimal digits; `Text.BeginsWithDigit`: what a run of digits goes on
  in.
* `digitsValue_append`, `digitsValue_ofNat`: the value of digits, and that of the digits of a
  number.
* `allDigits_ofNat`, `ofNat_ne_nil`, `exists_ofNat_eq_cons`: the digits of a number are digits,
  there are some, and the first one is no zero unless the number is zero.
* `spanDigits_append`: a run of digits is cut off where no digit follows.
* `hexValue?_ofDigit`: the value of a hexadecimal digit.
-/

namespace Abacus.Text

/-- All code points of a text are decimal digits. -/
def AllDigits (t : Text) : Prop := ∀ c ∈ t, c.isDigit = true

/-- A text begins with a decimal digit. -/
def BeginsWithDigit (t : Text) : Prop := ∃ c ∈ t.head?, c.isDigit = true

theorem AllDigits.append {t u : Text} (ht : t.AllDigits) (hu : u.AllDigits) :
    (t ++ u).AllDigits := by
  intro c hc
  rcases List.mem_append.1 hc with hc | hc
  · exact ht c hc
  · exact hu c hc

theorem AllDigits.take {t : Text} (ht : t.AllDigits) (n : ℕ) : AllDigits (t.take n) :=
  fun c hc => ht c (List.mem_of_mem_take hc)

theorem AllDigits.drop {t : Text} (ht : t.AllDigits) (n : ℕ) : AllDigits (t.drop n) :=
  fun c hc => ht c (List.mem_of_mem_drop hc)

theorem allDigits_replicate_zero (n : ℕ) :
    AllDigits (List.replicate n (CodePoint.ofChar '0')) := by
  intro c hc
  rw [List.eq_of_mem_replicate hc]
  rfl

/-! ## Runs of digits -/

/-- **A run of digits ends where no digit follows.** -/
theorem spanDigits_append {t u : Text} (ht : t.AllDigits) (hu : ¬u.BeginsWithDigit) :
    spanDigits (t ++ u) = (t, u) := by
  have hstop : u.takeWhile (·.isDigit) = [] ∧ u.dropWhile (·.isDigit) = u := by
    cases u with
    | nil => exact ⟨rfl, rfl⟩
    | cons c u =>
      have hc : ¬c.isDigit = true := fun h => hu ⟨c, rfl, h⟩
      exact ⟨List.takeWhile_cons_of_neg hc, List.dropWhile_cons_of_neg hc⟩
  rw [spanDigits, List.takeWhile_append_of_pos ht, List.dropWhile_append_of_pos ht, hstop.1,
    hstop.2, List.append_nil]

/-! ## Values -/

theorem digitsValue_eq_foldl (t : Text) (n : ℕ) :
    t.foldl (fun n c => n * 10 + c.digitValue) n = n * 10 ^ t.length + digitsValue t := by
  induction t generalizing n with
  | nil => simp [digitsValue]
  | cons c t ih =>
    rw [digitsValue, List.foldl_cons, List.foldl_cons, ih, ih (0 * 10 + c.digitValue),
      List.length_cons]
    ring

/-- The digits before others count by the power of ten of their number. -/
theorem digitsValue_append (t u : Text) :
    digitsValue (t ++ u) = digitsValue t * 10 ^ u.length + digitsValue u := by
  rw [digitsValue, List.foldl_append]
  exact digitsValue_eq_foldl u _

theorem digitsValue_replicate_zero (n : ℕ) :
    digitsValue (List.replicate n (CodePoint.ofChar '0')) = 0 := by
  induction n with
  | zero => rfl
  | succ n ih =>
    rw [List.replicate_succ', digitsValue_append, ih]
    rfl

/-! ## The digits of a number -/

theorem ofNat_eq (n : ℕ) : ofNat n = (Nat.toDigits 10 n).map CodePoint.ofChar := by
  rw [ofNat, ofString, Nat.toString_eq_ofList_toDigits, String.toList_ofList]

/-- The digits of a number are those without the last, and the last. -/
theorem ofNat_of_le {n : ℕ} (h : 10 ≤ n) : ofNat n = ofNat (n / 10) ++ ofNat (n % 10) := by
  rw [ofNat_eq, ofNat_eq, ofNat_eq, Nat.toDigits_of_base_le (by decide) h,
    Nat.toDigits_of_lt_base (Nat.mod_lt n (by decide)), List.map_append]

theorem ofNat_of_lt {n : ℕ} (h : n < 10) : ofNat n = [CodePoint.ofChar n.digitChar] := by
  rw [ofNat_eq, Nat.toDigits_of_lt_base h]
  rfl

theorem length_ofNat (n : ℕ) : (ofNat n).length = (Nat.toDigits 10 n).length := by
  rw [ofNat_eq, List.length_map]

theorem length_ofNat_le {n k : ℕ} (hk : 0 < k) (h : n < 10 ^ k) : (ofNat n).length ≤ k := by
  rw [length_ofNat]
  exact (Nat.length_toDigits_le_iff (by decide) hk).2 h

theorem ofNat_ne_nil (n : ℕ) : ofNat n ≠ [] := by
  rw [ofNat_eq, ne_eq, List.map_eq_nil_iff]
  exact Nat.toDigits_ne_nil

/-- A property of digits that numbers below ten have and that passes from all digits but the last
to all of them. -/
theorem ofNat_induction {P : ℕ → Prop} (digit : ∀ n, n < 10 → P n)
    (more : ∀ n, 10 ≤ n → P (n / 10) → P n) (n : ℕ) : P n := by
  induction n using Nat.strong_induction_on with
  | _ n ih =>
    by_cases h : n < 10
    · exact digit n h
    · exact more n (by omega) (ih _ (by omega))

theorem isDigit_digitChar : ∀ n < 10, (CodePoint.ofChar (Nat.digitChar n)).isDigit = true := by
  decide

theorem digitValue_digitChar :
    ∀ n < 10, (CodePoint.ofChar (Nat.digitChar n)).digitValue = n := by
  decide

theorem allDigits_ofNat (n : ℕ) : (ofNat n).AllDigits := by
  induction n using ofNat_induction with
  | digit n h =>
    intro c hc
    rw [ofNat_of_lt h, List.mem_singleton] at hc
    rw [hc]
    exact isDigit_digitChar n h
  | more n h ih =>
    rw [ofNat_of_le h]
    refine ih.append fun c hc => ?_
    have hlt : n % 10 < 10 := Nat.mod_lt n (by decide)
    rw [ofNat_of_lt hlt, List.mem_singleton] at hc
    rw [hc]
    exact isDigit_digitChar _ hlt

/-- **The digits of a number have its value.** -/
theorem digitsValue_ofNat (n : ℕ) : digitsValue (ofNat n) = n := by
  induction n using ofNat_induction with
  | digit n h =>
    rw [ofNat_of_lt h]
    exact (Nat.zero_add _).trans (digitValue_digitChar n h)
  | more n h ih =>
    have hlt : n % 10 < 10 := Nat.mod_lt n (by decide)
    have hlast : digitsValue (ofNat (n % 10)) = n % 10 := by
      rw [ofNat_of_lt hlt]
      exact (Nat.zero_add _).trans (digitValue_digitChar _ hlt)
    rw [ofNat_of_le h, digitsValue_append, ih, hlast, ofNat_of_lt hlt, List.length_singleton]
    omega

/-- The first digit of a positive number is no zero. -/
theorem exists_ofNat_eq_cons {n : ℕ} (hn : 0 < n) :
    ∃ c rest, ofNat n = c :: rest ∧ c.isDigit = true ∧ c ≠ CodePoint.ofChar '0' := by
  induction n using ofNat_induction with
  | digit n h =>
    refine ⟨_, [], ofNat_of_lt h, isDigit_digitChar n h, fun hzero => hn.ne' ?_⟩
    rw [← digitValue_digitChar n h, hzero]
    rfl
  | more n h ih =>
    obtain ⟨c, rest, heq, hdigit, hzero⟩ := ih (by omega)
    exact ⟨c, rest ++ ofNat (n % 10), by rw [ofNat_of_le h, heq, List.cons_append], hdigit, hzero⟩

/-! ## Hexadecimal digits -/

theorem hexValue?_ofDigit : ∀ n < 16, (CodePoint.ofDigit n).hexValue? = some n := by decide

end Abacus.Text
