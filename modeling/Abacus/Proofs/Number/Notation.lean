import Mathlib
import Abacus.Number.Notation
import Abacus.Proofs.Number.Shortest
import Abacus.Proofs.Text.Numeral

/-!
# The notation of a double and its value

The text of a double is put together from the parts of a numeral, whose value is the double.

* `Numeral.render`, `Numeral.IsPlain`: the text of a numeral, and what a numeral must be for its
  text to be read back into the same parts by any of the readers.
* `Numeral.rational`, `Numeral.value_eq`: the value of a numeral before it is rounded.
* `Notation.numeral`: the parts of the text of a decimal (`render_numeral`), with the value of the
  decimal (`rational_numeral`).
* `Number.numeral`: the parts of the text of a finite double (`text_eq_render`), whose value is the
  double itself (`value_numeral`).
-/

namespace Abacus.Number

open Text (AllDigits)

namespace Numeral

/-- The text of a fraction part. -/
def renderFraction : Option Text → Text
  | none => []
  | some digits => CodePoint.ofChar '.' :: digits

/-- The text of an exponent part. -/
def renderExponent : Option (Option CodePoint × Text) → Text
  | none => []
  | some (sign, digits) => CodePoint.ofChar 'e' :: (sign.toList ++ digits)

/-- The text of a numeral. -/
def render (n : Numeral) : Text :=
  n.sign.toList ++ (n.whole ++ (renderFraction n.fraction ++ renderExponent n.exponent))

/-- A numeral with a minus sign or none, without needless zeros in front, with digits on both sides
of its point, and with a sign in its exponent part. -/
structure IsPlain (n : Numeral) : Prop where
  sign : n.sign = none ∨ n.sign = some (CodePoint.ofChar '-')
  whole : n.whole.AllDigits
  front : n.whole = [CodePoint.ofChar '0'] ∨
    ∃ c rest, n.whole = c :: rest ∧ c ≠ CodePoint.ofChar '0'
  fraction : ∀ digits ∈ n.fraction, digits ≠ [] ∧ digits.AllDigits
  exponent : ∀ part ∈ n.exponent,
    (part.1 = some (CodePoint.ofChar '+') ∨ part.1 = some (CodePoint.ofChar '-')) ∧
      part.2 ≠ [] ∧ part.2.AllDigits

/-- The value of a numeral but for its sign, before it is rounded. -/
def rational (n : Numeral) : ℚ :=
  Text.digitsValue (n.whole ++ n.fraction.getD []) *
    10 ^ (n.power - (n.fraction.getD []).length)

theorem value_eq (n : Numeral) :
    n.value = ofParts (n.sign = some (CodePoint.ofChar '-')) (Nearest.bits n.rational) := by
  rw [value, ofScaled_eq, rational]

end Numeral

namespace Notation

/-- The sign of a numeral. -/
def sign (negative : Bool) : Option CodePoint :=
  if negative then some (CodePoint.ofChar '-') else none

/-- The digits of an exponent part. -/
def exponentDigits (f : Notation) (e : ℤ) : Text :=
  List.replicate (f.exponentWidth - (Text.ofNat e.natAbs).length) (CodePoint.ofChar '0') ++
    Text.ofNat e.natAbs

/-- The numeral of a decimal whose first digit stands right behind the point or further. -/
def small (negative : Bool) (d : Decimal) (zeros : ℕ) : Numeral :=
  ⟨sign negative, [CodePoint.ofChar '0'],
    some (List.replicate zeros (CodePoint.ofChar '0') ++ Text.ofNat d.digits), none⟩

/-- The numeral of a decimal with `size` digits before the point. -/
def positional (negative : Bool) (d : Decimal) (size : ℕ) : Numeral :=
  let digits := Text.ofNat d.digits
  ⟨sign negative,
    digits.take size ++
      List.replicate (size - (digits.take size).length) (CodePoint.ofChar '0'),
    some (if (digits.drop size).isEmpty then [CodePoint.ofChar '0'] else digits.drop size), none⟩

/-- The numeral of a decimal with one digit before the point and an exponent part. -/
def scientific (f : Notation) (negative : Bool) (d : Decimal) (e : ℤ) : Numeral :=
  let digits := Text.ofNat d.digits
  ⟨sign negative, digits.take 1, if digits.length ≤ 1 then none else some (digits.drop 1),
    some (some (CodePoint.ofChar (if e < 0 then '-' else '+')), f.exponentDigits e)⟩

/-- The exponent of the first digit of a decimal. -/
def firstExponent (d : Decimal) : ℤ := d.exponent + (Text.ofNat d.digits).length - 1

/-- The parts of the text of a decimal. -/
def numeral (f : Notation) (negative : Bool) (d : Decimal) : Numeral :=
  if f.least ≤ firstExponent d && firstExponent d < f.bound then
    if firstExponent d < 0 then small negative d (-firstExponent d - 1).toNat
    else positional negative d ((firstExponent d).toNat + 1)
  else f.scientific negative d (firstExponent d)

variable (f : Notation) (negative : Bool) (d : Decimal)

/-! ### The text -/

theorem exponentText_eq (e : ℤ) :
    f.exponentText e =
      Numeral.renderExponent
        (some (some (CodePoint.ofChar (if e < 0 then '-' else '+')), f.exponentDigits e)) := by
  rw [exponentText, Numeral.renderExponent, exponentDigits]
  split_ifs <;> rfl

/-- The three forms of a text, by the exponent of the first digit. -/
theorem decimalText_eq :
    f.decimalText d =
      if f.least ≤ firstExponent d && firstExponent d < f.bound then
        if firstExponent d < 0 then
          CodePoint.ofChar '0' :: CodePoint.ofChar '.' ::
            (List.replicate (-firstExponent d - 1).toNat (CodePoint.ofChar '0') ++
              Text.ofNat d.digits)
        else
          (Text.ofNat d.digits).take ((firstExponent d).toNat + 1) ++
            List.replicate ((firstExponent d).toNat + 1 -
              ((Text.ofNat d.digits).take ((firstExponent d).toNat + 1)).length)
              (CodePoint.ofChar '0') ++ [CodePoint.ofChar '.'] ++
            if ((Text.ofNat d.digits).drop ((firstExponent d).toNat + 1)).isEmpty then
              [CodePoint.ofChar '0']
            else (Text.ofNat d.digits).drop ((firstExponent d).toNat + 1)
      else
        (Text.ofNat d.digits).take 1 ++
          (if (Text.ofNat d.digits).length ≤ 1 then []
            else CodePoint.ofChar '.' :: (Text.ofNat d.digits).drop 1) ++
          f.exponentText (firstExponent d) :=
  rfl

/-- **The text of a decimal** is that of its numeral. -/
theorem render_numeral :
    (f.numeral negative d).render = (sign negative).toList ++ f.decimalText d := by
  rw [decimalText_eq, numeral]
  split_ifs with hrange hneg hrest hlength
  · simp [small, Numeral.render, Numeral.renderFraction, Numeral.renderExponent]
  · simp [positional, Numeral.render, Numeral.renderFraction, Numeral.renderExponent, hrest]
  · simp [positional, Numeral.render, Numeral.renderFraction, Numeral.renderExponent, hrest]
  · rw [exponentText_eq]
    simp [scientific, Numeral.render, Numeral.renderFraction, hlength]
  · rw [exponentText_eq]
    simp [scientific, Numeral.render, Numeral.renderFraction, hlength]

/-! ### The parts -/

theorem sign_eq (negative : Bool) :
    sign negative = none ∨ sign negative = some (CodePoint.ofChar '-') := by
  cases negative
  · exact .inl rfl
  · exact .inr rfl

theorem allDigits_exponentDigits (e : ℤ) : (f.exponentDigits e).AllDigits :=
  (Text.allDigits_replicate_zero _).append (Text.allDigits_ofNat _)

theorem exponentDigits_ne_nil (e : ℤ) : f.exponentDigits e ≠ [] := by
  intro h
  exact Text.ofNat_ne_nil _ (List.append_eq_nil_iff.1 h).2

variable {d}

theorem isPlain_small (zeros : ℕ) : (small negative d zeros).IsPlain where
  sign := sign_eq negative
  whole := Text.allDigits_replicate_zero 1
  front := .inl rfl
  fraction := by
    rintro digits ⟨⟩
    refine ⟨fun h => Text.ofNat_ne_nil _ (List.append_eq_nil_iff.1 h).2, ?_⟩
    exact (Text.allDigits_replicate_zero _).append (Text.allDigits_ofNat _)
  exponent := by rintro part ⟨⟩

/-- The first of the digits of a positive decimal stays in front. -/
theorem exists_take_ofNat_eq_cons {n : ℕ} (hn : 0 < n) (size : ℕ) :
    ∃ c rest, (Text.ofNat n).take (size + 1) = c :: rest ∧ c ≠ CodePoint.ofChar '0' := by
  obtain ⟨c, rest, heq, -, hc⟩ := Text.exists_ofNat_eq_cons hn
  exact ⟨c, rest.take size, by rw [heq, List.take_succ_cons], hc⟩

theorem isPlain_positional (hd : 0 < d.digits) (size : ℕ) :
    (positional negative d (size + 1)).IsPlain where
  sign := sign_eq negative
  whole := ((Text.allDigits_ofNat _).take _).append (Text.allDigits_replicate_zero _)
  front := by
    obtain ⟨c, rest, heq, hc⟩ := exists_take_ofNat_eq_cons hd size
    rw [positional]
    dsimp only
    rw [heq]
    exact .inr ⟨c, _, List.cons_append, hc⟩
  fraction := by
    rintro digits ⟨⟩
    split_ifs with h
    · exact ⟨List.cons_ne_nil _ _, Text.allDigits_replicate_zero 1⟩
    · exact ⟨by simpa using h, (Text.allDigits_ofNat _).drop _⟩
  exponent := by rintro part ⟨⟩

theorem isPlain_scientific (hd : 0 < d.digits) (e : ℤ) :
    (f.scientific negative d e).IsPlain where
  sign := sign_eq negative
  whole := (Text.allDigits_ofNat _).take _
  front := .inr (exists_take_ofNat_eq_cons hd 0)
  fraction := by
    intro digits hdigits
    rw [scientific] at hdigits
    dsimp only at hdigits
    split_ifs at hdigits with h
    · cases hdigits
    · cases hdigits
      refine ⟨fun hnil => h ?_, (Text.allDigits_ofNat _).drop _⟩
      exact List.drop_eq_nil_iff.1 hnil
  exponent := by
    rintro part ⟨⟩
    refine ⟨?_, f.exponentDigits_ne_nil e, f.allDigits_exponentDigits e⟩
    split_ifs
    · exact .inr rfl
    · exact .inl rfl

theorem isPlain_numeral (hd : 0 < d.digits) : (f.numeral negative d).IsPlain := by
  rw [numeral]
  split_ifs
  · exact isPlain_small negative _
  · exact isPlain_positional negative hd _
  · exact f.isPlain_scientific negative hd _

/-! ### The value -/

theorem rational_small {zeros : ℕ} (h : (zeros : ℤ) + (Text.ofNat d.digits).length = -d.exponent) :
    (small negative d zeros).rational = d.rational := by
  have hvalue : Text.digitsValue ([CodePoint.ofChar '0'] ++
      (List.replicate zeros (CodePoint.ofChar '0') ++ Text.ofNat d.digits)) = d.digits := by
    rw [← List.append_assoc, Text.digitsValue_append, Text.digitsValue_ofNat,
      ← List.replicate_one, ← List.replicate_add, Text.digitsValue_replicate_zero]
    omega
  rw [Numeral.rational, Decimal.rational]
  simp only [small, Option.getD_some, hvalue, Numeral.power, List.length_append,
    List.length_replicate]
  congr 2
  push_cast
  omega

theorem rational_positional {size : ℕ}
    (h : (size : ℤ) = d.exponent + (Text.ofNat d.digits).length) :
    (positional negative d size).rational = d.rational := by
  have hdigits := Text.digitsValue_ofNat d.digits
  rw [Numeral.rational, Decimal.rational]
  generalize hD : Text.ofNat d.digits = D at h hdigits
  simp only [positional, hD, Option.getD_some, Numeral.power]
  by_cases hsize : D.length ≤ size
  · -- All digits stand before the point, with zeros after them.
    obtain ⟨n, hn⟩ : ∃ n : ℕ, d.exponent = n := ⟨d.exponent.toNat, by omega⟩
    have hzeros : size - D.length = n := by omega
    rw [List.take_of_length_le hsize, List.drop_eq_nil_of_le hsize, List.isEmpty_nil,
      if_pos rfl, hzeros, Text.digitsValue_append, Text.digitsValue_append,
      Text.digitsValue_replicate_zero, hdigits, hn]
    simp [Text.digitsValue, CodePoint.digitValue, CodePoint.ofChar]
  · have hrest : (D.drop size).isEmpty = false := by
      rw [List.isEmpty_eq_false_iff, ne_eq, List.drop_eq_nil_iff]
      exact hsize
    have hzeros : size - (D.take size).length = 0 := by
      rw [List.length_take]
      omega
    rw [hrest, hzeros, List.replicate_zero, List.append_nil, if_neg Bool.false_ne_true,
      List.take_append_drop, hdigits, List.length_drop]
    congr 2
    omega

theorem power_scientific (e : ℤ) : (f.scientific negative d e).power = e := by
  have hvalue : Text.digitsValue (f.exponentDigits e) = e.natAbs := by
    rw [exponentDigits, Text.digitsValue_append, Text.digitsValue_replicate_zero,
      Text.digitsValue_ofNat]
    omega
  rw [Numeral.power, scientific]
  dsimp only
  rw [hvalue]
  by_cases he : e < 0
  · rw [if_pos he, if_pos rfl]
    omega
  · rw [if_neg he, if_neg (by decide)]
    omega

theorem rational_scientific :
    (f.scientific negative d (firstExponent d)).rational = d.rational := by
  have hdigits := Text.digitsValue_ofNat d.digits
  have hne := Text.ofNat_ne_nil d.digits
  rw [Numeral.rational, Decimal.rational, power_scientific, firstExponent]
  simp only [scientific]
  generalize Text.ofNat d.digits = D at hdigits hne
  have hrest : Option.getD (if D.length ≤ 1 then none else some (D.drop 1)) [] = D.drop 1 := by
    split_ifs with h
    · exact (List.drop_eq_nil_of_le h).symm
    · rfl
  have hlength : 0 < D.length := List.length_pos_iff.2 hne
  rw [hrest, List.take_append_drop, hdigits, List.length_drop]
  congr 2
  omega

/-- **The numeral of a decimal has the value of the decimal.** -/
theorem rational_numeral : (f.numeral negative d).rational = d.rational := by
  rw [numeral]
  split_ifs with hrange hneg
  · refine rational_small negative ?_
    rw [firstExponent] at hneg ⊢
    omega
  · refine rational_positional negative ?_
    rw [firstExponent] at hneg ⊢
    omega
  · exact f.rational_scientific negative

theorem sign_numeral : (f.numeral negative d).sign = sign negative := by
  rw [numeral]
  split_ifs <;> rfl

/-- A decimal is written with a point or with an exponent part. -/
theorem isSome_numeral :
    (f.numeral negative d).fraction.isSome = true ∨
      (f.numeral negative d).exponent.isSome = true := by
  rw [numeral]
  split_ifs
  · exact .inl rfl
  · exact .inl rfl
  · exact .inr rfl

end Notation

/-! ## Doubles -/

/-- The numeral of zero. -/
def zeroNumeral (negative : Bool) : Numeral :=
  ⟨Notation.sign negative, [CodePoint.ofChar '0'], some [CodePoint.ofChar '0'], none⟩

/-- The parts of the text of a finite double. -/
def numeral (x : Float) : Numeral :=
  if magnitude x = 0 then zeroNumeral (isNegative x)
  else plain.numeral (isNegative x) (shortest (magnitude x))

theorem digits_shortest_pos_of_isFinite {x : Float} (hx : x.isFinite = true)
    (hzero : magnitude x ≠ 0) : 0 < (shortest (magnitude x)).digits :=
  digits_shortest_pos (Nat.pos_of_ne_zero hzero) ((isFinite_iff x).1 hx)

/-- The text of a finite double is that of its numeral. -/
theorem text_eq_render {x : Float} (hx : x.isFinite = true) : text x = (numeral x).render := by
  have hlt := (isFinite_iff x).1 hx
  have hsign : (Notation.sign (isNegative x)).toList =
      (if isNegative x then "-" else "" : Text) := by
    cases isNegative x <;> rfl
  rw [text, write, numeral]
  dsimp only
  rw [if_neg hlt.le.not_gt, if_neg hlt.ne, ← hsign]
  split_ifs with hzero
  · rfl
  · exact (plain.render_numeral _ _).symm

theorem isPlain_numeral {x : Float} (hx : x.isFinite = true) : (numeral x).IsPlain := by
  rw [numeral]
  split_ifs with hzero
  · exact
      { sign := Notation.sign_eq _
        whole := Text.allDigits_replicate_zero 1
        front := .inl rfl
        fraction := by
          rintro digits ⟨⟩
          exact ⟨List.cons_ne_nil _ _, Text.allDigits_replicate_zero 1⟩
        exponent := by rintro part ⟨⟩ }
  · exact plain.isPlain_numeral _ (digits_shortest_pos_of_isFinite hx hzero)

/-- A double is written with a point or with an exponent part. -/
theorem isSome_numeral (x : Float) :
    (numeral x).fraction.isSome = true ∨ (numeral x).exponent.isSome = true := by
  rw [numeral]
  split_ifs
  · exact .inl rfl
  · exact plain.isSome_numeral _

theorem value_of_sign {n : Numeral} {negative : Bool} (h : n.sign = Notation.sign negative) :
    n.value = ofParts negative (Nearest.bits n.rational) := by
  rw [Numeral.value_eq, h]
  cases negative <;> rfl

/-- **The value of the text of a finite double is the double**, the sign of zero included. -/
theorem value_numeral {x : Float} (hx : x.isFinite = true) : (numeral x).value = x := by
  rw [numeral]
  split_ifs with hzero
  · have hrational : (zeroNumeral (isNegative x)).rational = 0 := by
      rw [Numeral.rational, mul_eq_zero]
      exact .inl rfl
    rw [value_of_sign rfl, hrational, Nearest.bits_zero, ← hzero, ofParts_self]
  · rw [value_of_sign (plain.sign_numeral _), plain.rational_numeral, ← Decimal.nearest_eq,
      ofParts_nearest_shortest hx]

end Abacus.Number
