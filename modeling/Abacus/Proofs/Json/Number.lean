import Mathlib
import Abacus.Json.Token
import Abacus.Proofs.Number.Notation

/-!
# Numbers in JSON texts

The text of a plain numeral is cut off whole from the front of a JSON text, as long as what follows
cannot belong to a number.

* `NumberEnds`: the texts that no number goes on in;
* `scanFraction_append`, `scanExponent_append`, `scanWhole_append`: the parts are cut off one by
  one;
* `scanNumber_render`: the token of a numeral;
* `tokenOf_numeral`, `tokenOf_integerNumeral`: a finite double and an integer are read as what they
  are.
-/

namespace Abacus.Json.Token

open Number (Numeral)
open Number.Numeral (renderFraction renderExponent)
open Text (AllDigits BeginsWithDigit)

/-- A number cannot go on in a text. -/
def NumberEnds (t : Text) : Prop :=
  ∀ c ∈ t.head?, c.isDigit = false ∧ c ≠ CodePoint.ofChar '.' ∧ c ≠ CodePoint.ofChar 'e' ∧
    c ≠ CodePoint.ofChar 'E'

theorem numberEnds_nil : NumberEnds [] := by
  rintro c ⟨⟩

variable {rest : Text}

theorem NumberEnds.not_beginsWithDigit (h : NumberEnds rest) : ¬BeginsWithDigit rest := by
  rintro ⟨c, hc, hdigit⟩
  rw [(h c hc).1] at hdigit
  cases hdigit

/-! ## The parts -/

theorem scanExponent_append {part : Option (Option CodePoint × Text)}
    (hpart : ∀ p ∈ part,
      (p.1 = some (CodePoint.ofChar '+') ∨ p.1 = some (CodePoint.ofChar '-')) ∧
        p.2 ≠ [] ∧ p.2.AllDigits)
    (hrest : NumberEnds rest) :
    Numeral.scanExponent (renderExponent part ++ rest) = (part, rest) := by
  cases part with
  | none =>
    cases rest with
    | nil => rfl
    | cons c rest =>
      obtain ⟨-, -, he, hE⟩ := hrest c rfl
      simp [renderExponent, Numeral.scanExponent, he, hE]
  | some part =>
    obtain ⟨sign, digits⟩ := part
    obtain ⟨hsign, hne, hdigits⟩ := hpart _ rfl
    have hspan := Text.spanDigits_append hdigits hrest.not_beginsWithDigit
    have hempty : digits.isEmpty = false := by simpa using hne
    dsimp only at hsign
    have hscan : Numeral.scanSign (sign.toList ++ (digits ++ rest)) = (sign, digits ++ rest) := by
      rcases hsign with rfl | rfl <;> rfl
    rw [renderExponent, List.cons_append, List.append_assoc, Numeral.scanExponent,
      if_pos (by decide), hscan]
    dsimp only
    rw [hspan]
    dsimp only
    rw [hempty, if_neg Bool.false_ne_true]

theorem scanFraction_append {fraction : Option Text}
    (hfraction : ∀ digits ∈ fraction, digits ≠ [] ∧ digits.AllDigits)
    (hrest : ¬BeginsWithDigit rest) (hpoint : rest.head? ≠ some (CodePoint.ofChar '.')) :
    scanFraction (renderFraction fraction ++ rest) = fraction := by
  cases fraction with
  | none =>
    cases rest with
    | nil => rfl
    | cons c rest =>
      have hc : c ≠ CodePoint.ofChar '.' := fun h => hpoint (by rw [h]; rfl)
      simp [renderFraction, scanFraction, Numeral.scanFraction, hc]
  | some digits =>
    obtain ⟨hne, hdigits⟩ := hfraction _ rfl
    have hempty : digits.isEmpty = false := by simpa using hne
    rw [renderFraction, List.cons_append, scanFraction, Numeral.scanFraction, if_pos rfl,
      Text.spanDigits_append hdigits hrest]
    dsimp only
    rw [hempty, if_neg Bool.false_ne_true]

theorem scanWhole_append {whole : Text} (hwhole : whole.AllDigits)
    (hfront : whole = [CodePoint.ofChar '0'] ∨
      ∃ c tail, whole = c :: tail ∧ c ≠ CodePoint.ofChar '0')
    (hrest : ¬BeginsWithDigit rest) : scanWhole (whole ++ rest) = whole := by
  rcases hfront with rfl | ⟨c, tail, rfl, hc⟩
  · rfl
  · rw [List.cons_append, scanWhole]
    rw [if_neg hc, ← List.cons_append, Text.spanDigits_append hwhole hrest]

/-! ## The token of a numeral -/

/-- The token that a plain numeral is read as. -/
def tokenOf (n : Numeral) : Token :=
  if n.fraction.isNone && n.exponent.isNone then
    if digitLimit < n.whole.length then .fault (.integerTooLong n.whole.length)
    else .scalar (.int (if n.sign.isSome then -(Text.digitsValue n.whole : ℤ)
      else Text.digitsValue n.whole))
  else .scalar (.float n.value)

theorem not_beginsWithDigit_renderExponent (part : Option (Option CodePoint × Text))
    (hrest : NumberEnds rest) :
    ¬BeginsWithDigit (renderExponent part ++ rest) ∧
      (renderExponent part ++ rest).head? ≠ some (CodePoint.ofChar '.') := by
  cases part with
  | none =>
    refine ⟨hrest.not_beginsWithDigit, fun h => ?_⟩
    exact (hrest _ h).2.1 rfl
  | some part =>
    refine ⟨?_, by simp [renderExponent]; decide⟩
    rintro ⟨c, ⟨⟩, hdigit⟩
    exact absurd hdigit (by decide)

theorem not_beginsWithDigit_renderFraction (fraction : Option Text)
    (hrest : ¬BeginsWithDigit rest) : ¬BeginsWithDigit (renderFraction fraction ++ rest) := by
  cases fraction with
  | none => exact hrest
  | some digits =>
    rintro ⟨c, ⟨⟩, hdigit⟩
    exact absurd hdigit (by decide)

/-- Whether a minus sign was written shows at the front. -/
theorem startsWith_minus_of_sign {sign : Option CodePoint} {body : Text}
    (hsign : sign = none ∨ sign = some (CodePoint.ofChar '-'))
    (hbody : body.head? ≠ some (CodePoint.ofChar '-')) :
    Text.startsWith (sign.toList ++ body) "-" = sign.isSome := by
  rcases hsign with rfl | rfl
  · cases body with
    | nil => rfl
    | cons c tail =>
      have hc : (CodePoint.ofChar '-' == c) = false := by
        rw [beq_eq_false_iff_ne]
        rintro rfl
        exact hbody rfl
      exact Bool.and_eq_false_iff.2 (.inl hc)
  · rfl

theorem drop_toList_append (sign : Option CodePoint) (body : Text) :
    (sign.toList ++ body).drop (if sign.isSome then 1 else 0) = body := by
  cases sign <;> rfl

/-- **A plain numeral is cut off whole** from the front of a text that it does not go on in. -/
theorem scanNumber_render {n : Numeral} (hn : n.IsPlain) (hrest : NumberEnds rest) :
    scanNumber (n.render ++ rest) = some (tokenOf n, n.render.length) := by
  obtain ⟨sign, whole, fraction, exponent⟩ := n
  obtain ⟨hsign, hwhole, hfront, hfraction, hexponent⟩ := hn
  dsimp only at hsign hwhole hfront hfraction hexponent
  obtain ⟨hdigit, hpoint⟩ := not_beginsWithDigit_renderExponent exponent hrest
  have hdigit' := not_beginsWithDigit_renderFraction fraction hdigit
  have hne : whole.isEmpty = false := by
    rcases hfront with rfl | ⟨c, tail, rfl, -⟩ <;> rfl
  have hminus : whole.head? ≠ some (CodePoint.ofChar '-') := by
    intro h
    exact absurd (hwhole _ (List.mem_of_mem_head? h)) (by decide)
  -- What follows the sign is cut as the lemmas about the parts say.
  set body := whole ++ (renderFraction fraction ++ (renderExponent exponent ++ rest)) with hbody
  have hwhole' : scanWhole body = whole := scanWhole_append hwhole hfront hdigit'
  have hfraction' : scanFraction (body.drop whole.length) = fraction := by
    rw [hbody, List.drop_left]
    exact scanFraction_append hfraction hdigit hpoint
  have hexponent' : ∀ k, k = (renderFraction fraction).length →
      (body.drop whole.length).drop k = renderExponent exponent ++ rest := by
    rintro k rfl
    rw [hbody, List.drop_left, List.drop_left]
  have hhead : body.head? = whole.head? := by
    rcases hfront with rfl | ⟨c, tail, rfl, -⟩ <;> rfl
  have hstart := startsWith_minus_of_sign hsign (hhead ▸ hminus)
  have hskip := drop_toList_append sign body
  have hrender : Numeral.render ⟨sign, whole, fraction, exponent⟩ ++ rest =
      sign.toList ++ body := by
    simp [Numeral.render, hbody]
  have hsign' : sign = if sign.isSome then some (CodePoint.ofChar '-') else none := by
    rcases hsign with rfl | rfl <;> rfl
  have hsigned : (if sign.isSome then 1 else 0) = sign.toList.length := by
    rcases hsign with rfl | rfl <;> rfl
  have hscan := scanExponent_append hexponent hrest
  rw [hrender, scanNumber]
  cases fraction with
  | none =>
    simp only [hstart, hskip, hwhole', hne, hfraction', hexponent' 0 rfl, hscan, ← hsign',
      Bool.false_eq_true, if_false]
    simp only [tokenOf, Numeral.render, renderFraction, hsigned, List.length_append,
      Nat.add_sub_cancel, Nat.add_assoc, List.length_nil]
  | some digits =>
    simp only [hstart, hskip, hwhole', hne, hfraction', hexponent' (digits.length + 1) rfl, hscan,
      ← hsign', Bool.false_eq_true, if_false]
    simp only [tokenOf, Numeral.render, renderFraction, hsigned, List.length_append,
      Nat.add_sub_cancel, Nat.add_assoc, List.length_cons]

/-- The numeral of a finite double is read as the double. -/
theorem tokenOf_numeral {x : Float} (hx : x.isFinite = true) :
    tokenOf (Number.numeral x) = .scalar (.float x) := by
  rw [tokenOf, Number.value_numeral hx]
  rcases Number.isSome_numeral x with h | h
  · rw [← Option.not_isNone, Bool.not_eq_true'] at h
    simp [h]
  · rw [← Option.not_isNone, Bool.not_eq_true'] at h
    simp [h]

/-- The numeral of an integer. -/
def integerNumeral (n : ℤ) : Numeral :=
  ⟨if n < 0 then some (CodePoint.ofChar '-') else none, Text.ofNat n.natAbs, none, none⟩

theorem ofInt_eq_render (n : ℤ) : Text.ofInt n = (integerNumeral n).render := by
  rcases n with n | n
  · simp [Text.ofInt, integerNumeral, Numeral.render, renderFraction, renderExponent]
  · simp [Text.ofInt, integerNumeral, Numeral.render, renderFraction, renderExponent]

theorem isPlain_integerNumeral (n : ℤ) : (integerNumeral n).IsPlain where
  sign := by
    rw [integerNumeral]
    split_ifs
    · exact .inr rfl
    · exact .inl rfl
  whole := Text.allDigits_ofNat _
  front := by
    rcases Nat.eq_zero_or_pos n.natAbs with h | h
    · left
      rw [integerNumeral]
      dsimp only
      rw [h]
      rfl
    · obtain ⟨c, tail, heq, -, hc⟩ := Text.exists_ofNat_eq_cons h
      exact .inr ⟨c, tail, heq, hc⟩
  fraction := by rintro digits ⟨⟩
  exponent := by rintro part ⟨⟩

/-- The numeral of an integer that is not too long is read as the integer. -/
theorem tokenOf_integerNumeral {n : ℤ} (hn : (Text.ofNat n.natAbs).length ≤ digitLimit) :
    tokenOf (integerNumeral n) = .scalar (.int n) := by
  have hvalue : (if (if n < 0 then some (CodePoint.ofChar '-') else none).isSome then
      -(n.natAbs : ℤ) else n.natAbs) = n := by
    by_cases h : n < 0
    · rw [if_pos h, Option.isSome_some, if_pos rfl]
      omega
    · rw [if_neg h, Option.isSome_none, if_neg Bool.false_ne_true]
      omega
  rw [tokenOf]
  simp only [integerNumeral, Option.isNone_none, Bool.and_self, if_true, Text.digitsValue_ofNat]
  rw [if_neg (not_lt.2 hn), hvalue]

end Abacus.Json.Token
