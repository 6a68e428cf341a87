import Mathlib
import Abacus.Number.Reading
import Abacus.Proofs.Json.Number

/-!
# Reading doubles

The text of a finite double is read as this double, and what is read as a number holds nothing but
figures.

* `Numeral.scan_render`: a plain numeral is scanned whole;
* `isNumeral_text`, `ofText?_text`: so the text of a finite double is a number, and read as the
  double;
* `Numeral.Consumes`: what a scan takes from the front of a text; `Numeral.consumes_of_scan`,
  `isFigure_of_isNumeral`: only figures;
* `ofText?_eq_none`: a text with anything else in it but letters is not read at all.
-/

namespace Abacus.Number

namespace Numeral

/-! ## The text of a numeral -/

/-- **A plain numeral is scanned whole.** -/
theorem scan_render {n : Numeral} (hn : n.IsPlain) : scan n.render = some (n, []) := by
  obtain ⟨sign, whole, fraction, exponent⟩ := n
  obtain ⟨hsign, hwhole, hfront, hfraction, hexponent⟩ := hn
  dsimp only at hsign hwhole hfront hfraction hexponent
  obtain ⟨hdigit, -⟩ :=
    Json.Token.not_beginsWithDigit_renderExponent exponent Json.Token.numberEnds_nil
  have hdigit' := Json.Token.not_beginsWithDigit_renderFraction fraction hdigit
  have hscanExponent := Json.Token.scanExponent_append hexponent Json.Token.numberEnds_nil
  rw [List.append_nil] at hdigit hdigit' hscanExponent
  obtain ⟨c, tail, hcons, hc⟩ : ∃ c tail, whole = c :: tail ∧ c.isDigit = true := by
    rcases hfront with rfl | ⟨c, tail, rfl, -⟩
    · exact ⟨_, _, rfl, rfl⟩
    · exact ⟨c, tail, rfl, hwhole c List.mem_cons_self⟩
  have hscanSign : scanSign (sign.toList ++ (whole ++ (renderFraction fraction ++
      renderExponent exponent))) =
        (sign, whole ++ (renderFraction fraction ++ renderExponent exponent)) := by
    rcases hsign with rfl | rfl
    · have hnot : ¬(decide (c = CodePoint.ofChar '+') || decide (c = CodePoint.ofChar '-')) =
          true := by
        rw [Bool.or_eq_true, decide_eq_true_eq, decide_eq_true_eq]
        rintro (rfl | rfl) <;> exact absurd hc (by decide)
      rw [hcons]
      exact if_neg hnot
    · rfl
  have hspan := Text.spanDigits_append hwhole hdigit'
  have hscanFraction : scanFraction (renderFraction fraction ++ renderExponent exponent) =
      (fraction, renderExponent exponent) := by
    cases fraction with
    | none =>
      cases exponent with
      | none => rfl
      | some part => rfl
    | some digits =>
      rw [renderFraction, List.cons_append, scanFraction, if_pos rfl,
        Text.spanDigits_append (hfraction _ rfl).2 hdigit]
  have hempty : whole.isEmpty = false := by rw [hcons, List.isEmpty_cons]
  rw [render, scan, hscanSign]
  dsimp only
  rw [hspan]
  dsimp only
  rw [hscanFraction]
  dsimp only
  rw [hempty, Bool.false_and, if_neg Bool.false_ne_true, hscanExponent]

/-! ## What a scan takes -/

/-- The code points of numbers: digits, signs, the point and the letter before an exponent. -/
def IsFigure (c : CodePoint) : Prop :=
  c.isDigit = true ∨ c = CodePoint.ofChar '+' ∨ c = CodePoint.ofChar '-' ∨
    c = CodePoint.ofChar '.' ∨ c = CodePoint.ofChar 'e' ∨ c = CodePoint.ofChar 'E'

/-- What stands before the rest of a text are figures. -/
def Consumes (t rest : Text) : Prop := ∃ u, t = u ++ rest ∧ ∀ c ∈ u, IsFigure c

variable {t u rest : Text}

theorem Consumes.refl (t : Text) : Consumes t t := ⟨[], rfl, by simp⟩

theorem Consumes.trans (htu : Consumes t u) (hu : Consumes u rest) : Consumes t rest := by
  obtain ⟨v, rfl, hv⟩ := htu
  obtain ⟨w, rfl, hw⟩ := hu
  refine ⟨v ++ w, (List.append_assoc _ _ _).symm, fun c hc => ?_⟩
  exact (List.mem_append.1 hc).elim (hv c) (hw c)

theorem Consumes.cons {c : CodePoint} (hc : IsFigure c) (h : Consumes t rest) :
    Consumes (c :: t) rest :=
  Consumes.trans ⟨[c], rfl, by simpa using hc⟩ h

theorem consumes_scanSign (t : Text) : Consumes t (scanSign t).2 := by
  cases t with
  | nil => exact .refl _
  | cons c t =>
    rw [scanSign]
    split_ifs with hc
    · rw [Bool.or_eq_true, decide_eq_true_eq, decide_eq_true_eq] at hc
      exact .cons (hc.elim (.inr ∘ .inl) (.inr ∘ .inr ∘ .inl)) (.refl t)
    · exact .refl _

theorem consumes_spanDigits (t : Text) : Consumes t (Text.spanDigits t).2 :=
  ⟨(Text.spanDigits t).1, (List.takeWhile_append_dropWhile).symm,
    fun _ hc => .inl (List.mem_takeWhile_imp hc)⟩

theorem consumes_scanFraction (t : Text) : Consumes t (scanFraction t).2 := by
  cases t with
  | nil => exact .refl _
  | cons c t =>
    rw [scanFraction]
    split_ifs with hc
    · exact .cons (.inr (.inr (.inr (.inl hc)))) (consumes_spanDigits t)
    · exact .refl _

theorem consumes_scanExponent (t : Text) : Consumes t (scanExponent t).2 := by
  cases t with
  | nil => exact .refl _
  | cons c t =>
    rw [scanExponent]
    dsimp only
    split_ifs with hc hempty
    · exact .refl _
    · rw [Bool.or_eq_true, decide_eq_true_eq, decide_eq_true_eq] at hc
      have hfigure : IsFigure c := .inr (.inr (.inr (.inr hc)))
      exact .cons hfigure ((consumes_scanSign t).trans (consumes_spanDigits _))
    · exact .refl _

/-- **A scan takes figures only.** -/
theorem consumes_of_scan {n : Numeral} (h : scan t = some (n, rest)) : Consumes t rest := by
  rw [scan] at h
  dsimp only at h
  split_ifs at h with hempty
  cases h
  exact (((consumes_scanSign t).trans (consumes_spanDigits _)).trans
    (consumes_scanFraction _)).trans (consumes_scanExponent _)

end Numeral

open Numeral (IsFigure)

/-! ## Whole texts -/

theorem isNumeral_iff {t : Text} : isNumeral t = true ↔ ∃ n, Numeral.scan t = some (n, []) := by
  rw [isNumeral]
  constructor
  · intro h
    split at h
    · exact ⟨_, ‹_›⟩
    · cases h
  · rintro ⟨n, hn⟩
    rw [hn]

/-- A number holds figures only. -/
theorem isFigure_of_isNumeral {t : Text} (h : isNumeral t = true) : ∀ c ∈ t, IsFigure c := by
  obtain ⟨n, hn⟩ := isNumeral_iff.1 h
  obtain ⟨u, rfl, hu⟩ := Numeral.consumes_of_scan hn
  rwa [List.append_nil]

/-- A number is read. -/
theorem exists_ofText?_of_isNumeral {t : Text} (h : isNumeral t = true) :
    ∃ x, ofText? t = some x := by
  obtain ⟨n, hn⟩ := isNumeral_iff.1 h
  exact ⟨n.value, by rw [ofText?, hn]⟩

/-- **The text of a finite double is a number.** -/
theorem isNumeral_text {x : Float} (hx : x.isFinite = true) : isNumeral (text x) = true :=
  isNumeral_iff.2 ⟨_, by rw [text_eq_render hx, Numeral.scan_render (isPlain_numeral hx)]⟩

/-- **The text of a finite double is read as this double.** -/
theorem ofText?_text {x : Float} (hx : x.isFinite = true) : ofText? (text x) = some x := by
  rw [ofText?, text_eq_render hx, Numeral.scan_render (isPlain_numeral hx)]
  exact congrArg some (value_numeral hx)

/-- The small letters of the words that are read as doubles. -/
def wordLetters : Text := "infinityna"

theorem ofWord?_eq_none {t : Text} {c : CodePoint} (hc : c ∈ t) (hplus : c ≠ CodePoint.ofChar '+')
    (hminus : c ≠ CodePoint.ofChar '-') (hword : c.asciiLower ∉ wordLetters) :
    ofWord? t = none := by
  have hmem : c ∈ (Numeral.scanSign t).2 := by
    obtain ⟨d, t, rfl⟩ := List.exists_cons_of_ne_nil (List.ne_nil_of_mem hc)
    rw [Numeral.scanSign]
    split_ifs with hd
    · rw [Bool.or_eq_true, decide_eq_true_eq, decide_eq_true_eq] at hd
      rcases List.mem_cons.1 hc with rfl | hc
      · exact absurd hd (not_or.2 ⟨hplus, hminus⟩)
      · exact hc
    · exact hc
  have hlower : c.asciiLower ∈ (Numeral.scanSign t).2.asciiLower := List.mem_map_of_mem hmem
  have hne : ∀ word : Text, word.all (decide <| · ∈ wordLetters) = true →
      (Numeral.scanSign t).2.asciiLower ≠ word := by
    rintro word hletters rfl
    exact hword (of_decide_eq_true (List.all_eq_true.1 hletters _ hlower))
  rw [ofWord?]
  dsimp only
  rw [decide_eq_false (hne "inf" (by decide)), decide_eq_false (hne "infinity" (by decide)),
    if_neg (by simp), if_neg (hne "nan" (by decide))]

/-- **A text is not read** if it holds anything but figures and the letters of words. -/
theorem ofText?_eq_none {t : Text} {c : CodePoint} (hc : c ∈ t) (hfigure : ¬IsFigure c)
    (hword : c.asciiLower ∉ wordLetters) : ofText? t = none := by
  have hscan : ∀ n, Numeral.scan t ≠ some (n, []) := by
    intro n hn
    exact hfigure (isFigure_of_isNumeral (isNumeral_iff.2 ⟨n, hn⟩) c hc)
  have hplus : c ≠ CodePoint.ofChar '+' := fun h => hfigure (.inr (.inl h))
  have hminus : c ≠ CodePoint.ofChar '-' := fun h => hfigure (.inr (.inr (.inl h)))
  rw [ofText?]
  split
  · exact absurd ‹_› (hscan _)
  · exact ofWord?_eq_none hc hplus hminus hword

end Abacus.Number
