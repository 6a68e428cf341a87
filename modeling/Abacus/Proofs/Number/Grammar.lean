import Mathlib
import Abacus.Proofs.Number.Reading

/-!
# The grammar of numbers

What a number is, without saying how it is read, and that the scan takes numbers and no other texts.

* `Grammar.Sign`, `Grammar.Mantissa`, `Grammar.Exponent`: the parts of a number and what they stand
  for;
* `Grammar.Spells`: the numbers, each with its sign and its value before it is rounded;
* `Grammar.spells_iff_scan`, `Grammar.Spells.unique`: what is scanned whole, and in one way only;
* `Grammar.ofText?_of_spells`: what a number is read as.
-/

namespace Abacus.Number

open Text (AllDigits BeginsWithDigit digitsValue spanDigits)

namespace Grammar

/-! ## The parts of numbers -/

/-- One decimal digit or more. -/
def IsDigits (t : Text) : Prop := t ≠ [] ∧ t.AllDigits

/-- A sign that may be missing, and whether it is a minus. -/
inductive Sign : Text → Bool → Prop
  | missing : Sign [] false
  | plus : Sign [CodePoint.ofChar '+'] false
  | minus : Sign [CodePoint.ofChar '-'] true

/-- The part before the exponent, its digits, and how many of them stand behind the point. -/
inductive Mantissa : Text → Text → ℕ → Prop
  | whole {w : Text} : IsDigits w → Mantissa w w 0
  | pointed {w f : Text} : IsDigits w → f.AllDigits →
      Mantissa (w ++ CodePoint.ofChar '.' :: f) (w ++ f) f.length
  | fraction {f : Text} : IsDigits f → Mantissa (CodePoint.ofChar '.' :: f) f f.length

/-- The exponent part, which may be missing, and the exponent. -/
inductive Exponent : Text → ℤ → Prop
  | missing : Exponent [] 0
  | present {e : CodePoint} {s d : Text} {negative : Bool} :
      e = CodePoint.ofChar 'e' ∨ e = CodePoint.ofChar 'E' → Sign s negative → IsDigits d →
        Exponent (e :: (s ++ d)) (if negative then -(digitsValue d : ℤ) else digitsValue d)

/-- **A number**, whether it has a minus sign, and its value but for the sign. -/
inductive Spells : Text → Bool → ℚ → Prop
  | intro {s m e digits : Text} {negative : Bool} {places : ℕ} {k : ℤ} :
      Sign s negative → Mantissa m digits places → Exponent e k →
        Spells (s ++ (m ++ e)) negative (digitsValue digits * 10 ^ (k - places))

variable {s t u m e f w rest digits : Text} {negative : Bool} {places : ℕ} {k : ℤ} {q : ℚ}

theorem Spells.nonneg (h : Spells t negative q) : 0 ≤ q := by
  cases h
  positivity

/-! ## What a scan takes -/

theorem sign_scanSign (t : Text) :
    ∃ s, t = s ++ (Numeral.scanSign t).2 ∧
      Sign s (decide ((Numeral.scanSign t).1 = some (CodePoint.ofChar '-'))) := by
  cases t with
  | nil => exact ⟨[], rfl, .missing⟩
  | cons c t =>
    rw [Numeral.scanSign]
    split_ifs with hc
    · rw [Bool.or_eq_true, decide_eq_true_eq, decide_eq_true_eq] at hc
      rcases hc with rfl | rfl
      · exact ⟨_, rfl, .plus⟩
      · exact ⟨_, rfl, .minus⟩
    · exact ⟨[], rfl, .missing⟩

theorem spanDigits_eq (t : Text) :
    t = (spanDigits t).1 ++ (spanDigits t).2 ∧ (spanDigits t).1.AllDigits :=
  ⟨List.takeWhile_append_dropWhile.symm, fun _ hc => List.mem_takeWhile_imp hc⟩

theorem scanFraction_eq (t : Text) :
    t = Numeral.renderFraction (Numeral.scanFraction t).1 ++ (Numeral.scanFraction t).2 ∧
      AllDigits ((Numeral.scanFraction t).1.getD []) := by
  cases t with
  | nil => exact ⟨rfl, by simp [AllDigits, Numeral.scanFraction]⟩
  | cons c t =>
    rw [Numeral.scanFraction]
    split_ifs with hc
    · obtain ⟨hspan, hdigits⟩ := spanDigits_eq t
      refine ⟨?_, hdigits⟩
      rw [hc]
      exact congrArg _ hspan
    · exact ⟨rfl, by simp [AllDigits]⟩

theorem exponent_scanExponent (t : Text) (n : Numeral)
    (hn : n.exponent = (Numeral.scanExponent t).1) :
    ∃ e, t = e ++ (Numeral.scanExponent t).2 ∧ Exponent e n.power := by
  have hmissing : n.exponent = none → Exponent [] n.power := by
    intro h
    rw [Numeral.power, h]
    exact .missing
  cases t with
  | nil => exact ⟨[], rfl, hmissing hn⟩
  | cons c t =>
    obtain ⟨s, ht, hs⟩ := sign_scanSign t
    obtain ⟨htail, hdigits⟩ := spanDigits_eq (Numeral.scanSign t).2
    rw [Numeral.scanExponent] at hn ⊢
    dsimp only at hn ⊢
    split_ifs at hn ⊢ with hc hempty
    · exact ⟨[], rfl, hmissing hn⟩
    · rw [Bool.or_eq_true, decide_eq_true_eq, decide_eq_true_eq] at hc
      refine ⟨c :: (s ++ (spanDigits (Numeral.scanSign t).2).1), ?_, ?_⟩
      · rw [List.cons_append, List.append_assoc, ← htail, ← ht]
      · rw [Numeral.power, hn]
        have h := Exponent.present hc hs ⟨by simpa using hempty, hdigits⟩
        simpa using h
    · exact ⟨[], rfl, hmissing hn⟩

theorem mantissa_of_scan {whole : Text} {fraction : Option Text} (hwhole : whole.AllDigits)
    (hfraction : AllDigits (fraction.getD []))
    (hsome : ¬(whole.isEmpty && (fraction.getD []).isEmpty) = true) :
    Mantissa (whole ++ Numeral.renderFraction fraction) (whole ++ fraction.getD [])
      (fraction.getD []).length := by
  cases fraction with
  | none =>
    have hne : whole ≠ [] := by simpa using hsome
    simpa [Numeral.renderFraction] using Mantissa.whole ⟨hne, hwhole⟩
  | some f =>
    by_cases hempty : whole = []
    · subst hempty
      exact .fraction ⟨by simpa using hsome, hfraction⟩
    · exact .pointed ⟨hempty, hwhole⟩ hfraction

/-- **A scan takes a number** from the front of a text. -/
theorem exists_spells_of_scan {n : Numeral} (h : Numeral.scan t = some (n, rest)) :
    ∃ u, t = u ++ rest ∧ Spells u (decide (n.sign = some (CodePoint.ofChar '-'))) n.rational := by
  rw [Numeral.scan] at h
  dsimp only at h
  split_ifs at h with hempty
  rw [Option.some.injEq, Prod.mk.injEq] at h
  obtain ⟨rfl, rfl⟩ := h
  obtain ⟨s, ht, hs⟩ := sign_scanSign t
  obtain ⟨hwhole, hdigits⟩ := spanDigits_eq (Numeral.scanSign t).2
  obtain ⟨hfraction, hplaces⟩ := scanFraction_eq (spanDigits (Numeral.scanSign t).2).2
  obtain ⟨e, he, hexponent⟩ := exponent_scanExponent _ ⟨_, _, _, _⟩ rfl
  refine ⟨_, ?_, .intro hs (mantissa_of_scan hdigits hplaces hempty) hexponent⟩
  rw [List.append_assoc, List.append_assoc, List.append_assoc, ← he, ← hfraction, ← hwhole, ← ht]

/-! ## What is scanned whole -/

theorem IsDigits.exists_cons (h : IsDigits w) : ∃ c rest, w = c :: rest ∧ c.isDigit = true := by
  obtain ⟨c, rest, rfl⟩ := List.exists_cons_of_ne_nil h.1
  exact ⟨c, rest, rfl, h.2 c List.mem_cons_self⟩

theorem not_beginsWithDigit_cons {c : CodePoint} (hc : c.isDigit = false) (t : Text) :
    ¬BeginsWithDigit (c :: t) := by
  rintro ⟨d, ⟨⟩, hd⟩
  rw [hc] at hd
  cases hd

theorem Exponent.not_beginsWithDigit (h : Exponent e k) : ¬BeginsWithDigit e := by
  cases h with
  | missing =>
    rintro ⟨c, ⟨⟩, -⟩
  | present he =>
    rcases he with rfl | rfl
    · exact not_beginsWithDigit_cons rfl _
    · exact not_beginsWithDigit_cons rfl _

/-- A text does not begin with a sign. -/
def Unsigned (t : Text) : Prop :=
  ∀ c ∈ t.head?, c ≠ CodePoint.ofChar '+' ∧ c ≠ CodePoint.ofChar '-'

theorem unsigned_cons {c : CodePoint} (hc : c.isDigit = true ∨ c = CodePoint.ofChar '.')
    (t : Text) :
    Unsigned (c :: t) := by
  rintro d ⟨⟩
  constructor
  · rintro rfl
    exact absurd hc (by decide)
  · rintro rfl
    exact absurd hc (by decide)

theorem IsDigits.unsigned (h : IsDigits w) (t : Text) : Unsigned (w ++ t) := by
  obtain ⟨c, rest, rfl, hc⟩ := h.exists_cons
  exact unsigned_cons (.inl hc) _

theorem Mantissa.unsigned (h : Mantissa m digits places) (t : Text) : Unsigned (m ++ t) := by
  cases h with
  | whole hw => exact hw.unsigned t
  | pointed hw =>
    rw [List.append_assoc]
    exact hw.unsigned _
  | fraction => exact unsigned_cons (.inr rfl) _

theorem scanSign_append (hs : Sign s negative) (ht : Unsigned t) :
    ∃ sign, Numeral.scanSign (s ++ t) = (sign, t) ∧
      decide (sign = some (CodePoint.ofChar '-')) = negative := by
  cases hs with
  | missing =>
    refine ⟨none, ?_, rfl⟩
    cases t with
    | nil => rfl
    | cons c t =>
      obtain ⟨hplus, hminus⟩ := ht c rfl
      simp [Numeral.scanSign, hplus, hminus]
  | plus => exact ⟨_, rfl, rfl⟩
  | minus => exact ⟨_, rfl, rfl⟩

theorem scanExponent_of_exponent (h : Exponent e k) :
    ∃ part, Numeral.scanExponent e = (part, []) ∧
      ∀ n : Numeral, n.exponent = part → n.power = k := by
  cases h with
  | missing => exact ⟨none, rfl, fun n hn => by rw [Numeral.power, hn]⟩
  | @present c s d negative hc hs hd =>
    have hunsigned := hd.unsigned []
    have hspan := Text.spanDigits_append (u := []) hd.2 (by rintro ⟨c, ⟨⟩, -⟩)
    rw [List.append_nil] at hunsigned hspan
    obtain ⟨sign, hsign, hnegative⟩ := scanSign_append hs hunsigned
    have hletter :
        (decide (c = CodePoint.ofChar 'e') || decide (c = CodePoint.ofChar 'E')) = true := by
      simpa using hc
    have hempty : ¬d.isEmpty = true := by simpa using hd.1
    refine ⟨some (sign, d), ?_, fun n hn => ?_⟩
    · rw [Numeral.scanExponent, if_pos hletter, hsign]
      dsimp only
      rw [hspan]
      exact if_neg hempty
    · rw [Numeral.power, hn, ← hnegative]
      simp

theorem scanFraction_of_exponent (h : Exponent e k) : Numeral.scanFraction e = (none, e) := by
  cases h with
  | missing => rfl
  | present he => rcases he with rfl | rfl <;> rfl

/-- The part before the exponent is scanned as its digits before and after the point. -/
theorem scan_mantissa (hm : Mantissa m digits places) (he : Exponent e k) :
    ∃ whole fraction rest, spanDigits (m ++ e) = (whole, rest) ∧
      Numeral.scanFraction rest = (fraction, e) ∧
      ¬(whole.isEmpty && (fraction.getD []).isEmpty) = true ∧
      whole ++ fraction.getD [] = digits ∧ (fraction.getD []).length = places := by
  have hpoint : ∀ f : Text, f.AllDigits →
      ¬BeginsWithDigit (CodePoint.ofChar '.' :: (f ++ e)) ∧
        Numeral.scanFraction (CodePoint.ofChar '.' :: (f ++ e)) = (some f, e) := by
    intro f hf
    refine ⟨not_beginsWithDigit_cons rfl _, ?_⟩
    rw [Numeral.scanFraction, if_pos rfl, Text.spanDigits_append hf he.not_beginsWithDigit]
  cases hm with
  | whole hw =>
    refine ⟨m, none, e, Text.spanDigits_append hw.2 he.not_beginsWithDigit,
      scanFraction_of_exponent he, ?_, List.append_nil m, rfl⟩
    simpa using hw.1
  | @pointed w f hw hf =>
    obtain ⟨hdigit, hscan⟩ := hpoint f hf
    refine ⟨w, some f, _, ?_, hscan, ?_, rfl, rfl⟩
    · rw [List.append_assoc, List.cons_append, Text.spanDigits_append hw.2 hdigit]
    · simpa using fun h => absurd h hw.1
  | fraction hf =>
    obtain ⟨hdigit, hscan⟩ := hpoint digits hf.2
    refine ⟨[], some digits, _, ?_, hscan, ?_, rfl, rfl⟩
    · exact Text.spanDigits_append (t := []) (by simp [AllDigits]) hdigit
    · simpa using hf.1

/-- **A number is scanned whole.** -/
theorem scan_of_spells (h : Spells t negative q) :
    ∃ n, Numeral.scan t = some (n, []) ∧
      decide (n.sign = some (CodePoint.ofChar '-')) = negative ∧ n.rational = q := by
  obtain ⟨hs, hm, he⟩ := h
  obtain ⟨sign, hsign, hnegative⟩ := scanSign_append hs (hm.unsigned _)
  obtain ⟨whole, fraction, rest, hspan, hfraction, hsome, rfl, rfl⟩ := scan_mantissa hm he
  obtain ⟨part, hexponent, hpower⟩ := scanExponent_of_exponent he
  refine ⟨⟨sign, whole, fraction, part⟩, ?_, hnegative, ?_⟩
  · rw [Numeral.scan, hsign]
    dsimp only
    rw [hspan]
    dsimp only
    rw [hfraction]
    dsimp only
    rw [if_neg hsome, hexponent]
  · rw [Numeral.rational, hpower _ rfl]

/-- **The grammar is that of the scan.** -/
theorem spells_iff_scan :
    Spells t negative q ↔ ∃ n, Numeral.scan t = some (n, []) ∧
      decide (n.sign = some (CodePoint.ofChar '-')) = negative ∧ n.rational = q := by
  constructor
  · exact scan_of_spells
  · rintro ⟨n, hn, rfl, rfl⟩
    obtain ⟨u, rfl, hu⟩ := exists_spells_of_scan hn
    rwa [List.append_nil]

/-- A text is a number in one way. -/
theorem Spells.unique {negative' : Bool} {q' : ℚ} (h : Spells t negative q)
    (h' : Spells t negative' q') : negative = negative' ∧ q = q' := by
  obtain ⟨n, hn, rfl, rfl⟩ := spells_iff_scan.1 h
  obtain ⟨n', hn', rfl, rfl⟩ := spells_iff_scan.1 h'
  rw [hn, Option.some.injEq, Prod.mk.injEq] at hn'
  rw [hn'.1]
  exact ⟨rfl, rfl⟩

theorem isNumeral_iff_spells : isNumeral t = true ↔ ∃ negative q, Spells t negative q := by
  rw [isNumeral_iff]
  constructor
  · rintro ⟨n, hn⟩
    exact ⟨_, _, spells_iff_scan.2 ⟨n, hn, rfl, rfl⟩⟩
  · rintro ⟨negative, q, h⟩
    obtain ⟨n, hn, -⟩ := spells_iff_scan.1 h
    exact ⟨n, hn⟩

/-- **A number is read as the double nearest to its value**, with its sign. -/
theorem ofText?_of_spells (h : Spells t negative q) :
    ofText? t = some (ofParts negative (Nearest.bits q)) := by
  obtain ⟨n, hn, rfl, rfl⟩ := spells_iff_scan.1 h
  rw [ofText?, hn]
  exact congrArg some n.value_eq

theorem Spells.isFigure (h : Spells t negative q) : ∀ c ∈ t, Numeral.IsFigure c :=
  isFigure_of_isNumeral (isNumeral_iff_spells.2 ⟨_, _, h⟩)

theorem Spells.ne_nil (h : Spells t negative q) : t ≠ [] := by
  rintro rfl
  obtain ⟨n, hn, -⟩ := spells_iff_scan.1 h
  cases hn

end Grammar

end Abacus.Number
