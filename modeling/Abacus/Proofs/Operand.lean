import Mathlib
import Abacus.Operand
import Abacus.Proofs.Number.Reading
import Abacus.Proofs.Outcome
import Abacus.Proofs.Text.Cutting

/-!
# Reading operands

The check of an operand trims more than its conversion does: the four separators U+001C to U+001F
are blank and no padding. An operand with a separator about its number passes the check and cannot
be converted. All other operands are read as what their number writes, or are invalid.

* `CodePoint.IsSeparator`: the code points in which the two kinds of blanks differ;
* `Operand.convert_cases`, `Operand.convert_eq_ok_iff`: what becomes of an operand that passes the
  check;
* `Operand.Gives`, `Operand.parse_eq_ok_iff`: the operands that are read, and as what;
* `Operand.Stumbles`, `Operand.exists_unreadable_iff`: the operands that pass the check in vain;
* `Operand.parse_cases`, `Operand.exists_ok_or_invalid_iff`: there are no others but invalid ones.
-/

namespace Abacus

namespace CodePoint

variable {c : CodePoint}

/-- One of the four separators of ASCII, which are blank and may not stand around a number. -/
def IsSeparator (c : CodePoint) : Prop := 0x1C ≤ c.val ∧ c.val ≤ 0x1F

theorem isPadding_of_isSeparator (h : c.IsSeparator) : c.isPadding = false := by
  simp [isPadding, h.1, h.2]

/-- The two kinds of blanks differ in the separators only. -/
theorem isPadding_of_not_isSeparator (h : ¬c.IsSeparator) : c.isPadding = c.isBlank := by
  have hrange : (decide (0x1C ≤ c.val) && decide (c.val ≤ 0x1F)) = false := by
    rw [← Bool.not_eq_true, Bool.and_eq_true, decide_eq_true_eq, decide_eq_true_eq]
    exact h
  rw [isPadding, hrange, Bool.not_false, Bool.and_true]

/-- A figure is not blank. -/
theorem isBlank_of_isFigure (h : Number.Numeral.IsFigure c) : c.isBlank = false := by
  rcases h with h | rfl | rfl | rfl | rfl | rfl
  · rw [isDigit, Bool.and_eq_true, decide_eq_true_eq, decide_eq_true_eq] at h
    simp only [isBlank, blanks, List.any_cons, List.any_nil, ← Bool.not_eq_true, Bool.and_eq_true,
      Bool.or_eq_true, decide_eq_true_eq, Bool.false_eq_true, or_false]
    omega
  all_goals decide

theorem not_isFigure_of_isSeparator (h : c.IsSeparator) : ¬Number.Numeral.IsFigure c := by
  unfold IsSeparator at h
  rintro (hc | rfl | rfl | rfl | rfl | rfl)
  · rw [isDigit, Bool.and_eq_true, decide_eq_true_eq, decide_eq_true_eq] at hc
    omega
  all_goals exact absurd h (by decide)

theorem asciiLower_of_isSeparator (h : c.IsSeparator) : c.asciiLower ∉ Number.wordLetters := by
  have hletters : Number.wordLetters.all (fun d => 0x61 ≤ d.val) = true := by decide
  unfold IsSeparator at h
  have hcapital : ¬(decide (0x41 ≤ c.val) && decide (c.val ≤ 0x5A)) = true := by
    rw [Bool.and_eq_true, decide_eq_true_eq, decide_eq_true_eq]
    omega
  rw [asciiLower, if_neg hcapital]
  intro hmem
  have := of_decide_eq_true (List.all_eq_true.1 hletters c hmem)
  omega

end CodePoint

namespace Operand

open Number (isNumeral ofText?)

variable {t u : Text} {v v1 v2 : Option Text} {x y : Float}

/-- The two ways to trim agree on a text without separators. -/
theorem trimPadding_eq_trim (h : ∀ c ∈ t, ¬c.IsSeparator) : t.trimPadding = t.trim :=
  Text.trimWith_congr fun c hc => CodePoint.isPadding_of_not_isSeparator (h c hc)

/-- **A text that passes the check** is converted to what its number writes if there is no separator
in it, and otherwise not at all. -/
theorem convert_cases (ht : isNumeral t.trim = true) :
    (∃ x, convert t = .ok x ∧ ofText? t.trim = some x ∧ ∀ c ∈ t, ¬c.IsSeparator) ∨
      convert t = .error (.unreadable t) ∧ ∃ c ∈ t, c.IsSeparator := by
  unfold convert
  by_cases h : ∃ c ∈ t, c.IsSeparator
  · right
    refine ⟨?_, h⟩
    obtain ⟨c, hc, hseparator⟩ := h
    have hmem : c ∈ t.trimPadding :=
      Text.mem_trimWith hc (CodePoint.isPadding_of_isSeparator hseparator)
    rw [Number.ofText?_eq_none hmem (CodePoint.not_isFigure_of_isSeparator hseparator)
      (CodePoint.asciiLower_of_isSeparator hseparator)]
  · left
    push Not at h
    obtain ⟨x, hx⟩ := Number.exists_ofText?_of_isNumeral ht
    refine ⟨x, ?_, hx, h⟩
    rw [trimPadding_eq_trim h, hx]

/-- What an operand that passes the check is converted to. -/
theorem convert_eq_ok_iff (ht : isNumeral t.trim = true) :
    convert t = .ok x ↔ (∀ c ∈ t, ¬c.IsSeparator) ∧ ofText? t.trim = some x := by
  obtain ⟨y, hy, hread, hclean⟩ | ⟨herror, c, hc, hseparator⟩ := convert_cases ht
  · rw [hy, hread, Except.ok.injEq, Option.some.injEq, and_iff_right hclean]
  · rw [herror]
    exact iff_of_false (by rintro ⟨⟩) fun h => h.1 c hc hseparator

theorem isWellFormed_iff : isWellFormed v = true ↔ ∃ t, v = some t ∧ isNumeral t.trim = true := by
  unfold isWellFormed
  cases v <;> simp

theorem parse_of_not_isWellFormed (h : ¬(isWellFormed v1 && isWellFormed v2) = true) :
    parse v1 v2 = .error .invalid := by
  unfold parse
  rw [if_neg h]
  rfl

/-- Two texts that pass the check are converted one after the other. -/
theorem parse_of_isNumeral (ht : isNumeral t.trim = true) (hu : isNumeral u.trim = true) :
    parse (some t) (some u) = convert t >>= fun x => convert u >>= fun y =>
      if x.isFinite && y.isFinite then .ok (x, y) else .error .invalid := by
  unfold parse
  rw [isWellFormed_iff.2 ⟨t, rfl, ht⟩, isWellFormed_iff.2 ⟨u, rfl, hu⟩]
  rfl

/-! ## The operands that are read -/

/-- An operand is there, holds no separator, and is a number once trimmed, which writes a finite
double. -/
def Gives (v : Option Text) (x : Float) : Prop :=
  ∃ t, v = some t ∧ (∀ c ∈ t, ¬c.IsSeparator) ∧ isNumeral t.trim = true ∧
    ofText? t.trim = some x ∧ x.isFinite = true

/-- Two operands are there and are numbers once trimmed, and there is a separator in one of them. -/
def Stumbles (v1 v2 : Option Text) : Prop :=
  ∃ t u, v1 = some t ∧ v2 = some u ∧ isNumeral t.trim = true ∧ isNumeral u.trim = true ∧
    ∃ c ∈ t ++ u, c.IsSeparator

theorem Gives.isFinite (h : Gives v x) : x.isFinite = true := by
  obtain ⟨t, -, -, -, -, hx⟩ := h
  exact hx

/-- **What the operands are read as.** -/
theorem parse_eq_ok_iff : parse v1 v2 = .ok (x, y) ↔ Gives v1 x ∧ Gives v2 y := by
  constructor
  · intro h
    by_cases hformed : (isWellFormed v1 && isWellFormed v2) = true
    · rw [Bool.and_eq_true, isWellFormed_iff, isWellFormed_iff] at hformed
      obtain ⟨⟨t, rfl, ht⟩, u, rfl, hu⟩ := hformed
      rw [parse_of_isNumeral ht hu] at h
      obtain ⟨a, ha, h⟩ := bind_eq_ok_iff.1 h
      obtain ⟨b, hb, h⟩ := bind_eq_ok_iff.1 h
      split_ifs at h with hfinite
      cases h
      rw [Bool.and_eq_true] at hfinite
      obtain ⟨htclean, hx⟩ := (convert_eq_ok_iff ht).1 ha
      obtain ⟨huclean, hy⟩ := (convert_eq_ok_iff hu).1 hb
      exact ⟨⟨t, rfl, htclean, ht, hx, hfinite.1⟩, u, rfl, huclean, hu, hy, hfinite.2⟩
    · rw [parse_of_not_isWellFormed hformed] at h
      cases h
  · rintro ⟨⟨t, rfl, htclean, ht, hx, hxfinite⟩, u, rfl, huclean, hu, hy, hyfinite⟩
    rw [parse_of_isNumeral ht hu, (convert_eq_ok_iff ht).2 ⟨htclean, hx⟩,
      (convert_eq_ok_iff hu).2 ⟨huclean, hy⟩]
    show (if x.isFinite && y.isFinite then _ else _) = _
    rw [hxfinite, hyfinite]
    rfl

/-- **The conversion fails after the check** exactly for the operands that stumble. -/
theorem exists_unreadable_iff : (∃ t, parse v1 v2 = .error (.unreadable t)) ↔ Stumbles v1 v2 := by
  by_cases hformed : (isWellFormed v1 && isWellFormed v2) = true
  · rw [Bool.and_eq_true, isWellFormed_iff, isWellFormed_iff] at hformed
    obtain ⟨⟨t, rfl, ht⟩, u, rfl, hu⟩ := hformed
    rw [parse_of_isNumeral ht hu]
    obtain ⟨x, hx, -, htclean⟩ | ⟨hx, c, hc, hseparator⟩ := convert_cases ht
    · obtain ⟨y, hy, -, huclean⟩ | ⟨hy, c, hc, hseparator⟩ := convert_cases hu
      · refine iff_of_false ?_ ?_
        · rintro ⟨w, hw⟩
          rw [hx, hy] at hw
          change (if x.isFinite && y.isFinite then _ else _) = _ at hw
          split_ifs at hw
          cases hw
        · rintro ⟨t', u', ⟨⟩, ⟨⟩, -, -, c, hc, hseparator⟩
          rcases List.mem_append.1 hc with hc | hc
          · exact htclean c hc hseparator
          · exact huclean c hc hseparator
      · refine iff_of_true ⟨u, ?_⟩ ?_
        · rw [hx, hy]
          rfl
        · exact ⟨t, u, rfl, rfl, ht, hu, c, List.mem_append_right t hc, hseparator⟩
    · refine iff_of_true ⟨t, ?_⟩ ?_
      · rw [hx]
        rfl
      · exact ⟨t, u, rfl, rfl, ht, hu, c, List.mem_append_left u hc, hseparator⟩
  · rw [parse_of_not_isWellFormed hformed]
    refine iff_of_false ?_ ?_
    · rintro ⟨t, ⟨⟩⟩
    · rintro ⟨t, u, rfl, rfl, ht, hu, -⟩
      apply hformed
      rw [isWellFormed_iff.2 ⟨t, rfl, ht⟩, isWellFormed_iff.2 ⟨u, rfl, hu⟩]
      rfl

/-- **Two operands are read, or invalid, or they stumble.** -/
theorem parse_cases (v1 v2 : Option Text) :
    (∃ x y, parse v1 v2 = .ok (x, y) ∧ Gives v1 x ∧ Gives v2 y ∧ ¬Stumbles v1 v2) ∨
      (parse v1 v2 = .error .invalid ∧ ¬Stumbles v1 v2) ∨
      ∃ t, parse v1 v2 = .error (.unreadable t) ∧ Stumbles v1 v2 := by
  rw [← exists_unreadable_iff]
  cases h : parse v1 v2 with
  | ok operands =>
    obtain ⟨hx, hy⟩ := parse_eq_ok_iff.1 h
    exact .inl ⟨_, _, rfl, hx, hy, by simp⟩
  | error e =>
    cases e with
    | invalid => exact .inr (.inl ⟨rfl, by simp⟩)
    | unreadable t => exact .inr (.inr ⟨t, rfl, t, rfl⟩)

/-- Two operands are read or found invalid unless they stumble. -/
theorem exists_ok_or_invalid_iff :
    (∃ x y, parse v1 v2 = .ok (x, y) ∧ x.isFinite = true ∧ y.isFinite = true) ∨
      parse v1 v2 = .error .invalid ↔ ¬Stumbles v1 v2 := by
  obtain ⟨x, y, h, hx, hy, hclean⟩ | ⟨h, hclean⟩ | ⟨t, h, hstumbles⟩ := parse_cases v1 v2
  · exact iff_of_true (.inl ⟨x, y, h, hx.isFinite, hy.isFinite⟩) hclean
  · exact iff_of_true (.inr h) hclean
  · refine iff_of_false ?_ (not_not_intro hstumbles)
    rw [h]
    rintro (⟨x, y, hparse, -⟩ | hparse)
    · cases hparse
    · cases hparse

end Operand

end Abacus
