import Mathlib
import Abacus.Proofs.Number.Grammar
import Abacus.Proofs.Number.Nearest
import Abacus.Proofs.Operand

/-!
# The notation of operands

The check of an operand, its conversion and the bound on its value together accept one notation: a
number with whitespace about it, whose value is rounded to a finite double.

* `CodePoint.whitespace`: the code points that may stand about a number, one by one;
* `Operand.Denotes`: the texts that are numbers with whitespace about them, and their values;
* `Operand.Writes`: the notation, and the double that an operand stands for in it;
* `Operand.parse_eq_ok_iff_writes`: the operands that are read are those in the notation;
* `Operand.IsExcluded`: what the notation excludes.
-/

namespace Abacus

namespace CodePoint

/-- The whitespace of Unicode. -/
def whitespace : List ℕ :=
  [0x9, 0xA, 0xB, 0xC, 0xD, 0x20, 0x85, 0xA0, 0x1680, 0x2000, 0x2001, 0x2002, 0x2003, 0x2004,
    0x2005, 0x2006, 0x2007, 0x2008, 0x2009, 0x200A, 0x2028, 0x2029, 0x202F, 0x205F, 0x3000]

/-- A code point is whitespace. -/
def IsWhitespace (c : CodePoint) : Prop := c.val ∈ whitespace

variable {c : CodePoint}

/-- **What may stand about a number** is whitespace. -/
theorem isPadding_iff : c.isPadding = true ↔ c.IsWhitespace := by
  simp only [isPadding, isBlank, blanks, IsWhitespace, whitespace, List.any_cons, List.any_nil,
    List.mem_cons, List.not_mem_nil, Bool.and_eq_true, Bool.or_eq_true, Bool.not_eq_true',
    decide_eq_true_eq, Bool.and_eq_false_iff, decide_eq_false_iff_not, Bool.false_eq_true, or_false]
  omega

theorem isBlank_of_isWhitespace (h : c.IsWhitespace) : c.isBlank = true :=
  (Bool.and_eq_true_iff.1 (isPadding_iff.2 h)).1

theorem not_isSeparator_of_isWhitespace (h : c.IsWhitespace) : ¬c.IsSeparator := by
  intro hseparator
  have := isPadding_of_isSeparator hseparator
  rw [isPadding_iff.2 h] at this
  cases this

theorem isWhitespace_of_isBlank (hblank : c.isBlank = true) (h : ¬c.IsSeparator) :
    c.IsWhitespace := by
  rw [← isPadding_iff, isPadding_of_not_isSeparator h]
  exact hblank

end CodePoint

namespace Operand

open Number (IsRounded)
open Number.Grammar (Spells)
open Number.Numeral (IsFigure)

variable {v v1 v2 : Option Text} {t w n w' : Text} {x y : Float} {negative negative' : Bool}
  {q q' : ℚ}

/-! ## Numbers with whitespace about them -/

/-- A text is a number with whitespace about it, of a given sign and value. -/
def Denotes (t : Text) (negative : Bool) (q : ℚ) : Prop :=
  ∃ w n w', t = w ++ n ++ w' ∧ (∀ c ∈ w ++ w', c.IsWhitespace) ∧ Spells n negative q

/-- The number is what is left when the blanks at the ends are trimmed. -/
theorem Denotes.spells_trim (h : Denotes t negative q) : Spells t.trim negative q := by
  obtain ⟨w, n, w', rfl, hw, hn⟩ := h
  have hblank : ∀ c ∈ w ++ w', c.isBlank = true := fun c hc =>
    CodePoint.isBlank_of_isWhitespace (hw c hc)
  have htrim : Text.trim (w ++ n ++ w') = n :=
    Text.trimWith_append (fun c hc => hblank c (List.mem_append_left w' hc))
      (fun c hc => hblank c (List.mem_append_right w hc)) hn.ne_nil
      fun c hc => CodePoint.isBlank_of_isFigure (hn.isFigure c hc)
  rwa [htrim]

theorem Denotes.isFigure (h : Denotes t negative q) : ∀ c ∈ t, c.IsWhitespace ∨ IsFigure c := by
  obtain ⟨w, n, w', rfl, hw, hn⟩ := h
  intro c hc
  simp only [List.mem_append] at hc hw
  rcases hc with (hc | hc) | hc
  · exact .inl (hw c (.inl hc))
  · exact .inr (hn.isFigure c hc)
  · exact .inl (hw c (.inr hc))

theorem Denotes.not_isSeparator (h : Denotes t negative q) : ∀ c ∈ t, ¬c.IsSeparator := by
  intro c hc hseparator
  rcases h.isFigure c hc with hspace | hfigure
  · exact CodePoint.not_isSeparator_of_isWhitespace hspace hseparator
  · exact CodePoint.not_isFigure_of_isSeparator hseparator hfigure

/-- What is a number once trimmed, without separators, has nothing but whitespace about it. -/
theorem denotes_of_spells_trim (h : Spells t.trim negative q) (hclean : ∀ c ∈ t, ¬c.IsSeparator) :
    Denotes t negative q := by
  obtain ⟨w, w', heq, hw, hw'⟩ := Text.exists_eq_trimWith CodePoint.isBlank t
  refine ⟨w, t.trim, w', heq, fun c hc => ?_, h⟩
  have hmem : c ∈ t := by
    rw [heq, List.append_assoc, List.mem_append, List.mem_append]
    exact (List.mem_append.1 hc).imp_right .inr
  refine CodePoint.isWhitespace_of_isBlank ?_ (hclean c hmem)
  exact (List.mem_append.1 hc).elim (hw c) (hw' c)

/-- A text denotes one value. -/
theorem Denotes.unique (h : Denotes t negative q) (h' : Denotes t negative' q') :
    negative = negative' ∧ q = q' :=
  h.spells_trim.unique h'.spells_trim

/-! ## Operands -/

/-- **The notation of operands**: a text is there, it is a number with whitespace about it, and its
value is rounded to a finite double. -/
def Writes (v : Option Text) (x : Float) : Prop :=
  ∃ t negative q, v = some t ∧ Denotes t negative q ∧ IsRounded negative q x

/-- **The operands that are read** are those in the notation. -/
theorem gives_iff_writes : Gives v x ↔ Writes v x := by
  constructor
  · rintro ⟨t, rfl, hclean, ht, hx, hfinite⟩
    obtain ⟨negative, q, hn⟩ := Number.Grammar.isNumeral_iff_spells.1 ht
    rw [Number.Grammar.ofText?_of_spells hn, Option.some.injEq] at hx
    exact ⟨t, negative, q, rfl, denotes_of_spells_trim hn hclean,
      (Number.isRounded_iff hn.nonneg).2 ⟨hx, hfinite⟩⟩
  · rintro ⟨t, negative, q, rfl, ht, hx⟩
    have hn := ht.spells_trim
    obtain ⟨hvalue, hfinite⟩ := (Number.isRounded_iff hn.nonneg).1 hx
    refine ⟨t, rfl, ht.not_isSeparator, Number.Grammar.isNumeral_iff_spells.2 ⟨_, _, hn⟩, ?_,
      hfinite⟩
    rw [Number.Grammar.ofText?_of_spells hn, hvalue]

/-- A text is not in the notation: it holds something else than whitespace and the figures of
numbers, or its value is out of the range of the doubles. -/
def IsExcluded (t : Text) : Prop :=
  (∃ c ∈ t, ¬c.IsWhitespace ∧ ¬IsFigure c) ∨
    ∃ negative q, Denotes t negative q ∧ 2 ^ (1024 : ℤ) - 2 ^ (970 : ℤ) ≤ q

theorem Writes.not_isExcluded (h : Writes (some t) x) : ¬IsExcluded t := by
  obtain ⟨u, negative, q, heq, ht, hx⟩ := h
  obtain rfl := Option.some.inj heq
  rintro (⟨c, hc, hspace, hfigure⟩ | ⟨negative', q', ht', hq⟩)
  · exact (ht.isFigure c hc).elim hspace hfigure
  · obtain ⟨-, rfl⟩ := ht.unique ht'
    exact hq.not_gt hx.lt_range

/-- **Two operands are read as two doubles** exactly if both are there and write these doubles in
the notation. -/
theorem parse_eq_ok_iff_writes (v1 v2 : Option Text) :
    (∀ x y, parse v1 v2 = .ok (x, y) ↔ Writes v1 x ∧ Writes v2 y) ∧
      ∀ t, v1 = some t ∨ v2 = some t → IsExcluded t → ∀ x y, parse v1 v2 ≠ .ok (x, y) := by
  have hwrites : ∀ x y, parse v1 v2 = .ok (x, y) ↔ Writes v1 x ∧ Writes v2 y := by
    intro x y
    rw [parse_eq_ok_iff, gives_iff_writes, gives_iff_writes]
  refine ⟨hwrites, fun t ht hexcluded x y hparse => ?_⟩
  obtain ⟨hx, hy⟩ := (hwrites x y).1 hparse
  rcases ht with rfl | rfl
  · exact hx.not_isExcluded hexcluded
  · exact hy.not_isExcluded hexcluded

/-- Whitespace about a number does no harm, and grouping its digits does. -/
theorem writes_padded_and_not_grouped :
    Writes (some " -.5E+1\u3000") (-5) ∧ Writes (some "2.") 2 ∧
      IsExcluded "1_0" ∧ ∀ x y, parse (some "1_0") (some "2.") ≠ .ok (x, y) := by
  have hread : parse (some " -.5E+1\u3000") (some "2.") = .ok (-5, 2) := by decide +kernel
  have hexcluded : IsExcluded "1_0" := by
    refine .inl ⟨CodePoint.ofChar '_', by decide, ?_, ?_⟩
    · unfold CodePoint.IsWhitespace
      decide
    · unfold IsFigure
      decide
  obtain ⟨hfirst, hsecond⟩ := ((parse_eq_ok_iff_writes _ _).1 _ _).1 hread
  exact ⟨hfirst, hsecond, hexcluded, (parse_eq_ok_iff_writes _ _).2 _ (.inl rfl) hexcluded⟩

end Operand

end Abacus
