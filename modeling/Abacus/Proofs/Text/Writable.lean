import Mathlib
import Abacus.Proofs.Text.Cutting
import Abacus.Text.Numeral
import Abacus.Text.Utf8

/-!
# Texts without surrogates

Only a text without surrogates can be written as UTF-8.

* `Text.Writable`: no code point of a text is a surrogate; `Utf8.encode?_eq_some` says what for;
* `writable_ofString`, `writable_ofNat`, `writable_ofInt`: what is made of characters;
* `writable_normalizeNewlines`, `writable_of_mem_entries`: the lines of a text that can be written.
-/

namespace Abacus

namespace Text

/-- No code point of a text is a surrogate. -/
def Writable (t : Text) : Prop := ∀ c ∈ t, c.isSurrogate = false

theorem writable_nil : Writable [] := fun _ h => absurd h List.not_mem_nil

variable {t u : Text}

theorem Writable.append (ht : t.Writable) (hu : u.Writable) : Writable (t ++ u) := by
  intro c hc
  rcases List.mem_append.1 hc with hc | hc
  · exact ht c hc
  · exact hu c hc

theorem Writable.any_eq_false (ht : t.Writable) : t.any CodePoint.isSurrogate = false := by
  rw [List.any_eq_false]
  intro c hc
  rw [ht c hc]
  exact Bool.false_ne_true

theorem any_eq_true_iff : t.any CodePoint.isSurrogate = true ↔ ¬ t.Writable := by
  simp only [Writable, List.any_eq_true, not_forall, Bool.not_eq_false, exists_prop]

theorem writable_cons {c : CodePoint} (hc : c.isSurrogate = false) (ht : t.Writable) :
    Writable (c :: t) := by
  intro d hd
  rcases List.mem_cons.1 hd with rfl | hd
  · exact hc
  · exact ht d hd

theorem writable_flatMap {f : CodePoint → Text} (h : ∀ c ∈ t, (f c).Writable) :
    Writable (t.flatMap f) := by
  intro d hd
  obtain ⟨c, hc, hd⟩ := List.mem_flatMap.1 hd
  exact h c hc d hd

/-- A character is no surrogate. -/
theorem isSurrogate_ofChar (c : Char) : (CodePoint.ofChar c).isSurrogate = false := by
  have h := c.valid
  simp only [UInt32.isValidChar, Nat.isValidChar] at h
  rw [CodePoint.isSurrogate, ← Bool.not_eq_true, Bool.and_eq_true, decide_eq_true_eq,
    decide_eq_true_eq]
  simp only [CodePoint.ofChar, Char.toNat]
  omega

theorem writable_ofString (s : String) : (ofString s).Writable := by
  intro c hc
  obtain ⟨d, -, rfl⟩ := List.mem_map.1 hc
  exact isSurrogate_ofChar d

theorem writable_ofNat (n : ℕ) : (ofNat n).Writable := writable_ofString _

theorem writable_ofInt (n : ℤ) : (ofInt n).Writable := by
  cases n with
  | ofNat n => exact writable_ofNat n
  | negSucc n => exact writable_cons (isSurrogate_ofChar _) (writable_ofNat _)

theorem isSurrogate_ofDigit : ∀ n < 16, (CodePoint.ofDigit n).isSurrogate = false := by decide

theorem writable_ofHex (width n : ℕ) : (ofHex width n).Writable := by
  intro c hc
  obtain ⟨i, -, rfl⟩ := List.mem_map.1 hc
  exact isSurrogate_ofDigit _ (Nat.mod_lt _ (by decide))

/-! ## Lines -/

theorem writable_normalizeNewlines (ht : t.Writable) : (normalizeNewlines t).Writable := by
  intro c hc
  rcases mem_normalizeNewlines hc with hc | rfl
  · exact ht c hc
  · exact isSurrogate_ofChar '\n'

theorem writable_of_mem_entries (ht : t.Writable) {line : Text} (hline : line ∈ t.entries) :
    line.Writable := by
  intro c hc
  rcases mem_of_mem_entries hline hc with hc | rfl
  · exact ht c hc
  · exact isSurrogate_ofChar '\n'

end Text

/-- **A text without surrogates can be written.** -/
theorem Utf8.encode?_eq_some {t : Text} (ht : t.Writable) :
    Utf8.encode? t = some (Utf8.encodeLone t) := by
  rw [Utf8.encode?, ht.any_eq_false, if_neg Bool.false_ne_true]

end Abacus
