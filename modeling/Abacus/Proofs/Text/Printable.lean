import Mathlib
import Abacus.Number.Notation
import Abacus.Proofs.Text.Numeral
import Abacus.Proofs.Text.Writable
import Abacus.Text.Quoted

/-!
# Printable texts

What is shown in a message is printable, whatever it is made of. So it can be written, and stays on
one line: neither a surrogate nor a code point that ends a line is printable.

* `Text.Printable`, `Text.SingleLine`: texts of printable code points, and texts on one line;
  `Printable.writable`, `Printable.singleLine`: the first are both on one line and without
  surrogates;
* `printable_ofString`, `printable_ofNat`, `printable_ofInt`, `printable_ofHex`: what is printable;
* `Number.printable_text`: the text of a double, finite or not;
* `Quoted.printable_quote`: the quoted form of any text.
-/

namespace Abacus

namespace CodePoint

variable {c : CodePoint}

/-- A printable code point lies in none of the ranges of those that are not. -/
theorem not_mem_range_of_isPrintable (h : c.isPrintable = true) {r : ℕ × ℕ}
    (hr : r ∈ unprintable) : ¬(r.1 ≤ c.val ∧ c.val ≤ r.2) := by
  rw [isPrintable, Bool.not_eq_true', List.any_eq_false] at h
  simpa only [Bool.and_eq_true, decide_eq_true_eq] using h r hr

/-- From the space to the tilde all code points are printable: the ranges of the others but the
first lie above. -/
theorem isPrintable_of_ascii (hlow : 0x20 ≤ c.val) (hhigh : c.val < 0x7F) :
    c.isPrintable = true := by
  have hranges : ∀ r ∈ unprintable, r.2 < 0x20 ∨ 0x7F ≤ r.1 := by decide +kernel
  rw [isPrintable, Bool.not_eq_true', List.any_eq_false]
  intro r hr
  rw [Bool.and_eq_true, decide_eq_true_eq, decide_eq_true_eq]
  have := hranges r hr
  omega

theorem isSurrogate_of_isPrintable (h : c.isPrintable = true) : c.isSurrogate = false := by
  have hrange : ¬(0xD7FC ≤ c.val ∧ c.val ≤ 0xF8FF) :=
    not_mem_range_of_isPrintable h (by decide +kernel : (0xD7FC, 0xF8FF) ∈ unprintable)
  rw [isSurrogate, ← Bool.not_eq_true, Bool.and_eq_true, decide_eq_true_eq, decide_eq_true_eq]
  omega

/-- What ends a line is not printable. -/
theorem isLineBreak_of_isPrintable (h : c.isPrintable = true) : c.isLineBreak = false := by
  have hcontrol : ¬(0x0 ≤ c.val ∧ c.val ≤ 0x1F) :=
    not_mem_range_of_isPrintable h (by decide +kernel : (0x0, 0x1F) ∈ unprintable)
  have hnext : ¬(0x7F ≤ c.val ∧ c.val ≤ 0xA0) :=
    not_mem_range_of_isPrintable h (by decide +kernel : (0x7F, 0xA0) ∈ unprintable)
  have hseparator : ¬(0x2028 ≤ c.val ∧ c.val ≤ 0x202F) :=
    not_mem_range_of_isPrintable h (by decide +kernel : (0x2028, 0x202F) ∈ unprintable)
  rw [isLineBreak, ← Bool.not_eq_true]
  simp only [Bool.or_eq_true, Bool.and_eq_true, decide_eq_true_eq]
  omega

end CodePoint

namespace Text

/-- All code points of a text are printable. -/
def Printable (t : Text) : Prop := ∀ c ∈ t, c.isPrintable = true

/-- No code point of a text ends a line. -/
def SingleLine (t : Text) : Prop := ∀ c ∈ t, c.isLineBreak = false

variable {t u : Text}

theorem Printable.writable (h : t.Printable) : t.Writable :=
  fun c hc => CodePoint.isSurrogate_of_isPrintable (h c hc)

theorem Printable.singleLine (h : t.Printable) : t.SingleLine :=
  fun c hc => CodePoint.isLineBreak_of_isPrintable (h c hc)

theorem SingleLine.append (ht : t.SingleLine) (hu : u.SingleLine) : SingleLine (t ++ u) :=
  List.forall_mem_append.2 ⟨ht, hu⟩

theorem printable_nil : Printable [] := fun _ h => absurd h List.not_mem_nil

theorem Printable.append (ht : t.Printable) (hu : u.Printable) : Printable (t ++ u) :=
  List.forall_mem_append.2 ⟨ht, hu⟩

theorem printable_cons {c : CodePoint} (hc : c.isPrintable = true) (ht : t.Printable) :
    Printable (c :: t) :=
  List.forall_mem_cons.2 ⟨hc, ht⟩

theorem Printable.subset (ht : t.Printable) (h : ∀ c ∈ u, c ∈ t) : u.Printable :=
  fun c hc => ht c (h c hc)

theorem printable_flatMap {f : CodePoint → Text} (h : ∀ c ∈ t, (f c).Printable) :
    Printable (t.flatMap f) := by
  intro d hd
  obtain ⟨c, hc, hd⟩ := List.mem_flatMap.1 hd
  exact h c hc d hd

/-- A string of printable ASCII, which a closed string is found to be by evaluation. -/
theorem printable_ofString (s : String)
    (h : s.toList.all (fun c => 0x20 ≤ c.toNat && c.toNat < 0x7F) = true := by decide) :
    (ofString s).Printable := by
  intro c hc
  obtain ⟨d, hd, rfl⟩ := List.mem_map.1 hc
  have hd := List.all_eq_true.1 h d hd
  rw [Bool.and_eq_true, decide_eq_true_eq, decide_eq_true_eq] at hd
  exact CodePoint.isPrintable_of_ascii hd.1 hd.2

theorem AllDigits.printable (h : t.AllDigits) : t.Printable := by
  intro c hc
  have hdigit := h c hc
  rw [CodePoint.isDigit, Bool.and_eq_true, decide_eq_true_eq, decide_eq_true_eq] at hdigit
  exact CodePoint.isPrintable_of_ascii (by omega) (by omega)

theorem printable_ofNat (n : ℕ) : (ofNat n).Printable := (allDigits_ofNat n).printable

theorem printable_ofInt (n : ℤ) : (ofInt n).Printable := by
  cases n with
  | ofNat n => exact printable_ofNat n
  | negSucc n =>
    exact printable_cons (CodePoint.isPrintable_of_ascii (by decide) (by decide))
      (printable_ofNat _)

theorem ofDigit_range : ∀ n < 16,
    0x20 ≤ (CodePoint.ofDigit n).val ∧ (CodePoint.ofDigit n).val < 0x7F := by decide

theorem printable_ofHex (width n : ℕ) : (ofHex width n).Printable := by
  intro c hc
  obtain ⟨i, -, rfl⟩ := List.mem_map.1 hc
  obtain ⟨hlow, hhigh⟩ := ofDigit_range _ (Nat.mod_lt _ (by decide))
  exact CodePoint.isPrintable_of_ascii hlow hhigh

theorem printable_joinWith {sep : Text} (hsep : sep.Printable) {ts : List Text}
    (h : ∀ t ∈ ts, Printable t) : (joinWith sep ts).Printable := by
  intro c hc
  rcases mem_joinWith hc with hc | ⟨t, ht, hc⟩
  · exact hsep c hc
  · exact h t ht c hc

end Text

open Text (Printable printable_ofString printable_ofNat printable_nil printable_cons)

namespace Number

theorem printable_exponentText (f : Notation) (e : ℤ) : (f.exponentText e).Printable := by
  rw [Notation.exponentText]
  refine (Printable.append ?_ (Text.allDigits_replicate_zero _).printable).append
    (printable_ofNat _)
  split_ifs
  · exact printable_ofString _
  · exact printable_ofString _

theorem printable_decimalText (f : Notation) (d : Decimal) : (f.decimalText d).Printable := by
  have htake : ∀ n, Printable ((Text.ofNat d.digits).take n) :=
    fun n => (printable_ofNat _).subset fun _ h => List.mem_of_mem_take h
  have hdrop : ∀ n, Printable ((Text.ofNat d.digits).drop n) :=
    fun n => (printable_ofNat _).subset fun _ h => List.mem_of_mem_drop h
  have hzeros : ∀ n, Printable (List.replicate n (CodePoint.ofChar '0')) :=
    fun n => (Text.allDigits_replicate_zero n).printable
  have hpoint : Printable ("." : Text) := printable_ofString _
  rw [Notation.decimalText]
  dsimp only
  split_ifs
  · exact ((printable_ofString _).append (hzeros _)).append (printable_ofNat _)
  · exact (((htake _).append (hzeros _)).append hpoint).append (printable_ofString _)
  · exact (((htake _).append (hzeros _)).append hpoint).append (hdrop _)
  · exact ((htake _).append printable_nil).append (printable_exponentText f _)
  · exact ((htake _).append (hpoint.append (hdrop _))).append (printable_exponentText f _)

/-- **The text of a double is printable.** -/
theorem printable_text (x : Float) : (text x).Printable := by
  have hsign : Printable (if isNegative x then "-" else "" : Text) := by
    split_ifs
    · exact printable_ofString _
    · exact printable_ofString _
  rw [text, write]
  dsimp only
  generalize (if isNegative x = true then Text.ofString "-" else Text.ofString "") = sign at hsign ⊢
  split_ifs
  · exact printable_ofString _
  · exact hsign.append (printable_ofString _)
  · exact hsign.append (printable_ofString _)
  · exact hsign.append (printable_decimalText plain _)

theorem writable_text (x : Float) : (text x).Writable := (printable_text x).writable

end Number

namespace Quoted

theorem isPrintable_delimiter (t : Text) : (delimiter t).isPrintable = true := by
  rw [delimiter]
  split_ifs <;> exact CodePoint.isPrintable_of_ascii (by decide) (by decide)

/-- What is not printable has an escape that is. -/
theorem printable_escape {q : CodePoint} (hq : q.isPrintable = true) (c : CodePoint) :
    (escape q c).Printable := by
  have hback : (CodePoint.ofChar '\\').isPrintable = true :=
    CodePoint.isPrintable_of_ascii (by decide) (by decide)
  rw [escape]
  split_ifs with h₁ h₂ h₃ h₄ h₅
  · refine printable_cons hback (printable_cons ?_ printable_nil)
    rcases Bool.or_eq_true_iff.1 h₁ with h | h
    · rw [of_decide_eq_true h]
      exact hq
    · rw [of_decide_eq_true h]
      exact hback
  · exact printable_ofString _
  · exact printable_ofString _
  · exact printable_ofString _
  · exact printable_cons h₅ printable_nil
  · exact (printable_ofString _).append (Text.printable_ofHex _ _)
  · exact (printable_ofString _).append (Text.printable_ofHex _ _)
  · exact (printable_ofString _).append (Text.printable_ofHex _ _)

/-- **The quoted form of any text is printable**, also when the text itself is not. -/
theorem printable_quote (t : Text) : (quote t).Printable := by
  have hq := isPrintable_delimiter t
  refine printable_cons hq (Printable.append ?_ (printable_cons hq printable_nil))
  exact Text.printable_flatMap fun c _ => printable_escape hq c

end Quoted

end Abacus
