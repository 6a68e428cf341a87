import Mathlib
import Abacus.Proofs.Json.Mark
import Abacus.Proofs.Json.Reader

/-!
# What follows a container that is too deep

A reading that goes too deep does so whatever follows the bracket that opens the container: no token
before it reaches as far as the bracket, so that all of them are the same before any other text.

* `IsOpening`: the two brackets that open a container, which are marks;
* `Token.isOpening_of_token`: only such a bracket is read as the opening of a container;
* `exists_opening_of_meets`: the bracket at which a reading goes too deep.
-/

namespace Abacus.Json

/-- A bracket that opens a container. -/
def IsOpening (c : CodePoint) : Prop := c = CodePoint.ofChar '[' ∨ c = CodePoint.ofChar '\x7b'

theorem IsOpening.isMark {c : CodePoint} (h : IsOpening c) : IsMark c := by
  rcases h with rfl | rfl
  · exact ⟨('[', .openArray), by simp [punctuation], rfl⟩
  · exact ⟨('\x7b', .openObject), by simp [punctuation], rfl⟩

namespace Token

/-- A number is read as a scalar or as a fault. -/
theorem token_of_scanNumber {t : Text} {k : Token} {size : ℕ}
    (h : scanNumber t = some (k, size)) : (∃ v, k = .scalar v) ∨ ∃ f, k = .fault f := by
  rw [scanNumber] at h
  dsimp only at h
  split_ifs at h <;> cases h <;> first | exact .inl ⟨_, rfl⟩ | exact .inr ⟨_, rfl⟩

/-- Only an opening bracket is read as one. -/
theorem isOpening_of_token {c : CodePoint} {t : Text}
    (h : (scan c t).token = .openArray ∨ (scan c t).token = .openObject) :
    IsOpening c ∧ ∀ u, scan c u = scan c t := by
  rw [scan] at h
  split_ifs at h with h₁ h₂ h₃ h₄ h₅ h₆ h₇
  · subst h₁
    exact ⟨.inl rfl, fun _ => rfl⟩
  · simp at h
  · subst h₃
    exact ⟨.inr rfl, fun _ => rfl⟩
  · simp at h
  · simp at h
  · simp at h
  · rw [scanText] at h
    split at h <;> simp at h
  · split at h
    · simp at h
    · split at h
      · next hn =>
        rcases token_of_scanNumber hn with ⟨v, rfl⟩ | ⟨f, rfl⟩ <;> simp at h
      · simp at h

end Token

/-- **A reading that goes too deep does so at an opening bracket, whatever follows it.** The
induction is along the cutting into tokens. -/
theorem exists_opening_of_meets {size : ℕ} {s : Reader.State} {offset : ℕ} {t : Text}
    {c : Container} (h : Reader.Meets size s (tokensFrom offset t) (.tooDeep c)) :
    ∃ x b r, IsOpening b ∧ t = x ++ b :: r ∧
      ∀ r' size', Reader.Meets size' s (tokensFrom offset (x ++ b :: r')) (.tooDeep c) := by
  induction offset, t using tokensFrom.induct generalizing s with
  | case1 offset =>
    rw [tokensFrom] at h
    cases h with
    | atEnd h => exact absurd h (Reader.finish_ne_tooDeep _ _ _)
  | case2 offset d t hspace ih =>
    rw [tokensFrom, if_pos hspace] at h
    obtain ⟨x, b, r, hb, rfl, hmeets⟩ := ih h
    refine ⟨d :: x, b, r, hb, rfl, fun r' size' => ?_⟩
    rw [List.cons_append, tokensFrom, if_pos hspace]
    exact hmeets r' size'
  | case3 offset d t hspace lexeme =>
    rename_i ih
    rw [Bool.not_eq_true] at hspace
    rw [tokensFrom_cons hspace] at h
    cases h with
    | here h =>
      obtain ⟨hd, hscan⟩ := Token.isOpening_of_token (Reader.token_of_step_tooDeep h)
      refine ⟨[], d, t, hd, rfl, fun r' size' => ?_⟩
      rw [List.nil_append, tokensFrom_cons hspace, hscan r']
      exact .here h _
    | later hstep h =>
      obtain ⟨x, b, r, hb, heq, hmeets⟩ := ih h
      have hfault := Reader.not_fault_of_step hstep
      obtain ⟨y, ht, hscan⟩ := Token.exists_scan_eq hb.isMark.isBoundary hfault heq
      refine ⟨d :: (y ++ x), b, r, hb, congrArg _ ht, fun r' size' => ?_⟩
      rw [List.cons_append, tokensFrom_cons hspace, (hscan r').1, (hscan r').2]
      exact .later hstep (hmeets r' size')

/-- The text in front of which a reading goes too deep: whatever stands behind it. -/
theorem exists_prefix_of_meets_tooDeep {t : Text} {c : Container} (h : Meets t (.tooDeep c)) :
    ∃ front rest, t = front ++ rest ∧ ∀ rest', Meets (front ++ rest') (.tooDeep c) := by
  obtain ⟨x, b, r, -, rfl, hmeets⟩ := exists_opening_of_meets h
  refine ⟨x ++ [b], r, by simp, fun rest' => ?_⟩
  rw [List.append_assoc, List.singleton_append]
  exact hmeets rest' _

end Abacus.Json
