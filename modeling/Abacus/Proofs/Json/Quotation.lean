import Mathlib
import Abacus.Proofs.Json.Token

/-!
# Quoted texts are read back

A string in the compact style is read back into the text that was quoted, whatever code points it
has: only control characters become numbered escapes, so that no two of them join.

* `pieceOf`: the piece that a code point is read back as;
* `scanPieces_escape`, `scanPieces_flatMap`: one code point, and all up to the closing quote;
* `joinPieces_map`: the pieces put together are the text;
* `lexes_quote`: the token of the quoted text.
-/

namespace Abacus.Json

namespace Token

/-- The piece that a code point in a string of the compact style is read back as. -/
def pieceOf (c : CodePoint) : Piece :=
  if c.val < 0x20 ∧ c ≠ CodePoint.ofChar '\n' ∧ c ≠ CodePoint.ofChar '\r' ∧
      c ≠ CodePoint.ofChar '\t' ∧ c.val ≠ 0x8 ∧ c.val ≠ 0xC then .escaped c
  else .plain c

/-! ## Scanning -/

/-- The four digits of a number are read back as the number, when something follows them. -/
theorem scanPieces_ofHex {n : ℕ} (hn : n < 0x10000) (offset start : ℕ) {t : Text} (ht : t ≠ []) :
    scanPieces offset (.hex 4 0 start) (Text.ofHex 4 n ++ t) =
      (scanPieces (offset + 4) .plain t).map
        fun p => (.escaped (CodePoint.ofNat n) :: p.1, p.2) := by
  have hdigits : Text.ofHex 4 n = [CodePoint.ofDigit (n / 16 ^ 3 % 16),
      CodePoint.ofDigit (n / 16 ^ 2 % 16), CodePoint.ofDigit (n / 16 ^ 1 % 16),
      CodePoint.ofDigit (n / 16 ^ 0 % 16)] := rfl
  have hdigit : ∀ k, (CodePoint.ofDigit (k % 16)).hexValue? = some (k % 16) :=
    fun k => Text.hexValue?_ofDigit _ (Nat.mod_lt k (by decide))
  have hempty : t.isEmpty = false := by simpa using ht
  have hvalue : (((0 * 16 + n / 16 ^ 3 % 16) * 16 + n / 16 ^ 2 % 16) * 16 + n / 16 ^ 1 % 16) * 16 +
      n / 16 ^ 0 % 16 = n := by
    omega
  rw [hdigits]
  simp only [List.cons_append, List.nil_append]
  rw [scanPieces, hdigit]
  dsimp only
  rw [if_pos (by decide), scanPieces, hdigit]
  dsimp only
  rw [if_pos (by decide), scanPieces, hdigit]
  dsimp only
  rw [if_pos (by decide), scanPieces, hdigit]
  dsimp only
  rw [if_neg (by decide), hempty, if_neg Bool.false_ne_true, hvalue]
  cases scanPieces (offset + 1 + 1 + 1 + 1) .plain t <;> rfl

/-- The escape of one letter is read back as the code point it stands for. -/
theorem scanPieces_letter {letter c : CodePoint} (hletter : simpleEscape? letter = some c)
    (hu : letter ≠ CodePoint.ofChar 'u') (offset : ℕ) (t : Text) :
    scanPieces offset .plain (CodePoint.ofChar '\\' :: letter :: t) =
      (scanPieces (offset + 2) .plain t).map fun p => (.plain c :: p.1, p.2) := by
  rw [scanPieces, if_neg (by decide), if_pos rfl, scanPieces, if_neg hu, hletter]
  dsimp only
  cases scanPieces (offset + 1 + 1) .plain t <;> rfl

/-- **The form of a code point in a string is read back as the code point.** -/
theorem scanPieces_escape (c : CodePoint) (offset : ℕ) {t : Text} (ht : t ≠ []) :
    scanPieces offset .plain (compact.escape c ++ t) =
      (scanPieces (offset + (compact.escape c).length) .plain t).map
        fun p => (pieceOf c :: p.1, p.2) := by
  have hletter : ∀ letter : CodePoint, simpleEscape? letter = some c →
      letter ≠ CodePoint.ofChar 'u' → pieceOf c = .plain c →
      scanPieces offset .plain ([CodePoint.ofChar '\\', letter] ++ t) =
        (scanPieces (offset + 2) .plain t).map fun p => (pieceOf c :: p.1, p.2) := by
    intro letter hletter hu hpiece
    rw [hpiece]
    exact scanPieces_letter hletter hu offset t
  have hval : ∀ n : ℕ, c.val = n → c = CodePoint.ofNat n := by
    rintro n rfl
    exact Fin.ext (Nat.mod_eq_of_lt c.isLt).symm
  rw [Style.escape]
  split_ifs with h₁ h₂ h₃ h₄ h₅ h₆ h₇ h₈ h₉
  · subst h₁
    exact hletter (CodePoint.ofChar '"') rfl (by decide) rfl
  · subst h₂
    exact hletter (CodePoint.ofChar '\\') rfl (by decide) rfl
  · subst h₃
    exact hletter (CodePoint.ofChar 'n') rfl (by decide) rfl
  · subst h₄
    exact hletter (CodePoint.ofChar 'r') rfl (by decide) rfl
  · subst h₅
    exact hletter (CodePoint.ofChar 't') rfl (by decide) rfl
  · obtain rfl := hval _ h₆
    exact hletter (CodePoint.ofChar 'b') rfl (by decide) rfl
  · obtain rfl := hval _ h₇
    exact hletter (CodePoint.ofChar 'f') rfl (by decide) rfl
  · have hpiece : pieceOf c = .escaped (CodePoint.ofNat c.val) := by
      rw [pieceOf, if_pos ⟨h₈, h₃, h₄, h₅, h₆, h₇⟩, ← hval _ rfl]
    have hsize : (Style.numbered c).length = 6 := by
      rw [Style.numbered, if_pos (by omega)]
      rfl
    have hform : Style.numbered c ++ t =
        CodePoint.ofChar '\\' :: CodePoint.ofChar 'u' :: (Text.ofHex 4 c.val ++ t) := by
      rw [Style.numbered, if_pos (by omega)]
      rfl
    rw [hsize, hform, hpiece, scanPieces, if_neg (by decide), if_pos rfl, scanPieces, if_pos rfl,
      scanPieces_ofHex (by omega) _ _ ht]
  · exact absurd h₉ Bool.false_ne_true
  · have hpiece : pieceOf c = .plain c := by
      rw [pieceOf, if_neg fun h => h₈ h.1]
    rw [hpiece, List.cons_append, List.nil_append, scanPieces, if_neg h₁, if_neg h₂,
      if_neg (by omega)]
    change _ = (scanPieces (offset + 1) .plain t).map _
    cases scanPieces (offset + 1) .plain t <;> rfl

/-- **The string up to its closing quote** is read back as the pieces of its code points. -/
theorem scanPieces_flatMap (t : Text) (offset : ℕ) (rest : Text) :
    scanPieces offset .plain (t.flatMap compact.escape ++ CodePoint.ofChar '"' :: rest) =
      .ok (t.map pieceOf, offset + (t.flatMap compact.escape).length) := by
  induction t generalizing offset with
  | nil =>
    rw [List.flatMap_nil, List.nil_append, scanPieces, if_pos rfl]
    rfl
  | cons c t ih =>
    rw [List.flatMap_cons, List.append_assoc, scanPieces_escape c offset (by simp), ih,
      List.length_append]
    simp [Except.map, Nat.add_assoc]

/-! ## Putting together -/

theorem joinPieces_cons_plain (c : CodePoint) (pieces : List Piece) :
    joinPieces (.plain c :: pieces) = c :: joinPieces pieces := by
  rw [joinPieces]

/-- An escape that is no first half of a surrogate pair stands for itself. -/
theorem joinPieces_cons_escaped {c : CodePoint} (hc : c.isHighSurrogate = false)
    (pieces : List Piece) : joinPieces (.escaped c :: pieces) = c :: joinPieces pieces := by
  rcases pieces with _ | ⟨d | d, pieces⟩
  · rfl
  · rw [joinPieces_cons_plain, joinPieces]
  · rw [joinPieces, hc, Bool.false_and, if_neg Bool.false_ne_true]

theorem joinPieces_map (t : Text) : joinPieces (t.map pieceOf) = t := by
  induction t with
  | nil => rfl
  | cons c t ih =>
    rw [List.map_cons, pieceOf]
    split_ifs with h
    · have hc : c.isHighSurrogate = false := by
        rw [CodePoint.isHighSurrogate, Bool.and_eq_false_iff]
        left
        rw [decide_eq_false_iff_not]
        omega
      rw [joinPieces_cons_escaped hc, ih]
    · rw [joinPieces_cons_plain, ih]

theorem scanText_quote (t rest : Text) :
    scanText (t.flatMap compact.escape ++ CodePoint.ofChar '"' :: rest) =
      ⟨.text t, (t.flatMap compact.escape ++ [CodePoint.ofChar '"']).length⟩ := by
  rw [scanText, scanPieces_flatMap]
  dsimp only
  rw [joinPieces_map, List.length_append, List.length_singleton, Nat.add_comm]

end Token

/-- **A quoted text is cut off whole as that text**, whatever follows it. -/
theorem lexes_quote (t rest : Text) : Lexes (compact.quote t) (.text t) rest := by
  refine lexes_of_scan (t := t.flatMap compact.escape ++ [CodePoint.ofChar '"']) rfl ?_
  rw [List.append_assoc]
  exact Token.scanText_quote t rest

end Abacus.Json
