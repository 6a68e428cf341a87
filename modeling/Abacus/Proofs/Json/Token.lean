import Mathlib
import Abacus.Json.Printer
import Abacus.Json.Token
import Abacus.Proofs.Json.Number

/-!
# Written tokens are cut off whole

* `Lexes`: a text is cut off whole, as a given token, from the front of what follows it;
* `lexes_quote`: the quoted form of a text, whatever follows;
* `lexes_text`, `lexes_ofInt`: a finite double and an integer that is not too long, before anything
  that cannot belong to a number;
* `lexes_punctuation`, `lexes_null`, `lexes_bool`: the punctuation and the words.
-/

namespace Abacus.Json

open Token (NumberEnds)

/-- A text is cut off whole, as the token `k`, when `rest` follows it. -/
def Lexes (t : Text) (k : Token) (rest : Text) : Prop :=
  ∀ offset, tokensFrom offset (t ++ rest) = ⟨k, offset⟩ :: tokensFrom (offset + t.length) rest

theorem tokensFrom_cons {c : CodePoint} (hc : Token.isSpace c = false) (offset : ℕ) (t : Text) :
    tokensFrom offset (c :: t) =
      ⟨(Token.scan c t).token, offset⟩ ::
        tokensFrom (offset + 1 + (Token.scan c t).extra) (t.drop (Token.scan c t).extra) := by
  rw [tokensFrom, if_neg (by simp [hc])]

theorem lexes_of_scan {c : CodePoint} {t rest : Text} {k : Token}
    (hc : Token.isSpace c = false) (h : Token.scan c (t ++ rest) = ⟨k, t.length⟩) :
    Lexes (c :: t) k rest := by
  intro offset
  rw [List.cons_append, tokensFrom_cons hc, h]
  simp only [List.drop_left, List.length_cons]
  rw [Nat.add_assoc, Nat.add_comm 1]

/-- The characters that are tokens by themselves. -/
def punctuation : List (Char × Token) :=
  [('[', .openArray), (']', .closeArray), ('\x7b', .openObject), ('\x7d', .closeObject),
    (',', .comma), (':', .colon)]

theorem lexes_punctuation {p : Char × Token} (hp : p ∈ punctuation) (rest : Text) :
    Lexes [CodePoint.ofChar p.1] p.2 rest := by
  simp only [punctuation, List.mem_cons, List.not_mem_nil, or_false] at hp
  rcases hp with rfl | rfl | rfl | rfl | rfl | rfl <;> exact lexes_of_scan rfl rfl

theorem lexes_null (rest : Text) : Lexes "null" (.scalar .null) rest :=
  lexes_of_scan (t := Text.ofString "ull") rfl rfl

theorem lexes_bool (b : Bool) (rest : Text) :
    Lexes (if b then "true" else "false") (.scalar (.bool b)) rest := by
  cases b
  · exact lexes_of_scan (t := Text.ofString "alse") rfl rfl
  · exact lexes_of_scan (t := Text.ofString "rue") rfl rfl

/-! ## Numbers -/

namespace Token

theorem startsWith_cons_eq_false {a c : CodePoint} (h : a ≠ c) (p t : Text) :
    Text.startsWith (c :: t) (a :: p) = false := by
  rw [Text.startsWith, List.isPrefixOf, beq_eq_false_iff_ne.2 h, Bool.false_and]

/-- No word begins with a digit, nor with a minus sign and a digit. -/
theorem find?_words_eq_none {c : CodePoint} {t : Text}
    (h : c.isDigit = true ∨ c = CodePoint.ofChar '-' ∧ t.BeginsWithDigit) :
    (words.find? fun w => Text.startsWith (c :: t) (Text.ofString w.1)) = none := by
  rw [List.find?_eq_none]
  have hhead : ∀ a : CodePoint, a.isDigit = false → a ≠ CodePoint.ofChar '-' → ∀ p,
      ¬Text.startsWith (c :: t) (a :: p) = true := by
    intro a ha hminus p
    rw [startsWith_cons_eq_false, Bool.not_eq_true]
    rintro rfl
    rcases h with h | ⟨rfl, -⟩
    · rw [ha] at h
      cases h
    · exact hminus rfl
  intro w hw
  simp only [words, List.mem_cons, List.not_mem_nil, or_false] at hw
  rcases hw with rfl | rfl | rfl | rfl | rfl | rfl
  · exact hhead _ rfl (by decide) _
  · exact hhead _ rfl (by decide) _
  · exact hhead _ rfl (by decide) _
  · exact hhead _ rfl (by decide) _
  · exact hhead _ rfl (by decide) _
  · -- The word for negative infinity: its second letter is no digit.
    rw [Bool.not_eq_true]
    rcases h with h | ⟨rfl, d, hd, hdigit⟩
    · refine startsWith_cons_eq_false ?_ _ _
      rintro rfl
      exact absurd h (by decide)
    · cases t with
      | nil => rfl
      | cons e t =>
        cases hd
        have he : CodePoint.ofChar 'I' ≠ d := by
          rintro rfl
          exact absurd hdigit (by decide)
        exact startsWith_cons_eq_false he _ _

/-- A number that begins with a digit, after its sign if it has one, is scanned as a number. -/
theorem scan_of_scanNumber {c : CodePoint} {t : Text} {k : Token} {size : ℕ}
    (h : c.isDigit = true ∨ c = CodePoint.ofChar '-' ∧ t.BeginsWithDigit)
    (hk : scanNumber (c :: t) = some (k, size)) : scan c t = ⟨k, size - 1⟩ := by
  have hne : ∀ a : Char, (CodePoint.ofChar a).isDigit = false → a ≠ '-' →
      CodePoint.ofChar a ≠ CodePoint.ofChar '-' → c ≠ CodePoint.ofChar a := by
    rintro a ha - hminus rfl
    rcases h with h | ⟨h, -⟩
    · rw [ha] at h
      cases h
    · exact hminus h
  rw [scan, if_neg (hne _ rfl (by decide) (by decide)), if_neg (hne _ rfl (by decide) (by decide)),
    if_neg (hne _ rfl (by decide) (by decide)), if_neg (hne _ rfl (by decide) (by decide)),
    if_neg (hne _ rfl (by decide) (by decide)), if_neg (hne _ rfl (by decide) (by decide)),
    if_neg (hne _ rfl (by decide) (by decide)), find?_words_eq_none h]
  dsimp only
  rw [hk]

theorem isSpace_of_isDigit {c : CodePoint} (hc : c.isDigit = true) : isSpace c = false := by
  rw [isSpace, CodePoint.isDigit] at *
  simp only [Bool.and_eq_true, decide_eq_true_eq] at hc
  simp only [Bool.or_eq_false_iff, decide_eq_false_iff_not, CodePoint.ofChar, Fin.ext_iff]
  simp only [show ' '.toNat = 32 from rfl, show '\t'.toNat = 9 from rfl,
    show '\n'.toNat = 10 from rfl, show '\r'.toNat = 13 from rfl]
  omega

/-- The text of a plain numeral begins with a digit, after its sign if it has one. -/
theorem exists_render_eq_cons {n : Number.Numeral} (hn : n.IsPlain) :
    ∃ c t, n.render = c :: t ∧ isSpace c = false ∧
      (c.isDigit = true ∨ c = CodePoint.ofChar '-' ∧ Text.BeginsWithDigit t) := by
  obtain ⟨d, tail, heq, hd⟩ : ∃ d tail, n.whole = d :: tail ∧ d.isDigit = true := by
    rcases hn.front with h | ⟨c, tail, h, -⟩
    · exact ⟨_, [], h, rfl⟩
    · exact ⟨c, tail, h, hn.whole c (by rw [h]; exact List.mem_cons_self)⟩
  rcases hn.sign with hsign | hsign
  · refine ⟨d, tail ++ (Number.Numeral.renderFraction n.fraction ++
      Number.Numeral.renderExponent n.exponent), ?_, isSpace_of_isDigit hd, .inl hd⟩
    rw [Number.Numeral.render, hsign, heq]
    rfl
  · refine ⟨CodePoint.ofChar '-', n.whole ++ (Number.Numeral.renderFraction n.fraction ++
      Number.Numeral.renderExponent n.exponent), ?_, rfl, .inr ⟨rfl, d, ?_, hd⟩⟩
    · rw [Number.Numeral.render, hsign]
      rfl
    · rw [heq]
      rfl

end Token

/-- **A plain numeral is cut off whole as its token.** -/
theorem lexes_render {n : Number.Numeral} (hn : n.IsPlain) {rest : Text} (hrest : NumberEnds rest) :
    Lexes n.render (Token.tokenOf n) rest := by
  obtain ⟨c, t, heq, hspace, hbegin⟩ := Token.exists_render_eq_cons hn
  have hscan := Token.scanNumber_render hn hrest
  rw [heq, List.cons_append] at hscan
  have hbegin' : c.isDigit = true ∨
      c = CodePoint.ofChar '-' ∧ Text.BeginsWithDigit (t ++ rest) := by
    refine hbegin.imp_right fun ⟨hc, d, hd, hdigit⟩ => ⟨hc, d, ?_, hdigit⟩
    cases t with
    | nil => cases hd
    | cons e t => exact hd
  rw [heq]
  exact lexes_of_scan hspace (Token.scan_of_scanNumber hbegin' hscan)

theorem lexes_text {x : Float} (hx : x.isFinite = true) {rest : Text} (hrest : NumberEnds rest) :
    Lexes (Number.text x) (.scalar (.float x)) rest := by
  rw [Number.text_eq_render hx, ← Token.tokenOf_numeral hx]
  exact lexes_render (Number.isPlain_numeral hx) hrest

theorem lexes_ofInt {n : ℤ} (hn : (Text.ofNat n.natAbs).length ≤ Token.digitLimit) {rest : Text}
    (hrest : NumberEnds rest) : Lexes (Text.ofInt n) (.scalar (.int n)) rest := by
  rw [Token.ofInt_eq_render, ← Token.tokenOf_integerNumeral hn]
  exact lexes_render (Token.isPlain_integerNumeral n) hrest

end Abacus.Json
