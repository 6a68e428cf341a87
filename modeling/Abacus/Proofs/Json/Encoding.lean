import Mathlib
import Abacus.Json.Encoding
import Abacus.Proofs.Json.Printer
import Abacus.Proofs.Json.Reader
import Abacus.Proofs.Text.Utf8
import Abacus.Text.Blank

/-!
# JSON texts written in UTF-8

The bytes of a text that can be read never announce another encoding: no byte order mark stands in
front of it, and neither of its first two code points is zero.

* `scan_of_notStart`, `scan_cons_zero`: what cannot begin a token, and what cannot go on one;
* `ne_zero_of_ofDecoded`: the first two code points of a text that is read;
* `not_reads_of_blank`: a text of blanks is not read;
* `Encoding.detect_encodeLone`: the encoding that the bytes of such a text announce;
* `ofBytes_encodeLone`: the value of the text is the value of its bytes.
-/

namespace Abacus.Json

namespace Token

/-- The byte order mark. -/
def mark : CodePoint := CodePoint.ofNat 0xFEFF

/-- Neither zero nor a byte order mark begins a token. -/
theorem scan_of_notStart {c : CodePoint} (hc : c = 0 ∨ c = mark) (rest : Text) :
    scan c rest = ⟨.fault .unknown, 0⟩ ∧ isSpace c = false := by
  rcases hc with rfl | rfl <;> exact ⟨rfl, rfl⟩

theorem startsWith_word_cons_zero {w : String × Value} (hw : w ∈ words) (c : CodePoint)
    (rest : Text) : Text.startsWith (c :: 0 :: rest) (Text.ofString w.1) = false := by
  rw [Text.startsWith]
  simp only [words, List.mem_cons, List.not_mem_nil, or_false] at hw
  rcases hw with rfl | rfl | rfl | rfl | rfl | rfl <;> exact Bool.and_false _

theorem scanNumber_cons_zero {c : CodePoint} {rest : Text} {k : Token} {size : ℕ}
    (h : scanNumber (c :: 0 :: rest) = some (k, size)) : size = 1 := by
  by_cases hminus : c = CodePoint.ofChar '-'
  · subst hminus
    cases h
  have hstart : Text.startsWith (c :: 0 :: rest) "-" = false :=
    startsWith_cons_eq_false (Ne.symm hminus) _ _
  have hwhole : scanWhole (c :: 0 :: rest) = if c.isDigit then [c] else [] := by
    rw [scanWhole]
    by_cases hzero : c = CodePoint.ofChar '0'
    · subst hzero
      rfl
    · rw [if_neg hzero, Text.spanDigits, List.takeWhile_cons]
      split_ifs <;> rfl
  have hfraction : scanFraction (0 :: rest) = none := rfl
  have hexponent : Number.Numeral.scanExponent (0 :: rest) = (none, 0 :: rest) := rfl
  rw [scanNumber] at h
  by_cases hdigit : c.isDigit = true
  · rw [if_pos hdigit] at hwhole
    simp only [hstart, hwhole, hfraction, hexponent, Bool.false_eq_true, if_false, List.drop_zero,
      List.isEmpty_cons, List.length_singleton, List.drop_succ_cons, Nat.sub_self] at h
    cases h
    rfl
  · rw [if_neg hdigit] at hwhole
    simp only [hstart, hwhole, Bool.false_eq_true, if_false, List.drop_zero, List.isEmpty_nil,
      if_true] at h
    cases h

/-- No token goes on in zero. -/
theorem scan_cons_zero (c : CodePoint) (rest : Text) :
    (∃ f, (scan c (0 :: rest)).token = .fault f) ∨ (scan c (0 :: rest)).extra = 0 := by
  rw [scan]
  split_ifs
  · exact .inr rfl
  · exact .inr rfl
  · exact .inr rfl
  · exact .inr rfl
  · exact .inr rfl
  · exact .inr rfl
  · exact .inl ⟨_, rfl⟩
  · have hwords : (words.find? fun w => Text.startsWith (c :: 0 :: rest) (Text.ofString w.1)) =
        none := by
      rw [List.find?_eq_none]
      intro w hw
      rw [startsWith_word_cons_zero hw]
      exact Bool.false_ne_true
    rw [hwords]
    dsimp only
    cases hn : scanNumber (c :: 0 :: rest) with
    | none => exact .inl ⟨_, rfl⟩
    | some p =>
      obtain ⟨k, size⟩ := p
      right
      dsimp only
      rw [scanNumber_cons_zero hn]

end Token

/-- **The first two code points of a text that is read** are not zero, and the first one is no byte
order mark. -/
theorem ne_zero_of_ofDecoded {t : Text} {v : Value} (h : ofDecoded t = .ok v) :
    t.head? ≠ some Token.mark ∧ ∀ c ∈ t.take 2, c ≠ 0 := by
  have hfault : ∀ l ∈ tokens t, ∀ f, l.token ≠ .fault f :=
    (ofDecoded_eq_ok_iff.1 h).not_fault
  -- A code point that begins no token, at the front or behind a token of one code point.
  have hstart : ∀ {c rest offset}, (∀ l ∈ tokensFrom offset (c :: rest), ∀ f, l.token ≠ .fault f) →
      c ≠ 0 ∧ c ≠ Token.mark := by
    intro c rest offset hnone
    rw [← not_or]
    intro hc
    obtain ⟨hscan, hspace⟩ := Token.scan_of_notStart hc rest
    rw [tokensFrom_cons hspace, hscan] at hnone
    exact hnone _ List.mem_cons_self _ rfl
  match t, hfault with
  | [], _ => exact ⟨by simp, by simp⟩
  | [c], hfault =>
    obtain ⟨h₁, h₂⟩ := hstart hfault
    exact ⟨by simpa using h₂, by simpa using h₁⟩
  | c :: d :: rest, hfault =>
    obtain ⟨h₁, h₂⟩ := hstart hfault
    refine ⟨by simpa using h₂, ?_⟩
    have hd : d ≠ 0 := by
      rintro rfl
      rw [tokens] at hfault
      by_cases hspace : Token.isSpace c = true
      · rw [tokensFrom, if_pos hspace] at hfault
        exact (hstart hfault).1 rfl
      · rw [Bool.not_eq_true] at hspace
        rw [tokensFrom_cons hspace] at hfault
        rcases Token.scan_cons_zero c rest with ⟨f, hf⟩ | hextra
        · exact hfault _ List.mem_cons_self f hf
        · rw [hextra, List.drop_zero] at hfault
          exact (hstart fun l hl => hfault l (List.mem_cons_of_mem _ hl)).1 rfl
    simp only [List.take_succ_cons, List.take_zero, List.mem_cons, List.not_mem_nil, or_false]
    rintro e (rfl | rfl)
    · exact h₁
    · exact hd

/-! ## Blanks -/

/-- A blank is skipped, or it begins no token. -/
theorem Token.isSpace_or_scan_of_isAsciiBlank {c : CodePoint} (hc : c.isAsciiBlank = true)
    (rest : Text) : isSpace c = true ∨ scan c rest = ⟨.fault .unknown, 0⟩ ∧ isSpace c = false := by
  rw [CodePoint.isAsciiBlank, Bool.or_eq_true, Bool.and_eq_true, decide_eq_true_eq,
    decide_eq_true_eq, decide_eq_true_eq] at hc
  have hcases : c = 0x20 ∨ c = 0x9 ∨ c = 0xA ∨ c = 0xB ∨ c = 0xC ∨ c = 0xD := by
    simp only [Fin.ext_iff]
    omega
  rcases hcases with rfl | rfl | rfl | rfl | rfl | rfl
  · exact .inl rfl
  · exact .inl rfl
  · exact .inl rfl
  · exact .inr ⟨rfl, rfl⟩
  · exact .inr ⟨rfl, rfl⟩
  · exact .inl rfl

/-- **A text of blanks has no value.** -/
theorem not_reads_of_blank {t : Text} (ht : ∀ c ∈ t, c.isAsciiBlank = true) (v : Value) :
    ¬Reads t v := by
  rw [Reads, tokens]
  generalize 0 = offset
  induction t generalizing offset with
  | nil =>
    rw [tokensFrom]
    intro h
    cases h
  | cons c t ih =>
    rcases Token.isSpace_or_scan_of_isAsciiBlank (ht c List.mem_cons_self) t with hc | ⟨hscan, hc⟩
    · rw [tokensFrom, if_pos hc]
      exact ih (fun d hd => ht d (List.mem_cons_of_mem _ hd)) _
    · intro h
      rw [tokensFrom_cons hc, hscan] at h
      exact h.not_fault _ List.mem_cons_self _ rfl

namespace Encoding

open Utf8 (encodeLone encodePoint)

/-- The bytes of a code point that is not zero are not zero. -/
theorem exists_encodePoint_eq_cons_of_ne_zero {c : CodePoint} (hc : c ≠ 0) :
    ∃ b tail, encodePoint c = b :: tail ∧ b ≠ 0 ∧ ∀ d ∈ tail, d ≠ 0 := by
  obtain ⟨b, tail, heq, hlt, hzero, htail⟩ := Utf8.exists_encodePoint_eq_cons c
  refine ⟨_, tail, heq, fun hb => hc (Fin.ext (hzero.1 ?_)), ?_⟩
  · rw [← Utf8.toNat_ofNat (n := b) (by omega), hb]
    rfl
  · rintro d hd rfl
    exact absurd (htail 0 hd) (by decide)

/-- The first two bytes of a text are not zero if its first two code points are not. -/
theorem ne_zero_of_mem_take_encodeLone {t : Text} (h : ∀ c ∈ t.take 2, c ≠ 0) :
    ∀ b ∈ (encodeLone t).take 2, b ≠ 0 := by
  match t, h with
  | [], _ => simp [encodeLone]
  | [c], h =>
    obtain ⟨b, tail, heq, hb, htail⟩ := exists_encodePoint_eq_cons_of_ne_zero (h c (by simp))
    intro d hd
    have hmem : d ∈ b :: tail := by
      have := List.mem_of_mem_take hd
      simpa [encodeLone, heq] using this
    rcases List.mem_cons.1 hmem with rfl | hmem
    · exact hb
    · exact htail d hmem
  | c :: e :: rest, h =>
    obtain ⟨b, tail, heq, hb, htail⟩ := exists_encodePoint_eq_cons_of_ne_zero (h c (by simp))
    obtain ⟨b', tail', heq', hb', -⟩ := exists_encodePoint_eq_cons_of_ne_zero (h e (by simp))
    intro d hd
    rw [encodeLone, List.flatMap_cons, heq, List.flatMap_cons, heq'] at hd
    cases tail with
    | nil =>
      simp only [List.nil_append, List.cons_append, List.take_succ_cons, List.take_zero,
        List.mem_cons, List.not_mem_nil, or_false] at hd
      rcases hd with rfl | rfl
      · exact hb
      · exact hb'
    | cons x tail =>
      simp only [List.cons_append, List.take_succ_cons, List.take_zero, List.mem_cons,
        List.not_mem_nil, or_false] at hd
      rcases hd with rfl | rfl
      · exact hb
      · exact htail d List.mem_cons_self

theorem ofZeros_of_ne_zero {bytes : Bytes} (h : ∀ b ∈ bytes.take 2, b ≠ 0) :
    ofZeros bytes = .utf8 false := by
  match bytes, h with
  | [], _ => rfl
  | [_], _ => rfl
  | [a, b], h =>
    have ha : a ≠ 0 := h a (by simp)
    have hb : b ≠ 0 := h b (by simp)
    rw [ofZeros, if_neg ha, if_neg hb]
  | [_, _, _], _ => rfl
  | a :: b :: _ :: _ :: _, h =>
    have ha : a ≠ 0 := h a (by simp)
    have hb : b ≠ 0 := h b (by simp)
    rw [ofZeros, if_neg ha, if_neg hb]

/-- Only the byte order mark begins with the bytes of the byte order mark. -/
theorem isPrefixOf_encodeLone_eq_false {t : Text} (h : t.head? ≠ some Token.mark) :
    [0xEF, 0xBB, 0xBF].isPrefixOf (encodeLone t) = false := by
  rw [← Bool.not_eq_true, List.isPrefixOf_iff_prefix]
  rintro ⟨rest, hrest⟩
  have hread : Utf8.read true (encodeLone t) = some Token.mark :: Utf8.read true rest := by
    rw [← hrest]
    exact Utf8.readFrom_encodePoint true (c := Token.mark) (.inl rfl) rest
  have htext := Utf8.mapM_id_eq_some_iff.1 (Utf8.decodeLone?_encodeLone t)
  rw [hread] at htext
  cases t with
  | nil => cases htext
  | cons c t =>
    rw [List.map_cons, List.cons.injEq, Option.some.injEq] at htext
    exact h (by rw [htext.1]; rfl)

/-- **The bytes of a text that can be read announce UTF-8.** -/
theorem detect_encodeLone {t : Text} (hmark : t.head? ≠ some Token.mark)
    (hzero : ∀ c ∈ t.take 2, c ≠ 0) : detect (encodeLone t) = .utf8 false := by
  have hzeros := ofZeros_of_ne_zero (ne_zero_of_mem_take_encodeLone hzero)
  have hutf8 := isPrefixOf_encodeLone_eq_false hmark
  cases t with
  | nil => rfl
  | cons c t =>
    obtain ⟨b, tail, heq, hlt, hb, -⟩ := Utf8.exists_encodePoint_eq_cons c
    have hcons : encodeLone (c :: t) = UInt8.ofNat b :: (tail ++ encodeLone t) := by
      rw [encodeLone, List.flatMap_cons, heq]
      rfl
    have hne : ∀ n : UInt8, n.toNat = 0 ∨ 0xF5 ≤ n.toNat → (n == UInt8.ofNat b) = false := by
      intro n hn
      rw [beq_eq_false_iff_ne]
      rintro rfl
      rw [Utf8.toNat_ofNat (by omega)] at hn
      have hc : c.val ≠ 0 := fun h0 => hzero c (by simp) (Fin.ext h0)
      omega
    have h₀ := hne 0 (.inl rfl)
    have h₁ := hne 0xFE (.inr (by decide))
    have h₂ := hne 0xFF (.inr (by decide))
    rw [hcons] at hutf8 hzeros ⊢
    rw [detect, hutf8, hzeros]
    simp only [List.isPrefixOf, h₀, h₁, h₂, Bool.false_and, Bool.false_eq_true, if_false]

/-- The bytes of such a text are decoded to it. -/
theorem decode?_encodeLone {t : Text} (hmark : t.head? ≠ some Token.mark)
    (hzero : ∀ c ∈ t.take 2, c ≠ 0) : (detect (encodeLone t)).decode? (encodeLone t) = some t := by
  rw [detect_encodeLone hmark hzero, decode?]
  simp only [markSize, Bool.false_eq_true, if_false, List.drop_zero]
  exact Utf8.decodeLone?_encodeLone t

end Encoding

/-- **The value of a text is the value of its bytes.** -/
theorem ofBytes_encodeLone {t : Text} {v : Value} (h : ofDecoded t = .ok v) :
    ofBytes (Utf8.encodeLone t) = .ok v := by
  obtain ⟨hmark, hzero⟩ := ne_zero_of_ofDecoded h
  rw [ofBytes, Encoding.decode?_encodeLone hmark hzero]
  exact h

/-- A readable value is read back from the bytes of its text. -/
theorem ofBytes_write {v : Value} (hv : v.Readable nestingLimit) :
    ofBytes (Utf8.encodeLone (v.write compact)) = .ok v :=
  ofBytes_encodeLone (ofDecoded_write hv)

end Abacus.Json
