import Mathlib
import Abacus.Proofs.Json.Mark
import Abacus.Proofs.Json.Scalar
import Abacus.Proofs.Number.Reading
import Abacus.Proofs.Text.Line

/-!
# How a text that is read is laid out

A text with a value consists of spaces, of tokens in visible characters of ASCII, and of strings. So
whatever is neither a space nor visible stands between quotes, where it is no control character; and
the blanks around such a text are spaces, without which it has the same value.

* `IsVisible`, `IsLexeme`, `LaidOut`: what tokens are made of, and texts that consist of tokens and
  spaces;
* `Token.isLexeme`, `laidOut_of_tokensFrom`, `Reads.laidOut`: tokens that are no faults, and texts
  with a value;
* `LaidOut.quoted`: what is neither a space nor visible stands between quotes;
* `ofText_trim`: the text without the blanks around it.
-/

namespace Abacus.Json

open Number (Numeral)
open Number.Numeral (IsFigure)

/-- A visible character of ASCII. -/
def IsVisible (c : CodePoint) : Prop := 0x21 ≤ c.val ∧ c.val ≤ 0x7E

/-- What a token is cut from: visible characters, or quotes around anything but control characters.
-/
inductive IsLexeme : Text → Prop
  | visible {c : CodePoint} {t : Text} (h : ∀ d ∈ c :: t, IsVisible d) : IsLexeme (c :: t)
  | quoted {t : Text} (h : ∀ c ∈ t, 0x20 ≤ c.val) :
      IsLexeme (CodePoint.ofChar '"' :: (t ++ [CodePoint.ofChar '"']))

/-- A text that consists of tokens and spaces. -/
inductive LaidOut : Text → Prop
  | nil : LaidOut []
  | space {c : CodePoint} {t : Text} (hc : Token.isSpace c = true) (ht : LaidOut t) :
      LaidOut (c :: t)
  | token {u t : Text} (hu : IsLexeme u) (ht : LaidOut t) : LaidOut (u ++ t)

theorem not_isVisible_ne_quote {c : CodePoint} (hc : ¬IsVisible c) : c ≠ CodePoint.ofChar '"' := by
  rintro rfl
  exact hc ⟨by decide, by decide⟩

/-- What is not visible in a token stands between its quotes. -/
theorem IsLexeme.quotes {u a b : Text} {c : CodePoint} (hu : IsLexeme u) (h : u = a ++ c :: b)
    (hc : ¬IsVisible c) :
    0x20 ≤ c.val ∧ CodePoint.ofChar '"' ∈ a ∧ CodePoint.ofChar '"' ∈ b := by
  have hquote := not_isVisible_ne_quote hc
  cases hu with
  | visible hvisible => exact absurd (hvisible c (by rw [h]; simp)) hc
  | @quoted t hcontrol =>
    cases a with
    | nil => exact absurd (List.cons.inj h).1.symm hquote
    | cons d a =>
      rw [List.cons_append] at h
      obtain ⟨rfl, hinside⟩ := List.cons.inj h
      rcases List.append_eq_append_iff.1 hinside with ⟨e, rfl, heq⟩ | ⟨e, rfl, heq⟩
      · rcases List.cons_eq_append_iff.1 heq with ⟨rfl, heq⟩ | ⟨e, rfl, heq⟩
        · exact absurd (List.cons.inj heq).1.symm hquote
        · simp at heq
      · cases e with
        | nil => exact absurd (List.cons.inj heq).1 hquote
        | cons d e =>
          obtain ⟨rfl, rfl⟩ := List.cons.inj heq
          exact ⟨hcontrol c (by simp), List.mem_cons_self, by simp⟩

theorem isVisible_of_isFigure {c : CodePoint} (h : IsFigure c) : IsVisible c := by
  rcases h with h | rfl | rfl | rfl | rfl | rfl
  · rw [CodePoint.isDigit, Bool.and_eq_true, decide_eq_true_eq, decide_eq_true_eq] at h
    exact ⟨by omega, by omega⟩
  all_goals exact ⟨by decide, by decide⟩

namespace Token

/-! ## Strings -/

/-- A control character keeps a string from being read. -/
theorem scanPieces_control {c : CodePoint} (hc : c.val ≤ 0x1F) (offset : ℕ) (place : Place)
    (rest : Text) (result : List Piece × ℕ) : scanPieces offset place (c :: rest) ≠ .ok result := by
  have hne : ∀ a : Char, 0x20 ≤ (CodePoint.ofChar a).val → c ≠ CodePoint.ofChar a := by
    rintro a ha rfl
    omega
  intro h
  cases place with
  | plain =>
    rw [scanPieces, if_neg (hne _ (by decide)), if_neg (hne _ (by decide)), if_pos hc] at h
    cases h
  | escape =>
    have hletter : simpleEscape? c = none := by
      simp [simpleEscape?, hne '"' (by decide), hne '\\' (by decide), hne '/' (by decide),
        hne 'b' (by decide), hne 'f' (by decide), hne 'n' (by decide), hne 'r' (by decide),
        hne 't' (by decide)]
    rw [scanPieces, if_neg (hne _ (by decide)), hletter] at h
    cases h
  | hex left value start =>
    have hdigit : c.hexValue? = none := by
      rw [CodePoint.hexValue?, CodePoint.isDigit]
      simp only [Bool.and_eq_true, decide_eq_true_eq]
      rw [if_neg (by omega), if_neg (by omega), if_neg (by omega)]
    rw [scanPieces, hdigit] at h
    cases h

/-- Only a quote closes a string. -/
theorem eq_quote_of_closes {c : CodePoint} {offset : ℕ} {place : Place}
    (h : ∀ rest, scanPieces offset place (c :: rest) = .ok ([], offset)) :
    c = CodePoint.ofChar '"' := by
  have h := h []
  cases place with
  | plain =>
    rw [scanPieces] at h
    split_ifs at h with hquote
    · exact hquote
    · cases h
    · cases h
  | escape =>
    rw [scanPieces] at h
    split_ifs at h
    · cases h
    · split at h <;> cases h
  | hex left value start =>
    rw [scanPieces] at h
    split at h
    · cases h
    · dsimp only at h
      split_ifs at h <;> cases h

/-- **A string is read up to a quote**, without control characters before it. -/
theorem exists_quote {offset : ℕ} {place : Place} {t : Text} {pieces : List Piece} {size : ℕ}
    (h : scanPieces offset place t = .ok (pieces, size)) :
    ∃ u rest, t = u ++ CodePoint.ofChar '"' :: rest ∧ size = offset + u.length ∧
      ∀ c ∈ u, 0x20 ≤ c.val := by
  induction t generalizing offset place pieces with
  | nil => cases place <;> cases h
  | cons c t ih =>
    rcases settled offset place c with hclose | hfail | ⟨place', read, hstep⟩
    · obtain rfl := eq_quote_of_closes hclose
      rw [hclose] at h
      cases h
      exact ⟨[], t, rfl, rfl, by simp⟩
    · exact absurd h (hfail t _)
    · obtain ⟨later, hlater, -⟩ := (hstep t pieces size).1 h
      obtain ⟨u, rest, rfl, rfl, hu⟩ := ih hlater
      have hc : 0x20 ≤ c.val := by
        by_contra hlt
        exact scanPieces_control (by omega) offset place _ _ h
      refine ⟨c :: u, rest, rfl, ?_, List.forall_mem_cons.2 ⟨hc, hu⟩⟩
      rw [List.length_cons]
      omega

/-! ## Numbers -/

/-- The first code points of a text are figures. -/
def Figures (t : Text) (n : ℕ) : Prop := ∀ c ∈ t.take n, IsFigure c

theorem figures_zero (t : Text) : Figures t 0 := by simp [Figures]

theorem Figures.add {t : Text} {m n : ℕ} (hm : Figures t m) (hn : Figures (t.drop m) n) :
    Figures t (m + n) := by
  rw [Figures, List.take_add]
  exact List.forall_mem_append.2 ⟨hm, hn⟩

theorem figures_cons {c : CodePoint} {t : Text} {n : ℕ} (hc : IsFigure c) (ht : Figures t n) :
    Figures (c :: t) (n + 1) := by
  rw [Figures, List.take_succ_cons]
  exact List.forall_mem_cons.2 ⟨hc, ht⟩

theorem figures_of_consumes {t rest : Text} (h : Numeral.Consumes t rest) :
    Figures t (t.length - rest.length) := by
  obtain ⟨u, rfl, hu⟩ := h
  rw [Figures, List.length_append, Nat.add_sub_cancel, List.take_left]
  exact hu

theorem figures_of_digits {t u : Text} (hu : u <+: t) (h : ∀ c ∈ u, c.isDigit = true) :
    Figures t u.length := by
  rw [Figures, ← List.prefix_iff_eq_take.1 hu]
  exact fun c hc => .inl (h c hc)

theorem figures_scanWhole (t : Text) : Figures t (scanWhole t).length := by
  cases t with
  | nil => exact figures_zero []
  | cons c t =>
    rw [scanWhole]
    split_ifs with hc
    · subst hc
      exact figures_cons (.inl rfl) (figures_zero t)
    · exact figures_of_digits (List.takeWhile_prefix _) fun _ => List.mem_takeWhile_imp

theorem figures_scanFraction {t digits : Text} (h : scanFraction t = some digits) :
    Figures t (digits.length + 1) := by
  cases t with
  | nil => cases h
  | cons c t =>
    rw [scanFraction, Numeral.scanFraction] at h
    split_ifs at h with hc
    · dsimp only at h
      split_ifs at h
      cases h
      exact figures_cons (.inr (.inr (.inr (.inl hc))))
        (figures_of_digits (List.takeWhile_prefix _) fun _ => List.mem_takeWhile_imp)

/-- **A number is made of figures**, one at least. -/
theorem figures_of_scanNumber {t : Text} {k : Token} {size : ℕ}
    (h : scanNumber t = some (k, size)) : 0 < size ∧ Figures t size := by
  have hsign : Figures t (if Text.startsWith t "-" then 1 else 0) := by
    split_ifs with h
    · cases t with
      | nil => exact figures_zero []
      | cons c t =>
        have hc : CodePoint.ofChar '-' = c := by simpa [Text.startsWith, Text.ofString] using h
        exact figures_cons (.inr (.inr (.inl hc.symm))) (figures_zero t)
    · exact figures_zero t
  rw [scanNumber] at h
  dsimp only at h
  generalize (if Text.startsWith t "-" then 1 else 0) = sign at h hsign
  have hwhole := figures_scanWhole (t.drop sign)
  by_cases hempty : (scanWhole (t.drop sign)).isEmpty = true
  · rw [if_pos hempty] at h
    cases h
  rw [if_neg hempty] at h
  have hpos : 0 < (scanWhole (t.drop sign)).length :=
    List.length_pos_of_ne_nil fun h => hempty (List.isEmpty_iff.2 h)
  have hfront := hsign.add hwhole
  rw [List.drop_drop] at h
  generalize (scanWhole (t.drop sign)).length = whole at h hpos hfront
  cases hf : scanFraction (t.drop (sign + whole)) with
  | none =>
    rw [hf] at h
    obtain rfl := (Prod.mk.inj (Option.some.inj h)).2
    refine ⟨by omega, (hfront.add (figures_zero _)).add ?_⟩
    exact figures_of_consumes (Numeral.consumes_scanExponent _)
  | some digits =>
    rw [hf] at h
    obtain rfl := (Prod.mk.inj (Option.some.inj h)).2
    refine ⟨by omega, (hfront.add (figures_scanFraction hf)).add ?_⟩
    rw [← List.drop_drop]
    exact figures_of_consumes (Numeral.consumes_scanExponent _)

/-! ## Tokens -/

theorem isVisible_of_mem_words {w : String × Value} (hw : w ∈ words) :
    0 < (Text.ofString w.1).length ∧ ∀ c ∈ Text.ofString w.1, IsVisible c := by
  have hall : 0 < (Text.ofString w.1).length ∧
      (Text.ofString w.1).all (fun c => 0x21 ≤ c.val && c.val ≤ 0x7E) = true := by
    simp only [words, List.mem_cons, List.not_mem_nil, or_false] at hw
    rcases hw with rfl | rfl | rfl | rfl | rfl | rfl <;> decide
  refine ⟨hall.1, fun c hc => ?_⟩
  simpa only [Bool.and_eq_true, decide_eq_true_eq, IsVisible] using List.all_eq_true.1 hall.2 c hc

theorem isLexeme_take {c : CodePoint} {t : Text} {n : ℕ} (hn : 0 < n)
    (h : ∀ d ∈ (c :: t).take n, IsVisible d) : IsLexeme (c :: t.take (n - 1)) := by
  refine .visible ?_
  rwa [← List.take_succ_cons, Nat.sub_add_cancel hn]

theorem isLexeme_scanText {t : Text} (hk : ∀ f, (scanText t).token ≠ .fault f) :
    IsLexeme (CodePoint.ofChar '"' :: t.take (scanText t).extra) := by
  rw [scanText] at hk ⊢
  cases hpieces : scanPieces 1 .plain t with
  | error f =>
    rw [hpieces] at hk
    exact absurd rfl (hk f)
  | ok result =>
    obtain ⟨pieces, size⟩ := result
    obtain ⟨u, rest, rfl, rfl, hu⟩ := exists_quote hpieces
    have htake : (u ++ CodePoint.ofChar '"' :: rest).take (1 + u.length) =
        u ++ [CodePoint.ofChar '"'] := by
      rw [List.take_append, List.take_of_length_le (by omega), Nat.add_sub_cancel]
      rfl
    dsimp only
    rw [htake]
    exact .quoted hu

theorem isLexeme_word {c : CodePoint} {t : Text} {w : String × Value}
    (hword : (words.find? fun w => Text.startsWith (c :: t) (Text.ofString w.1)) = some w) :
    IsLexeme (c :: t.take (w.1.length - 1)) := by
  obtain ⟨hpos, hvisible⟩ := isVisible_of_mem_words (List.mem_of_find?_eq_some hword)
  have hstarts := List.find?_some hword
  rw [Text.startsWith, List.isPrefixOf_iff_prefix] at hstarts
  have hlength : (Text.ofString w.1).length = w.1.length := by
    rw [Text.ofString, List.length_map, String.length_toList]
  rw [← hlength]
  refine isLexeme_take hpos ?_
  rwa [← List.prefix_iff_eq_take.1 hstarts]

/-- **What a token is cut from**, unless it is a fault. -/
theorem isLexeme {c : CodePoint} {t : Text} (hk : ∀ f, (scan c t).token ≠ .fault f) :
    IsLexeme (c :: t.take (scan c t).extra) := by
  have hmark : ∀ a : Char, IsVisible (CodePoint.ofChar a) → c = CodePoint.ofChar a →
      IsLexeme [c] := by
    rintro a ha rfl
    exact .visible (List.forall_mem_singleton.2 ha)
  rw [scan] at hk ⊢
  split_ifs at hk ⊢ with h₁ h₂ h₃ h₄ h₅ h₆ h₇
  · exact hmark _ ⟨by decide, by decide⟩ h₁
  · exact hmark _ ⟨by decide, by decide⟩ h₂
  · exact hmark _ ⟨by decide, by decide⟩ h₃
  · exact hmark _ ⟨by decide, by decide⟩ h₄
  · exact hmark _ ⟨by decide, by decide⟩ h₅
  · exact hmark _ ⟨by decide, by decide⟩ h₆
  · rw [h₇]
    exact isLexeme_scanText hk
  · cases hword : words.find? fun w => Text.startsWith (c :: t) (Text.ofString w.1) with
    | some w => exact isLexeme_word hword
    | none =>
      rw [hword] at hk
      dsimp only at hk ⊢
      cases hnumber : scanNumber (c :: t) with
      | none =>
        rw [hnumber] at hk
        exact absurd rfl (hk .unknown)
      | some result =>
        obtain ⟨k, size⟩ := result
        obtain ⟨hpos, hfigures⟩ := figures_of_scanNumber hnumber
        exact isLexeme_take hpos fun d hd => isVisible_of_isFigure (hfigures d hd)

end Token

/-- **A text whose tokens are no faults consists of tokens and spaces.** -/
theorem laidOut_of_tokensFrom {offset : ℕ} {t : Text}
    (h : ∀ l ∈ tokensFrom offset t, ∀ f, l.token ≠ .fault f) : LaidOut t := by
  induction offset, t using tokensFrom.induct with
  | case1 offset => exact .nil
  | case2 offset c t hspace ih =>
    rw [tokensFrom, if_pos hspace] at h
    exact .space hspace (ih h)
  | case3 offset c t hspace lexeme ih =>
    rw [Bool.not_eq_true] at hspace
    rw [tokensFrom_cons hspace] at h
    obtain ⟨hfirst, hrest⟩ := List.forall_mem_cons.1 h
    have hlaid := LaidOut.token (Token.isLexeme hfirst) (ih hrest)
    rwa [List.cons_append, List.take_append_drop] at hlaid

theorem Reads.laidOut {t : Text} {v : Value} (h : Reads t v) : LaidOut t :=
  laidOut_of_tokensFrom (Reader.Reads.not_fault h)

/-- **What is neither a space nor visible stands between quotes**, and is no control character. -/
theorem LaidOut.quoted {t : Text} (h : LaidOut t) {a b : Text} {c : CodePoint}
    (ht : t = a ++ c :: b) (hspace : Token.isSpace c = false) (hc : ¬IsVisible c) :
    0x20 ≤ c.val ∧ CodePoint.ofChar '"' ∈ a ∧ CodePoint.ofChar '"' ∈ b := by
  induction h generalizing a with
  | nil => simp at ht
  | @space d t hd _ ih =>
    rcases List.cons_eq_append_iff.1 ht with ⟨rfl, heq⟩ | ⟨a, rfl, heq⟩
    · cases heq
      rw [hd] at hspace
      cases hspace
    · exact (ih heq).imp_right fun ⟨ha, hb⟩ => ⟨List.mem_cons_of_mem _ ha, hb⟩
  | @token u t hu _ ih =>
    rcases List.append_eq_append_iff.1 ht with ⟨a, rfl, heq⟩ | ⟨e, rfl, heq⟩
    · exact (ih heq).imp_right fun ⟨ha, hb⟩ => ⟨List.mem_append_right _ ha, hb⟩
    · cases e with
      | nil =>
        -- The token ends before it, so that it would stand at the front of the rest.
        obtain ⟨-, hfront, -⟩ := ih (a := []) heq.symm
        exact absurd hfront List.not_mem_nil
      | cons d e =>
        obtain ⟨rfl, rfl⟩ := List.cons.inj heq
        exact (hu.quotes rfl hc).imp_right fun ⟨ha, hb⟩ => ⟨ha, List.mem_append_left _ hb⟩

/-! ## Blanks around a text -/

theorem not_isVisible_of_isBlank {c : CodePoint} (hc : c.isBlank = true) : ¬IsVisible c := by
  simp only [CodePoint.isBlank, CodePoint.blanks, List.any_cons, List.any_nil, Bool.or_eq_true,
    Bool.and_eq_true, decide_eq_true_eq, Bool.or_false] at hc
  rintro ⟨hlow, hhigh⟩
  omega

/-- A blank with nothing but blanks on one side is a space. -/
theorem LaidOut.isSpace_of_isBlank {t : Text} (h : LaidOut t) {a b : Text} {c : CodePoint}
    (ht : t = a ++ c :: b) (hc : c.isBlank = true)
    (hside : (∀ d ∈ a, d.isBlank = true) ∨ ∀ d ∈ b, d.isBlank = true) :
    Token.isSpace c = true := by
  by_contra hspace
  obtain ⟨-, ha, hb⟩ := h.quoted ht (Bool.not_eq_true _ ▸ hspace) (not_isVisible_of_isBlank hc)
  have hquote : ¬(CodePoint.ofChar '"').isBlank = true := by decide
  exact hquote (hside.elim (fun h => h _ ha) fun h => h _ hb)

/-- A text that is laid out is what is left of it without the blanks around it, and spaces. -/
theorem LaidOut.exists_eq_trim {t : Text} (h : LaidOut t) :
    ∃ before after, t = before ++ t.trim ++ after ∧ (∀ c ∈ before, Token.isSpace c = true) ∧
      ∀ c ∈ after, Token.isSpace c = true := by
  obtain ⟨before, after, ht, hbefore, hafter⟩ := Text.exists_eq_trimWith CodePoint.isBlank t
  refine ⟨before, after, ht, fun c hc => ?_, fun c hc => ?_⟩
  · obtain ⟨a, b, rfl⟩ := List.append_of_mem hc
    obtain ⟨ha, hc, -⟩ := List.forall_mem_append.1 hbefore |>.imp_right List.forall_mem_cons.1
    rw [List.append_assoc, List.append_assoc] at ht
    exact h.isSpace_of_isBlank ht hc (.inl ha)
  · obtain ⟨a, b, rfl⟩ := List.append_of_mem hc
    obtain ⟨-, hc, hb⟩ := List.forall_mem_append.1 hafter |>.imp_right List.forall_mem_cons.1
    rw [← List.append_assoc] at ht
    exact h.isSpace_of_isBlank ht hc (.inr hb)

/-- Spaces in front of a text only move its tokens. -/
theorem tokensFrom_append_of_spaces {sp : Text} (hsp : ∀ c ∈ sp, Token.isSpace c = true)
    (offset : ℕ) (t : Text) : tokensFrom offset (sp ++ t) = tokensFrom (offset + sp.length) t := by
  induction sp generalizing offset with
  | nil => rfl
  | cons c sp ih =>
    obtain ⟨hc, hsp⟩ := List.forall_mem_cons.1 hsp
    rw [List.cons_append, tokensFrom, if_pos hc, ih hsp, List.length_cons, Nat.add_right_comm,
      Nat.add_assoc]

theorem tokensFrom_of_spaces {sp : Text} (hsp : ∀ c ∈ sp, Token.isSpace c = true) (offset : ℕ) :
    tokensFrom offset sp = [] := by
  have h := tokensFrom_append_of_spaces hsp offset []
  rwa [List.append_nil, tokensFrom] at h

theorem isSpace_of_lt {c : CodePoint} (hc : 0x20 < c.val) : Token.isSpace c = false := by
  rw [Token.isSpace, ← Bool.not_eq_true]
  simp only [Bool.or_eq_true, decide_eq_true_eq]
  rintro (((rfl | rfl) | rfl) | rfl) <;> exact absurd hc (by decide)

/-- A token ends in something visible. -/
theorem IsLexeme.isVisible_last {u : Text} (hu : IsLexeme u) {c : CodePoint} {t : Text}
    (h : u = t ++ [c]) : IsVisible c := by
  cases hu with
  | visible hvisible => exact hvisible c (by rw [h]; simp)
  | quoted _ =>
    have hlast := congrArg List.getLast? h
    rw [← List.cons_append, List.getLast?_concat, List.getLast?_concat] at hlast
    obtain rfl := Option.some.inj hlast
    exact ⟨by decide, by decide⟩

/-- A token does not reach into the spaces behind it. -/
theorem Token.extra_le {c : CodePoint} {t sp : Text} (hne : sp ≠ [])
    (hsp : ∀ d ∈ sp, isSpace d = true) (hk : ∀ f, (scan c (t ++ sp)).token ≠ .fault f) :
    (scan c (t ++ sp)).extra ≤ t.length := by
  by_contra hlt
  have hlexeme := isLexeme hk
  generalize (scan c (t ++ sp)).extra = n at hlt hlexeme
  rw [List.take_append, List.take_of_length_le (by omega)] at hlexeme
  rcases List.eq_nil_or_concat' (sp.take (n - t.length)) with hnil | ⟨front, d, hcons⟩
  · rcases List.take_eq_nil_iff.1 hnil with hzero | hnil
    · omega
    · exact hne hnil
  · have hd : d ∈ sp := List.mem_of_mem_take (by rw [hcons]; simp)
    rw [hcons, ← List.append_assoc, ← List.cons_append] at hlexeme
    have hspace := isSpace_of_lt (hlexeme.isVisible_last rfl).1
    rw [hsp d hd] at hspace
    cases hspace

/-- **Spaces behind a text whose tokens are no faults have no part in them.** -/
theorem tokensFrom_of_append_spaces {sp : Text} (hsp : ∀ c ∈ sp, Token.isSpace c = true)
    {offset : ℕ} {t : Text}
    (h : ∀ l ∈ tokensFrom offset (t ++ sp), ∀ f, l.token ≠ .fault f) :
    tokensFrom offset (t ++ sp) = tokensFrom offset t := by
  cases sp with
  | nil => rw [List.append_nil]
  | cons b sp =>
    have hb : IsBoundary b := .inr (hsp b List.mem_cons_self)
    induction offset, t using tokensFrom.induct with
    | case1 offset =>
      rw [List.nil_append, tokensFrom_of_spaces hsp, tokensFrom]
    | case2 offset c t hspace ih =>
      rw [List.cons_append, tokensFrom, if_pos hspace] at h ⊢
      rw [ih h, tokensFrom.eq_2, if_pos hspace]
    | case3 offset c t hspace lexeme ih =>
      rw [Bool.not_eq_true] at hspace
      rw [List.cons_append, tokensFrom_cons hspace] at h ⊢
      obtain ⟨hfirst, hrest⟩ := List.forall_mem_cons.1 h
      have hle := Token.extra_le (List.cons_ne_nil _ _) hsp hfirst
      have hscan : Token.scan c t = Token.scan c (t ++ b :: sp) :=
        (Token.scan_append_iff hb hfirst sp).2 ⟨rfl, hle⟩
      rw [List.drop_append_of_le_length hle, ← hscan] at hrest ⊢
      rw [tokensFrom_cons hspace, ih hrest]

namespace Reader

/-- What a token leads to does not depend on where it stands. -/
theorem step_of_offset {s s' : State} {k : Token} {offset : ℕ} (h : step s ⟨k, offset⟩ = .ok s')
    (offset' : ℕ) : step s ⟨k, offset'⟩ = .ok s' := by
  have hk := not_fault_of_step h
  cases s with
  | after stack v =>
    rcases stack with _ | ⟨_ | _, stack⟩ <;> cases k <;> first | exact h | cases h
  | value | itemOrEnd | nameOrEnd | name | colon =>
    cases k with
    | fault f => exact absurd rfl (hk f)
    | _ => first | exact h | cases h

/-- **A reading depends on the tokens only**, not on where they stand. -/
theorem Reads.of_map_token_eq {s : State} {ts ts' : List Located} {v : Value} (h : Reads s ts v)
    (hts : ts'.map Located.token = ts.map Located.token) : Reads s ts' v := by
  induction h generalizing ts' with
  | done v =>
    obtain rfl := List.map_eq_nil_iff.1 hts
    exact .done v
  | @next s s' t ts v hstep _ ih =>
    obtain ⟨⟨k, offset⟩, ts', rfl, rfl, hrest⟩ := List.map_eq_cons_iff.1 hts
    exact .next (step_of_offset hstep offset) (ih hrest)

end Reader

/-- **A text with a value has it without the blanks around it.** -/
theorem Reads.trim {t : Text} {v : Value} (h : Reads t v) : Reads t.trim v := by
  obtain ⟨before, after, ht, hbefore, hafter⟩ := h.laidOut.exists_eq_trim
  have htokens : tokens t = tokensFrom before.length (t.trim ++ after) := by
    conv_lhs =>
      rw [tokens, ht, List.append_assoc, tokensFrom_append_of_spaces hbefore, Nat.zero_add]
  have hfault := Reader.Reads.not_fault h
  rw [htokens] at hfault
  rw [tokensFrom_of_append_spaces hafter hfault] at htokens
  have hadd := tokensFrom_add before.length 0 t.trim
  refine Reader.Reads.of_map_token_eq h ?_
  rw [htokens, ← Nat.add_zero before.length, hadd, List.map_map]
  rfl

/-- A text with a value has something visible in it. -/
theorem LaidOut.eq_spaces_or {t : Text} (h : LaidOut t) :
    (∀ c ∈ t, Token.isSpace c = true) ∨ ∃ c ∈ t, IsVisible c := by
  induction h with
  | nil => exact .inl (by simp)
  | @space c t hc _ ih =>
    refine ih.imp (fun h => List.forall_mem_cons.2 ⟨hc, h⟩) fun ⟨d, hd, hvisible⟩ => ?_
    exact ⟨d, List.mem_cons_of_mem _ hd, hvisible⟩
  | @token u t hu _ ih =>
    right
    cases hu with
    | @visible c _ h => exact ⟨c, by simp, h c List.mem_cons_self⟩
    | quoted _ => exact ⟨CodePoint.ofChar '"', by simp, by decide, by decide⟩

theorem Reads.exists_isVisible {t : Text} {v : Value} (h : Reads t v) : ∃ c ∈ t, IsVisible c := by
  refine h.laidOut.eq_spaces_or.resolve_left fun hspaces => ?_
  rw [Reads, tokens, tokensFrom_of_spaces hspaces] at h
  cases h

/-- **A line of JSON has its value without the blanks around it.** -/
theorem ofText_trim {t : Text} {v : Value} (h : ofText t = .ok v) : ofText t.trim = .ok v := by
  have hreads := ofDecoded_eq_ok_iff.1 (ofDecoded_of_ofText h)
  have htrim := ofDecoded_eq_ok_iff.2 hreads.trim
  obtain ⟨before, after, ht, hbefore, -⟩ := hreads.laidOut.exists_eq_trim
  cases hcons : t.trim with
  | nil => rwa [hcons] at htrim
  | cons c rest =>
    have hmark : ¬c.val = 0xFEFF := fun hc => by
      rw [hcons, List.append_assoc, List.cons_append] at ht
      have hvisible : ¬IsVisible c := fun h => absurd h.2 (by omega)
      obtain ⟨-, hquote, -⟩ := hreads.laidOut.quoted ht (isSpace_of_lt (by omega)) hvisible
      exact absurd (hbefore _ hquote) (by decide)
    rwa [ofText, if_neg hmark, ← hcons]

end Abacus.Json
