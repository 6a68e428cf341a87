import Mathlib
import Abacus.Proofs.Json.Token

/-!
# Tokens before a punctuation mark or a space

No token reaches as far as a punctuation mark or a space that stands behind it. A text that is cut
into tokens without a fault is cut in the same way when one of them and anything else follows it.

* `IsMark`, `IsBoundary`: the punctuation marks, and the spaces together with them;
* `Settled`, `settled`: what one code point does in a string, whatever follows it;
* `scanNumber_append`, `startsWith_word_append`, `scanPieces_append`: a number, a word and a string
  end before a boundary as they do at the end of the text;
* `Token.scan_append_iff`, `Token.exists_scan_eq`: so does every token;
* `tokensFrom_append`: so do all tokens of a text.
-/

namespace Abacus.Json

/-- A punctuation mark. -/
def IsMark (c : CodePoint) : Prop := ∃ p ∈ punctuation, CodePoint.ofChar p.1 = c

/-- A punctuation mark or a space. -/
def IsBoundary (c : CodePoint) : Prop := IsMark c ∨ Token.isSpace c = true

theorem IsMark.isBoundary {b : CodePoint} (hb : IsMark b) : IsBoundary b := .inl hb

theorem IsBoundary.eq {b : CodePoint} (hb : IsBoundary b) :
    b = CodePoint.ofChar '[' ∨ b = CodePoint.ofChar ']' ∨ b = CodePoint.ofChar '\x7b' ∨
      b = CodePoint.ofChar '\x7d' ∨ b = CodePoint.ofChar ',' ∨ b = CodePoint.ofChar ':' ∨
        b = CodePoint.ofChar ' ' ∨ b = CodePoint.ofChar '\t' ∨ b = CodePoint.ofChar '\n' ∨
          b = CodePoint.ofChar '\r' := by
  rcases hb with ⟨p, hp, rfl⟩ | hb
  · simp only [punctuation, List.mem_cons, List.not_mem_nil, or_false] at hp
    rcases hp with rfl | rfl | rfl | rfl | rfl | rfl <;> simp
  · simp only [Token.isSpace, Bool.or_eq_true, decide_eq_true_eq] at hb
    rcases hb with ((rfl | rfl) | rfl) | rfl <;> simp

namespace Token

open Number (Numeral)

variable {b : CodePoint} (hb : IsBoundary b)

include hb

/-! ## Numbers -/

theorem isDigit_of_isBoundary : b.isDigit = false := by
  rcases hb.eq with rfl | rfl | rfl | rfl | rfl | rfl | rfl | rfl | rfl | rfl <;> rfl

theorem spanDigits_append_boundary (x r : Text) :
    Text.spanDigits (x ++ b :: r) = ((Text.spanDigits x).1, (Text.spanDigits x).2 ++ b :: r) := by
  induction x with
  | nil =>
    have h := isDigit_of_isBoundary hb
    simp [Text.spanDigits, h]
  | cons c x ih =>
    rw [Text.spanDigits, Text.spanDigits, Prod.mk.injEq] at ih ⊢
    rw [List.cons_append, List.takeWhile_cons, List.takeWhile_cons, List.dropWhile_cons,
      List.dropWhile_cons]
    split_ifs
    · exact ⟨congrArg _ ih.1, ih.2⟩
    · exact ⟨rfl, rfl⟩

theorem scanSign_append_boundary (x r : Text) :
    Numeral.scanSign (x ++ b :: r) =
      ((Numeral.scanSign x).1, (Numeral.scanSign x).2 ++ b :: r) := by
  cases x with
  | nil => rcases hb.eq with rfl | rfl | rfl | rfl | rfl | rfl | rfl | rfl | rfl | rfl <;> rfl
  | cons c x =>
    rw [List.cons_append, Numeral.scanSign, Numeral.scanSign]
    split_ifs <;> rfl

theorem scanFraction_append_boundary (x r : Text) :
    Numeral.scanFraction (x ++ b :: r) =
      ((Numeral.scanFraction x).1, (Numeral.scanFraction x).2 ++ b :: r) := by
  cases x with
  | nil => rcases hb.eq with rfl | rfl | rfl | rfl | rfl | rfl | rfl | rfl | rfl | rfl <;> rfl
  | cons c x =>
    rw [List.cons_append, Numeral.scanFraction, Numeral.scanFraction]
    split_ifs
    · rw [spanDigits_append_boundary hb]
    · rfl

theorem scanExponent_append_boundary (x r : Text) :
    Numeral.scanExponent (x ++ b :: r) =
      ((Numeral.scanExponent x).1, (Numeral.scanExponent x).2 ++ b :: r) := by
  cases x with
  | nil => rcases hb.eq with rfl | rfl | rfl | rfl | rfl | rfl | rfl | rfl | rfl | rfl <;> rfl
  | cons c x =>
    rw [List.cons_append, Numeral.scanExponent, Numeral.scanExponent]
    split_ifs
    · rw [scanSign_append_boundary hb]
      dsimp only
      rw [spanDigits_append_boundary hb]
      dsimp only
      split_ifs <;> rfl
    · rfl

theorem scanWhole_append_boundary (x r : Text) : scanWhole (x ++ b :: r) = scanWhole x := by
  cases x with
  | nil => rcases hb.eq with rfl | rfl | rfl | rfl | rfl | rfl | rfl | rfl | rfl | rfl <;> rfl
  | cons c x =>
    have h := spanDigits_append_boundary hb (c :: x) r
    rw [List.cons_append] at h ⊢
    rw [scanWhole, scanWhole, h]

theorem scanFraction_append_boundary' (x r : Text) :
    scanFraction (x ++ b :: r) = scanFraction x := by
  rw [scanFraction, scanFraction, scanFraction_append_boundary hb]
  rcases Numeral.scanFraction x with ⟨_ | digits, rest⟩ <;> rfl

theorem startsWith_minus_append (x r : Text) :
    Text.startsWith (x ++ b :: r) "-" = Text.startsWith x "-" := by
  cases x with
  | nil => rcases hb.eq with rfl | rfl | rfl | rfl | rfl | rfl | rfl | rfl | rfl | rfl <;> rfl
  | cons c x => rfl

omit hb

theorem length_scanWhole_le (x : Text) : (scanWhole x).length ≤ x.length := by
  cases x with
  | nil => exact le_rfl
  | cons c x =>
    rw [scanWhole]
    split_ifs
    · simp
    · exact (List.takeWhile_prefix _).length_le

theorem length_scanFraction_lt {x digits : Text} (h : scanFraction x = some digits) :
    digits.length + 1 ≤ x.length := by
  cases x with
  | nil => cases h
  | cons c x =>
    rw [scanFraction, Numeral.scanFraction] at h
    split_ifs at h with hc
    · rw [Text.spanDigits] at h
      dsimp only at h
      split_ifs at h
      cases h
      exact Nat.succ_le_succ (List.takeWhile_prefix _).length_le

include hb

/-- **A number ends before a boundary as it does at the end of the text.** -/
theorem scanNumber_append (x r : Text) : scanNumber (x ++ b :: r) = scanNumber x := by
  have hsign : (if Text.startsWith x "-" then 1 else 0) ≤ x.length := by
    split_ifs with h
    · cases x with
      | nil => cases h
      | cons c x => simp
    · exact Nat.zero_le _
  rw [scanNumber, scanNumber]
  dsimp only
  rw [startsWith_minus_append hb, List.drop_append_of_le_length hsign]
  generalize x.drop (if Text.startsWith x "-" then 1 else 0) = y
  rw [scanWhole_append_boundary hb, List.drop_append_of_le_length (length_scanWhole_le y)]
  generalize y.drop (scanWhole y).length = z
  rw [scanFraction_append_boundary' hb]
  cases hf : scanFraction z with
  | none =>
    dsimp only
    rw [List.drop_zero, List.drop_zero, scanExponent_append_boundary hb]
    simp only [List.length_append, Nat.add_sub_add_right]
  | some digits =>
    dsimp only
    rw [List.drop_append_of_le_length (length_scanFraction_lt hf), scanExponent_append_boundary hb]
    simp only [List.length_append, Nat.add_sub_add_right]

/-! ## Words -/

/-- A word does not reach a boundary. -/
theorem startsWith_word_append {w : String × Value} (hw : w ∈ words) (x r : Text) :
    Text.startsWith (x ++ b :: r) (Text.ofString w.1) = Text.startsWith x (Text.ofString w.1) := by
  have hgeneral : ∀ (p x : Text), b ∉ p → p.isPrefixOf (x ++ b :: r) = p.isPrefixOf x := by
    intro p x hp
    induction p generalizing x with
    | nil => rfl
    | cons a p ih =>
      rw [List.mem_cons, not_or] at hp
      cases x with
      | nil =>
        have hne : (a == b) = false := beq_eq_false_iff_ne.2 (Ne.symm hp.1)
        simp [List.isPrefixOf, hne]
      | cons c x =>
        rw [List.cons_append, List.isPrefixOf, List.isPrefixOf, ih x hp.2]
  refine hgeneral _ _ ?_
  simp only [words, List.mem_cons, List.not_mem_nil, or_false] at hw
  rcases hb.eq with rfl | rfl | rfl | rfl | rfl | rfl | rfl | rfl | rfl | rfl <;>
    rcases hw with rfl | rfl | rfl | rfl | rfl | rfl <;> decide

omit hb

/-! ## Strings -/

section

variable (offset : ℕ) (place : Place) (c : CodePoint)

/-- A code point leads to another place in a string, with some pieces read, whatever follows. -/
def LeadsOn (place' : Place) (read : List Piece) : Prop :=
  ∀ rest pieces size, scanPieces offset place (c :: rest) = .ok (pieces, size) ↔
    ∃ later, scanPieces (offset + 1) place' rest = .ok (later, size) ∧ pieces = read ++ later

/-- What a code point does in a string, whatever follows: it closes it, keeps it from being read, or
leads on. -/
def Settled : Prop :=
  (∀ rest, scanPieces offset place (c :: rest) = .ok ([], offset)) ∨
    (∀ rest result, scanPieces offset place (c :: rest) ≠ .ok result) ∨
    ∃ place' read, LeadsOn offset place c place' read

variable {offset place c}

/-- A code point that leads on without a piece. -/
theorem settled_of_eq (place' : Place) (h : ∀ rest, scanPieces offset place (c :: rest) =
    scanPieces (offset + 1) place' rest) : Settled offset place c := by
  refine .inr (.inr ⟨place', [], fun rest pieces size => ?_⟩)
  rw [h]
  constructor
  · exact fun hp => ⟨pieces, hp, rfl⟩
  · rintro ⟨later, hp, rfl⟩
    exact hp

/-- A piece that is put before those of the rest. -/
theorem map_eq_ok_iff (p : Piece) (rest : Text) (pieces : List Piece) (size : ℕ) :
    (do
      let (later, size) ← scanPieces (offset + 1) .plain rest
      return (p :: later, size)) = Except.ok (pieces, size) ↔
    ∃ later, scanPieces (offset + 1) .plain rest = .ok (later, size) ∧ pieces = [p] ++ later := by
  cases scanPieces (offset + 1) .plain rest with
  | error e => simp [bind, Except.bind]
  | ok result =>
    obtain ⟨later, n⟩ := result
    simp only [bind, Except.bind, pure, Except.pure, Except.ok.injEq, Prod.mk.injEq]
    constructor
    · rintro ⟨rfl, rfl⟩
      exact ⟨later, ⟨rfl, rfl⟩, rfl⟩
    · rintro ⟨_, ⟨rfl, rfl⟩, rfl⟩
      exact ⟨rfl, rfl⟩

theorem settled_plain (offset : ℕ) (c : CodePoint) : Settled offset .plain c := by
  by_cases hquote : c = CodePoint.ofChar '"'
  · left
    intro rest
    rw [scanPieces, if_pos hquote]
  by_cases hback : c = CodePoint.ofChar '\\'
  · refine settled_of_eq .escape fun rest => ?_
    rw [scanPieces, if_neg hquote, if_pos hback]
  by_cases hcontrol : c.val ≤ 0x1F
  · right; left
    intro rest result h
    rw [scanPieces, if_neg hquote, if_neg hback, if_pos hcontrol] at h
    cases h
  · refine .inr (.inr ⟨.plain, [.plain c], fun rest pieces size => ?_⟩)
    rw [scanPieces, if_neg hquote, if_neg hback, if_neg hcontrol]
    exact map_eq_ok_iff (.plain c) rest pieces size

theorem settled_escape (offset : ℕ) (c : CodePoint) : Settled offset .escape c := by
  by_cases hu : c = CodePoint.ofChar 'u'
  · refine settled_of_eq (.hex 4 0 offset) fun rest => ?_
    rw [scanPieces, if_pos hu]
  cases hletter : simpleEscape? c with
  | none =>
    right; left
    intro rest result h
    rw [scanPieces, if_neg hu, hletter] at h
    cases h
  | some d =>
    refine .inr (.inr ⟨.plain, [.plain d], fun rest pieces size => ?_⟩)
    rw [scanPieces, if_neg hu, hletter]
    exact map_eq_ok_iff (.plain d) rest pieces size

theorem settled_hex (offset left value start : ℕ) (c : CodePoint) :
    Settled offset (.hex left value start) c := by
  cases hhex : c.hexValue? with
  | none =>
    right; left
    intro rest result h
    rw [scanPieces, hhex] at h
    cases h
  | some digit =>
    by_cases hleft : 1 < left
    · refine settled_of_eq (.hex (left - 1) (value * 16 + digit) start) fun rest => ?_
      rw [scanPieces, hhex]
      dsimp only
      rw [if_pos hleft]
    · refine .inr (.inr ⟨.plain, [.escaped (CodePoint.ofNat (value * 16 + digit))],
        fun rest pieces size => ?_⟩)
      rw [scanPieces, hhex]
      dsimp only
      rw [if_neg hleft]
      cases rest with
      | nil => simp [scanPieces]
      | cons d rest => exact map_eq_ok_iff (.escaped _) (d :: rest) pieces size

/-- **One code point of a string** closes it, or keeps it from being read whatever follows, or leads
to another place with some piece read. -/
theorem settled (offset : ℕ) (place : Place) (c : CodePoint) : Settled offset place c := by
  cases place with
  | plain => exact settled_plain offset c
  | escape => exact settled_escape offset c
  | hex left value start => exact settled_hex offset left value start c

end

/-- The count of the code points that are read with a string does not fall. -/
theorem le_of_scanPieces {offset : ℕ} {place : Place} {t : Text} {result : List Piece × ℕ}
    (h : scanPieces offset place t = .ok result) : offset ≤ result.2 := by
  induction t generalizing offset place result with
  | nil => cases place <;> cases h
  | cons c t ih =>
    obtain ⟨pieces, size⟩ := result
    rcases settled offset place c with hclose | hfail | ⟨place', read, hstep⟩
    · rw [hclose] at h
      cases h
      exact le_rfl
    · exact absurd h (hfail t _)
    · obtain ⟨later, hlater, -⟩ := (hstep t pieces size).1 h
      have := ih hlater
      dsimp only at this ⊢
      omega

/-- **A string that closes in a text is the same whatever follows the text.** -/
theorem scanPieces_append {offset : ℕ} {place : Place} {x : Text} {result : List Piece × ℕ}
    (r : Text) :
    scanPieces offset place x = .ok result ↔
      scanPieces offset place (x ++ r) = .ok result ∧ result.2 < offset + x.length := by
  obtain ⟨pieces, size⟩ := result
  induction x generalizing offset place pieces with
  | nil =>
    constructor
    · intro h
      cases place <;> cases h
    · rintro ⟨h, hlt⟩
      have := le_of_scanPieces h
      dsimp only [List.length_nil] at this hlt
      omega
  | cons c x ih =>
    rw [List.cons_append]
    rcases settled offset place c with hclose | hfail | ⟨place', read, hstep⟩
    · rw [hclose, hclose]
      constructor
      · intro h
        cases h
        exact ⟨rfl, by simp⟩
      · exact fun h => h.1
    · exact iff_of_false (hfail _ _) fun h => hfail _ _ h.1
    · rw [hstep, hstep]
      have hlength : offset + (c :: x).length = offset + 1 + x.length := by
        rw [List.length_cons]
        omega
      rw [hlength]
      constructor
      · rintro ⟨later, h, heq⟩
        obtain ⟨h', hlt⟩ := (ih _).1 h
        exact ⟨⟨later, h', heq⟩, hlt⟩
      · rintro ⟨⟨later, h, heq⟩, hlt⟩
        exact ⟨later, (ih _).2 ⟨h, hlt⟩, heq⟩

/-! ## Tokens -/

/-- A string is cut off when its pieces are read up to its closing quote. -/
theorem scanText_eq_iff {x : Text} {k : Token} {n : ℕ} (hk : ∀ f, k ≠ .fault f) :
    scanText x = ⟨k, n⟩ ↔
      ∃ pieces, scanPieces 1 .plain x = .ok (pieces, n) ∧ k = .text (joinPieces pieces) := by
  rw [scanText]
  cases scanPieces 1 .plain x with
  | error f =>
    refine iff_of_false (fun h => ?_) (by rintro ⟨pieces, ⟨⟩, -⟩)
    cases h
    exact hk f rfl
  | ok result =>
    obtain ⟨pieces, size⟩ := result
    constructor
    · intro h
      cases h
      exact ⟨pieces, rfl, rfl⟩
    · rintro ⟨pieces', h, rfl⟩
      cases h
      rfl

/-- A number is no longer than the text that it is cut from. -/
theorem le_of_scanNumber {t : Text} {k : Token} {size : ℕ} (h : scanNumber t = some (k, size)) :
    size ≤ t.length := by
  have hsign : (if Text.startsWith t "-" then 1 else 0) ≤ t.length := by
    split_ifs with h
    · cases t with
      | nil => cases h
      | cons c x => simp
    · exact Nat.zero_le _
  rw [scanNumber] at h
  dsimp only at h
  generalize (if Text.startsWith t "-" then 1 else 0) = sign at h hsign
  have hwhole := length_scanWhole_le (t.drop sign)
  have hrest : ((t.drop sign).drop (scanWhole (t.drop sign)).length).length =
      t.length - sign - (scanWhole (t.drop sign)).length := by
    rw [List.length_drop, List.length_drop]
  rw [List.length_drop] at hwhole
  by_cases hempty : (scanWhole (t.drop sign)).isEmpty = true
  · rw [if_pos hempty] at h
    cases h
  rw [if_neg hempty] at h
  generalize (scanWhole (t.drop sign)).length = whole at h hwhole hrest
  generalize (t.drop sign).drop whole = y at h hrest
  cases hf : scanFraction y with
  | none =>
    rw [hf] at h
    have hsize := (Prod.mk.inj (Option.some.inj h)).2
    simp only [List.drop_zero] at hsize
    omega
  | some digits =>
    have hlt := length_scanFraction_lt hf
    rw [hf] at h
    have hsize := (Prod.mk.inj (Option.some.inj h)).2
    simp only [List.length_drop] at hsize
    omega

include hb

/-- **A token ends before a boundary as it does at the end of the text.** -/
theorem scan_append_iff {c : CodePoint} {x : Text} {k : Token} {n : ℕ} (hk : ∀ f, k ≠ .fault f)
    (r : Text) : scan c x = ⟨k, n⟩ ↔ scan c (x ++ b :: r) = ⟨k, n⟩ ∧ n ≤ x.length := by
  have hwords : (words.find? fun w => Text.startsWith (c :: x ++ b :: r) (Text.ofString w.1)) =
      words.find? fun w => Text.startsWith (c :: x) (Text.ofString w.1) :=
    List.find?_congr fun w hw => startsWith_word_append hb hw _ r
  -- Marks, words and numbers are cut off alike: only their size is to be looked at.
  have hsize : ∀ l : Lexeme, l.extra ≤ x.length →
      (l = ⟨k, n⟩ ↔ l = ⟨k, n⟩ ∧ n ≤ x.length) := by
    intro l hl
    constructor
    · rintro rfl
      exact ⟨rfl, hl⟩
    · exact And.left
  rw [scan, scan]
  split_ifs
  · exact hsize _ (Nat.zero_le _)
  · exact hsize _ (Nat.zero_le _)
  · exact hsize _ (Nat.zero_le _)
  · exact hsize _ (Nat.zero_le _)
  · exact hsize _ (Nat.zero_le _)
  · exact hsize _ (Nat.zero_le _)
  · rw [scanText_eq_iff hk, scanText_eq_iff hk]
    constructor
    · rintro ⟨pieces, h, rfl⟩
      obtain ⟨h, hlt⟩ := (scanPieces_append (b :: r)).1 h
      exact ⟨⟨pieces, h, rfl⟩, by omega⟩
    · rintro ⟨⟨pieces, h, rfl⟩, hn⟩
      exact ⟨pieces, (scanPieces_append (b :: r)).2 ⟨h, by omega⟩, rfl⟩
  · rw [← List.cons_append, scanNumber_append hb, hwords]
    refine hsize _ ?_
    split
    · next word v h =>
      have hfound := List.find?_some h
      rw [Text.startsWith] at hfound
      have hword := (List.isPrefixOf_iff_prefix.1 hfound).length_le
      rw [Text.ofString, List.length_map, String.length_toList, List.length_cons] at hword
      dsimp only at hword ⊢
      omega
    · split
      · next h =>
        have := le_of_scanNumber h
        rw [List.length_cons] at this
        dsimp only
        omega
      · exact Nat.zero_le _

/-- A token stays the same when what stands behind it is replaced from a boundary on. -/
theorem exists_scan_eq {c : CodePoint} {t x r : Text} (hk : ∀ f, (scan c t).token ≠ .fault f)
    (h : t.drop (scan c t).extra = x ++ b :: r) :
    ∃ y, t = y ++ x ++ b :: r ∧ ∀ r', scan c (y ++ x ++ b :: r') = scan c t ∧
      (y ++ x ++ b :: r').drop (scan c t).extra = x ++ b :: r' := by
  generalize hscan : scan c t = l at hk h
  have hn : l.extra ≤ t.length := by
    by_contra hlt
    rw [List.drop_eq_nil_of_le (by omega)] at h
    simp at h
  have hlength : (t.take l.extra).length = l.extra := by
    rw [List.length_take]
    omega
  have ht : t = t.take l.extra ++ x ++ b :: r := by
    rw [List.append_assoc, ← h, List.take_append_drop]
  have hfits : l.extra ≤ (t.take l.extra ++ x).length := by
    rw [List.length_append, hlength]
    omega
  -- The token ends inside `x`, so that neither `r` nor `r'` has a part in it.
  have hshort : scan c (t.take l.extra ++ x) = l :=
    (scan_append_iff hb hk r).2 ⟨ht ▸ hscan, hfits⟩
  refine ⟨t.take l.extra, ht, fun r' => ⟨((scan_append_iff hb hk r').1 hshort).1, ?_⟩⟩
  rw [List.append_assoc, List.drop_append_of_le_length hlength.ge,
    List.drop_eq_nil_of_le hlength.le, List.nil_append]

end Token

/-- **The tokens of a text without a fault are the same before a boundary**, and those of what
begins with it follow them. -/
theorem tokensFrom_append {b : CodePoint} (hb : IsBoundary b) {offset : ℕ} {t : Text}
    (h : ∀ l ∈ tokensFrom offset t, ∀ f, l.token ≠ .fault f) (r : Text) :
    tokensFrom offset (t ++ b :: r) =
      tokensFrom offset t ++ tokensFrom (offset + t.length) (b :: r) := by
  induction offset, t using tokensFrom.induct with
  | case1 offset => rw [tokensFrom, List.nil_append, List.nil_append, List.length_nil, Nat.add_zero]
  | case2 offset c t hspace ih =>
    rw [tokensFrom, if_pos hspace] at h
    rw [List.cons_append, tokensFrom, if_pos hspace, tokensFrom, if_pos hspace, ih h,
      List.length_cons, Nat.add_right_comm, Nat.add_assoc]
  | case3 offset c t hspace lexeme ih =>
    rw [Bool.not_eq_true] at hspace
    rw [tokensFrom_cons hspace] at h
    obtain ⟨hfirst, hrest⟩ := List.forall_mem_cons.1 h
    have hself : Token.scan c t = ⟨(Token.scan c t).token, (Token.scan c t).extra⟩ := rfl
    obtain ⟨hscan, hn⟩ := (Token.scan_append_iff hb hfirst r).1 hself
    rw [List.cons_append, tokensFrom_cons hspace, tokensFrom_cons hspace, hscan]
    dsimp only
    have hlength : offset + 1 + (Token.scan c t).extra + (t.drop (Token.scan c t).extra).length =
        offset + (c :: t).length := by
      rw [List.length_drop, List.length_cons]
      omega
    rw [List.drop_append_of_le_length hn, ih hrest, List.cons_append, ← hlength]

end Abacus.Json
