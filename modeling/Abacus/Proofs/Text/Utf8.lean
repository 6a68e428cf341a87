import Mathlib
import Abacus.Text.Utf8

/-!
# UTF-8, written and read

* `readFrom_encodePoint`: the bytes of a code point are read as that code point, those of a
  surrogate only when surrogates may pass;
* `decodeLone?_encodeLone`: reading gives back the text that was written;
* `isSurrogate_of_decode?`: what is read strictly holds no surrogate. `Owed.Sound` is the invariant
  of the reader inside a code point;
* `exists_encodePoint_eq_cons`: what the bytes of a code point say about it.
-/

namespace Abacus.Utf8

/-! ## Reading what was written -/

theorem toNat_ofNat {n : ℕ} (h : n < 256) : (UInt8.ofNat n).toNat = n := by
  rw [UInt8.toNat_ofNat', Nat.mod_eq_of_lt h]

theorem ofNat_val (c : CodePoint) : CodePoint.ofNat c.val = c :=
  Fin.ext (Nat.mod_eq_of_lt c.isLt)

/-- The last byte that is owed ends the code point. -/
theorem readFrom_last (lone : Bool) {bits low high n : ℕ} (hn : n < 256) (hlow : low ≤ n)
    (hhigh : n ≤ high) (rest : Bytes) :
    readFrom lone (some ⟨1, bits, low, high⟩) (UInt8.ofNat n :: rest) =
      some (CodePoint.ofNat (bits * 64 + n % 64)) :: readFrom lone none rest := by
  rw [readFrom, toNat_ofNat hn]
  simp [hlow, hhigh]

/-- Any other byte that is owed gives six more bits. -/
theorem readFrom_next (lone : Bool) {left bits low high n : ℕ} (hn : n < 256) (hlow : low ≤ n)
    (hhigh : n ≤ high) (rest : Bytes) :
    readFrom lone (some ⟨left + 2, bits, low, high⟩) (UInt8.ofNat n :: rest) =
      readFrom lone (some ⟨left + 1, bits * 64 + n % 64, 0x80, 0xBF⟩) rest := by
  rw [readFrom, toNat_ofNat hn]
  simp [hlow, hhigh]

theorem readFrom_of_more {lone : Bool} {n : ℕ} {owed : Owed}
    (h : lead lone (UInt8.ofNat n) = .more owed) (rest : Bytes) :
    readFrom lone none (UInt8.ofNat n :: rest) = readFrom lone (some owed) rest := by
  rw [readFrom, h]

theorem lead_one (lone : Bool) {n : ℕ} (h : n < 0x80) :
    lead lone (UInt8.ofNat n) = .point (CodePoint.ofNat n) := by
  rw [lead, toNat_ofNat (by omega), if_pos h]

theorem lead_two (lone : Bool) {n : ℕ} (h₁ : 0xC2 ≤ n) (h₂ : n < 0xE0) :
    lead lone (UInt8.ofNat n) = .more ⟨1, n - 0xC0, 0x80, 0xBF⟩ := by
  rw [lead, toNat_ofNat (by omega), if_neg (by omega), if_neg (by omega), if_pos h₂]

theorem lead_three (lone : Bool) {n : ℕ} (h₁ : 0xE0 ≤ n) (h₂ : n < 0xF0) :
    lead lone (UInt8.ofNat n) =
      .more ⟨2, n - 0xE0, if n = 0xE0 then 0xA0 else 0x80,
        if n = 0xED ∧ lone = false then 0x9F else 0xBF⟩ := by
  rw [lead, toNat_ofNat (by omega), if_neg (by omega), if_neg (by omega), if_neg (by omega)]
  by_cases h₃ : n = 0xE0
  · subst h₃
    rfl
  by_cases h₄ : n = 0xED
  · subst h₄
    cases lone <;> rfl
  · rw [if_neg h₃, if_neg h₄, if_pos h₂, if_neg h₃, if_neg fun h => h₄ h.1]

theorem lead_four (lone : Bool) {n : ℕ} (h₁ : 0xF0 ≤ n) (h₂ : n < 0xF5) :
    lead lone (UInt8.ofNat n) =
      .more ⟨3, n - 0xF0, if n = 0xF0 then 0x90 else 0x80, if n = 0xF4 then 0x8F else 0xBF⟩ := by
  rw [lead, toNat_ofNat (by omega), if_neg (by omega), if_neg (by omega), if_neg (by omega),
    if_neg (by omega), if_neg (by omega), if_neg (by omega)]
  by_cases h₃ : n = 0xF0
  · subst h₃
    rfl
  by_cases h₄ : n = 0xF4
  · subst h₄
    rfl
  · rw [if_neg h₃, if_pos (by omega), if_neg h₃, if_neg h₄]

/-- The four forms of the bytes of a code point. -/
theorem encodePoint_eq (c : CodePoint) :
    encodePoint c =
      if c.val < 0x80 then [UInt8.ofNat c.val]
      else if c.val < 0x800 then
        [UInt8.ofNat (0xC0 + c.val / 64), UInt8.ofNat (0x80 + c.val % 64)]
      else if c.val < 0x10000 then
        [UInt8.ofNat (0xE0 + c.val / 4096), UInt8.ofNat (0x80 + c.val / 64 % 64),
          UInt8.ofNat (0x80 + c.val % 64)]
      else
        [UInt8.ofNat (0xF0 + c.val / 262144), UInt8.ofNat (0x80 + c.val / 4096 % 64),
          UInt8.ofNat (0x80 + c.val / 64 % 64), UInt8.ofNat (0x80 + c.val % 64)] := by
  rw [encodePoint]
  simp only [show Nat.pow 64 0 = 1 from rfl, show Nat.pow 64 1 = 64 from rfl,
    show Nat.pow 64 2 = 4096 from rfl, show Nat.pow 64 3 = 262144 from rfl, Nat.div_one]

/-- **The bytes of a code point are read as that code point.** -/
theorem readFrom_encodePoint (lone : Bool) {c : CodePoint}
    (hc : lone = true ∨ c.isSurrogate = false) (rest : Bytes) :
    readFrom lone none (encodePoint c ++ rest) = some c :: readFrom lone none rest := by
  have hlt : c.val < 0x110000 := c.isLt
  have hsurrogate : lone = false → ¬(0xD800 ≤ c.val ∧ c.val < 0xE000) := by
    rintro rfl
    have h := hc.resolve_left Bool.false_ne_true
    rw [CodePoint.isSurrogate] at h
    simpa using h
  have hpoint : ∀ n, n = c.val → some (CodePoint.ofNat n) :: readFrom lone none rest =
      some c :: readFrom lone none rest := by
    rintro n rfl
    rw [ofNat_val]
  rw [encodePoint_eq]
  split_ifs with h₁ h₂ h₃
  · rw [List.singleton_append, readFrom, lead_one lone h₁, ofNat_val]
  · rw [List.cons_append, readFrom_of_more (lead_two lone (by omega) (by omega)),
      List.singleton_append, readFrom_last lone (by omega) (by omega) (by omega)]
    exact hpoint _ (by omega)
  · rw [List.cons_append, readFrom_of_more (lead_three lone (by omega) (by omega)),
      List.cons_append, readFrom_next lone (by omega) (by split_ifs <;> omega) ?_,
      List.singleton_append, readFrom_last lone (by omega) (by omega) (by omega)]
    · exact hpoint _ (by omega)
    · split_ifs with h
      · have := hsurrogate h.2
        omega
      · omega
  · rw [List.cons_append, readFrom_of_more (lead_four lone (by omega) (by omega)),
      List.cons_append, readFrom_next lone (by omega) (by split_ifs <;> omega)
        (by split_ifs <;> omega),
      List.cons_append, readFrom_next lone (by omega) (by omega) (by omega),
      List.singleton_append, readFrom_last lone (by omega) (by omega) (by omega)]
    exact hpoint _ (by omega)

theorem mapM_id_map_some (t : Text) : (t.map some).mapM id = some t := by
  induction t with
  | nil => rfl
  | cons c t ih => rw [List.map_cons, List.mapM_cons, ih]; rfl

theorem mapM_id_eq_some_iff {l : List (Option CodePoint)} {t : Text} :
    l.mapM id = some t ↔ l = t.map some := by
  constructor
  · intro h
    induction l generalizing t with
    | nil =>
      cases h
      rfl
    | cons c l ih =>
      rw [List.mapM_cons] at h
      cases c with
      | none => cases h
      | some c =>
        cases hl : l.mapM id with
        | none =>
          rw [hl] at h
          cases h
        | some u =>
          rw [hl] at h
          cases h
          rw [ih hl, List.map_cons]
  · rintro rfl
    exact mapM_id_map_some t

/-- The bytes of a text are read as its code points. -/
theorem read_encodeLone {lone : Bool} {t : Text}
    (ht : ∀ c ∈ t, lone = true ∨ c.isSurrogate = false) :
    read lone (encodeLone t) = t.map some := by
  rw [read]
  induction t with
  | nil => rfl
  | cons c t ih =>
    rw [encodeLone, List.flatMap_cons, readFrom_encodePoint lone (ht c List.mem_cons_self),
      List.map_cons]
    exact congrArg _ (ih fun d hd => ht d (List.mem_cons_of_mem _ hd))

/-- **Reading gives back the text that was written**, lone surrogates included. -/
theorem decodeLone?_encodeLone (t : Text) : decodeLone? (encodeLone t) = some t :=
  mapM_id_eq_some_iff.2 (read_encodeLone fun _ _ => .inl rfl)

/-- A text without surrogates is read back also by the strict reader. -/
theorem decode?_encodeLone {t : Text} (ht : ∀ c ∈ t, c.isSurrogate = false) :
    decode? (encodeLone t) = some t :=
  mapM_id_eq_some_iff.2 (read_encodeLone fun c hc => .inr (ht c hc))

/-! ## What is read strictly holds no surrogate -/

/-- What is owed inside a code point that is no surrogate: whatever bytes come, the bits end outside
the range of the surrogates and inside that of the code points. -/
structure Owed.Sound (o : Owed) : Prop where
  low : 0x80 ≤ o.low
  high : o.high ≤ 0xBF
  bits : o.left = 1 ∧ o.bits < 0x4400 ∧ ¬(0x360 ≤ o.bits ∧ o.bits < 0x380) ∨
    o.left = 2 ∧ o.bits < 0x110 ∧ (o.bits = 0xD → o.high ≤ 0x9F) ∨
    o.left = 3 ∧ (o.bits < 4 ∨ o.bits = 4 ∧ o.high ≤ 0x8F) ∧ (o.bits = 0 → 0x90 ≤ o.low)

/-- A number outside the range of the surrogates is no surrogate. -/
theorem isSurrogate_ofNat {n : ℕ} (hn : n < 0x110000) (h : ¬(0xD800 ≤ n ∧ n < 0xE000)) :
    (CodePoint.ofNat n).isSurrogate = false := by
  have hval : (CodePoint.ofNat n).val = n := Nat.mod_eq_of_lt hn
  rw [CodePoint.isSurrogate, hval, ← Bool.not_eq_true, Bool.and_eq_true, decide_eq_true_eq,
    decide_eq_true_eq]
  exact h

theorem lead_bad (lone : Bool) {n : ℕ} (hn : n < 256)
    (h : 0x80 ≤ n ∧ n < 0xC2 ∨ 0xF5 ≤ n) : lead lone (UInt8.ofNat n) = .bad := by
  rw [lead, toNat_ofNat hn, if_neg (by omega)]
  by_cases hlow : n < 0xC2
  · rw [if_pos hlow]
  · rw [if_neg hlow, if_neg (by omega), if_neg (by omega), if_neg (by omega), if_neg (by omega),
      if_neg (by omega), if_neg (by omega), if_neg (by omega)]

/-- **What a first byte begins** when no surrogate may pass: a code point, what leads to no
surrogate, or nothing. -/
theorem lead_cases (b : UInt8) :
    (b.toNat < 0x80 ∧ lead false b = .point (CodePoint.ofNat b.toNat)) ∨
      (∃ o, lead false b = .more o ∧ o.Sound) ∨ lead false b = .bad := by
  have hb : UInt8.ofNat b.toNat = b := UInt8.ofNat_toNat
  have hlt : b.toNat < 256 := b.toNat_lt
  by_cases h₁ : b.toNat < 0x80
  · exact .inl ⟨h₁, (congrArg (lead false) hb.symm).trans (lead_one false h₁)⟩
  by_cases h₂ : 0xC2 ≤ b.toNat ∧ b.toNat < 0xE0
  · refine .inr (.inl ⟨_, hb ▸ lead_two false h₂.1 h₂.2, le_rfl, le_rfl, .inl ?_⟩)
    dsimp only
    omega
  by_cases h₃ : 0xE0 ≤ b.toNat ∧ b.toNat < 0xF0
  · refine .inr (.inl ⟨_, hb ▸ lead_three false h₃.1 h₃.2, ?_, ?_, .inr (.inl ?_)⟩)
    · dsimp only
      split_ifs <;> omega
    · dsimp only
      split_ifs <;> omega
    · dsimp only
      refine ⟨rfl, by omega, fun h => ?_⟩
      rw [if_pos ⟨by omega, rfl⟩]
  by_cases h₄ : 0xF0 ≤ b.toNat ∧ b.toNat < 0xF5
  · refine .inr (.inl ⟨_, hb ▸ lead_four false h₄.1 h₄.2, ?_, ?_, .inr (.inr ⟨rfl, ?_, ?_⟩)⟩)
    · dsimp only
      split_ifs <;> omega
    · dsimp only
      split_ifs <;> omega
    · dsimp only
      split_ifs <;> omega
    · dsimp only
      intro h
      rw [if_pos (by omega)]
  · exact .inr (.inr (hb ▸ lead_bad false hlt (by omega)))

/-- A byte that is not owed ends the code point before it and is read as if nothing had been owed.
-/
theorem readFrom_of_not_owed (lone : Bool) {owed : Owed} {b : UInt8}
    (h : ¬(decide (owed.low ≤ b.toNat) && decide (b.toNat ≤ owed.high)) = true) (bytes : Bytes) :
    readFrom lone (some owed) (b :: bytes) = none :: readFrom lone none (b :: bytes) := by
  rw [readFrom.eq_4, if_neg h, readFrom.eq_3]
  cases lead lone b <;> rfl

/-- **The reader keeps away from the surrogates**, from between two code points or from inside one.
-/
theorem isSurrogate_of_mem_readFrom {o : Option Owed} (ho : ∀ owed ∈ o, owed.Sound) {bytes : Bytes}
    {c : CodePoint} (hc : some c ∈ readFrom false o bytes) : c.isSurrogate = false := by
  induction bytes generalizing o with
  | nil =>
    cases o with
    | none => exact absurd hc List.not_mem_nil
    | some owed => simp [readFrom] at hc
  | cons b bytes ih =>
    have hnone : some c ∈ readFrom false none bytes → c.isSurrogate = false :=
      ih (by simp)
    have hmore : ∀ owed : Owed, owed.Sound → some c ∈ readFrom false (some owed) bytes →
        c.isSurrogate = false := by
      intro owed howed
      refine ih ?_
      rintro _ ⟨⟩
      exact howed
    -- A byte that begins a code point, also where another one was owed.
    have hlead : some c ∈ readFrom false none (b :: bytes) → c.isSurrogate = false := by
      intro h
      rw [readFrom] at h
      rcases lead_cases b with ⟨hlt, hb⟩ | ⟨owed, hb, howed⟩ | hb
      · rw [hb] at h
        rcases List.mem_cons.1 h with h | h
        · cases h
          exact isSurrogate_ofNat (by omega) (by omega)
        · exact hnone h
      · rw [hb] at h
        exact hmore owed howed h
      · rw [hb] at h
        exact hnone (by simpa using h)
    cases o with
    | none => exact hlead hc
    | some owed =>
      by_cases hrange : (decide (owed.low ≤ b.toNat) && decide (b.toNat ≤ owed.high)) = true
      · obtain ⟨hlow, hhigh, hbits⟩ := ho owed rfl
        rw [readFrom, if_pos hrange] at hc
        rw [Bool.and_eq_true, decide_eq_true_eq, decide_eq_true_eq] at hrange
        dsimp only at hc
        split_ifs at hc with hlast
        · rcases List.mem_cons.1 hc with h | h
          · cases h
            exact isSurrogate_ofNat (by omega) (by omega)
          · exact hnone h
        · refine hmore _ ⟨le_rfl, le_rfl, ?_⟩ hc
          dsimp only
          omega
      · rw [readFrom_of_not_owed false hrange] at hc
        exact hlead (by simpa using hc)

/-- **A text that is read strictly holds no surrogate.** -/
theorem isSurrogate_of_decode? {bytes : Bytes} {t : Text} (h : decode? bytes = some t) :
    ∀ c ∈ t, c.isSurrogate = false := by
  intro c hc
  rw [decode?, mapM_id_eq_some_iff, read] at h
  have hmem : some c ∈ readFrom false none bytes := by
    rw [h]
    exact List.mem_map_of_mem hc
  exact isSurrogate_of_mem_readFrom (by simp) hmem

/-! ## First bytes -/

/-- What the first byte of a code point says about it. -/
theorem exists_encodePoint_eq_cons (c : CodePoint) :
    ∃ b tail, encodePoint c = UInt8.ofNat b :: tail ∧ b < 0xF5 ∧ (b = 0 ↔ c.val = 0) ∧
      ∀ d ∈ tail, 0x80 ≤ d.toNat := by
  have hlt : c.val < 0x110000 := c.isLt
  rw [encodePoint_eq]
  split_ifs with h₁ h₂ h₃
  · exact ⟨_, [], rfl, by omega, Iff.rfl, by simp⟩
  · refine ⟨_, _, rfl, by omega, by omega, ?_⟩
    simp only [List.mem_cons, List.not_mem_nil, or_false, forall_eq]
    rw [toNat_ofNat (by omega)]
    omega
  · refine ⟨_, _, rfl, by omega, by omega, ?_⟩
    simp only [List.mem_cons, List.not_mem_nil, or_false, forall_eq_or_imp, forall_eq]
    rw [toNat_ofNat (by omega), toNat_ofNat (by omega)]
    omega
  · refine ⟨_, _, rfl, by omega, by omega, ?_⟩
    simp only [List.mem_cons, List.not_mem_nil, or_false, forall_eq_or_imp, forall_eq]
    rw [toNat_ofNat (by omega), toNat_ofNat (by omega), toNat_ofNat (by omega)]
    omega

end Abacus.Utf8
