import Mathlib
import Abacus.Http.Form
import Abacus.Proofs.Text.Cutting
import Abacus.Proofs.Text.Utf8
import Abacus.Proofs.Text.Writable

/-!
# Forms are read back

What a client writes into a query is what a service reads from it.

* `Percent.pieces_encodeBytes`, `Percent.decode_encode`: bytes that are encoded come apart into
  these bytes, so that a text is decoded to what it was;
* `Form.decodePart_encodePart`: a name or a value, in which a blank becomes a plus sign and a plus
  sign a code;
* `Form.mem_encodePart`: the marks between names and values stay outside of them;
* `Form.decode_encode`: all fields of a form; `Form.length_encode_le`: how long they become.
-/

namespace Abacus

open Text (Writable)

/-! ## Percent encoding -/

namespace Percent

theorem isHex_ofCapitalDigit : ∀ n < 16, (CodePoint.ofCapitalDigit n).hexValue? = some n := by
  decide

theorem isUnreserved_ofCapitalDigit :
    ∀ n < 16, isUnreserved (CodePoint.ofCapitalDigit n) = true := by
  decide

/-- An escaped byte is one piece. -/
theorem pieces_escape (b : UInt8) (rest : Text) :
    pieces (escape b ++ rest) = .byte b :: pieces rest := by
  have hlt : b.toNat < 256 := b.toNat_lt
  have hbyte : b.toNat / 16 * 16 + b.toNat % 16 = b.toNat := by omega
  rw [escape, List.cons_append, List.cons_append, List.singleton_append, pieces, if_pos rfl,
    isHex_ofCapitalDigit _ (by omega), isHex_ofCapitalDigit _ (by omega)]
  dsimp only
  rw [hbyte, UInt8.ofNat_toNat]

/-- Any code point but the percent sign is a piece by itself. -/
theorem pieces_cons_of_ne {c : CodePoint} (hc : c ≠ CodePoint.ofChar '%') (rest : Text) :
    pieces (c :: rest) = single c :: pieces rest := by
  rcases rest with _ | ⟨d, _ | ⟨e, rest⟩⟩
  · rfl
  · rfl
  · rw [pieces, if_neg hc]

theorem single_ofByte {b : UInt8} (hb : b < 0x80) : single (ofByte b) = .byte b := by
  have hval : (ofByte b).val = b.toNat := Nat.mod_eq_of_lt (b.toNat_lt.trans (by decide))
  have hlt : b.toNat < 0x80 := hb
  rw [single, hval, if_pos hlt, UInt8.ofNat_toNat]

variable {safe : CodePoint → Bool}

/-- **Encoded bytes come apart into these bytes**, if the percent sign does not stand for itself. -/
theorem pieces_encodeBytes (hsafe : safe (CodePoint.ofChar '%') = false) (bytes : Bytes) :
    pieces (encodeBytes safe bytes) = bytes.map .byte := by
  induction bytes with
  | nil => rfl
  | cons b bytes ih =>
    rw [encodeBytes, List.flatMap_cons, List.map_cons, ← ih]
    split_ifs with hb
    · rw [Bool.and_eq_true, decide_eq_true_eq] at hb
      have hne : ofByte b ≠ CodePoint.ofChar '%' := by
        intro h
        rw [h, hsafe] at hb
        exact Bool.false_ne_true hb.2
      rw [List.singleton_append, pieces_cons_of_ne hne, single_ofByte hb.1]
      rfl
    · exact pieces_escape b _

theorem assemble_map_byte (bytes : Bytes) : assemble (bytes.map .byte) = (bytes, []) := by
  induction bytes with
  | nil => rfl
  | cons b bytes ih => rw [List.map_cons, assemble, ih]

/-- A text without surrogates is read from its bytes as it is. -/
theorem decodeReplacing_encodeLone {t : Text} (ht : t.Writable) :
    Utf8.decodeReplacing (Utf8.encodeLone t) = t := by
  rw [Utf8.decodeReplacing, Utf8.read_encodeLone fun c hc => .inr (ht c hc), List.map_map]
  exact List.map_id t

/-- **A text that is encoded is decoded to what it was.** -/
theorem decode_encode (hsafe : safe (CodePoint.ofChar '%') = false) {t : Text} (ht : t.Writable) :
    decode (encode safe t) = t := by
  rw [decode, encode, pieces_encodeBytes hsafe, assemble_map_byte]
  dsimp only
  rw [List.append_nil, decodeReplacing_encodeLone ht]

/-- An encoded text holds percent signs, hexadecimal digits and what stands for itself. -/
theorem mem_encode {t : Text} {c : CodePoint} (h : c ∈ encode safe t) :
    safe c = true ∨ c = CodePoint.ofChar '%' ∨ isUnreserved c = true := by
  obtain ⟨b, -, hc⟩ := List.mem_flatMap.1 h
  have hlt : b.toNat < 256 := b.toNat_lt
  split_ifs at hc with hb
  · rw [List.mem_singleton] at hc
    exact .inl (hc ▸ (Bool.and_eq_true_iff.1 hb).2)
  · simp only [escape, List.mem_cons, List.not_mem_nil, or_false] at hc
    rcases hc with rfl | rfl | rfl
    · exact .inr (.inl rfl)
    · exact .inr (.inr (isUnreserved_ofCapitalDigit _ (by omega)))
    · exact .inr (.inr (isUnreserved_ofCapitalDigit _ (by omega)))

theorem length_encodeBytes_le (bytes : Bytes) :
    (encodeBytes safe bytes).length ≤ 3 * bytes.length := by
  induction bytes with
  | nil => exact le_rfl
  | cons b bytes ih =>
    have hone : (if b < 0x80 && safe (ofByte b) then [ofByte b] else escape b).length ≤ 3 := by
      split_ifs
      · exact Nat.le_add_left 1 2
      · exact le_rfl
    rw [encodeBytes, List.flatMap_cons, List.length_append, List.length_cons]
    change _ + (encodeBytes safe bytes).length ≤ _
    omega

end Percent

/-- Every code point has at most four bytes. -/
theorem Utf8.length_encodeLone_le (t : Text) : (Utf8.encodeLone t).length ≤ 4 * t.length := by
  induction t with
  | nil => exact le_rfl
  | cons c t ih =>
    have hone : (Utf8.encodePoint c).length ≤ 4 := by
      rw [Utf8.encodePoint_eq]
      split_ifs
      all_goals simp only [List.length_cons, List.length_nil]; omega
    rw [Utf8.encodeLone, List.flatMap_cons, List.length_append, List.length_cons]
    change _ + (Utf8.encodeLone t).length ≤ _
    omega

/-- The bytes of a text of ASCII are its code points. -/
theorem Utf8.map_ofByte_encodeLone {t : Text} (ht : ∀ c ∈ t, c.val < 0x80) :
    (Utf8.encodeLone t).map Percent.ofByte = t := by
  induction t with
  | nil => rfl
  | cons c t ih =>
    obtain ⟨hc, ht⟩ := List.forall_mem_cons.1 ht
    have hpoint : Percent.ofByte (UInt8.ofNat c.val) = c := by
      rw [Percent.ofByte, Utf8.toNat_ofNat (by omega), Utf8.ofNat_val]
    rw [Utf8.encodeLone, List.flatMap_cons, Utf8.encodePoint_eq, if_pos hc, List.singleton_append,
      List.map_cons, hpoint]
    exact congrArg (c :: ·) (ih ht)

/-! ## Forms -/

namespace Form

/-- What a name or a value is encoded with: all but the unreserved code points and the blank. -/
def isSafe (c : CodePoint) : Bool := Percent.isUnreserved c || c = ' '

/-- The code points of an encoded name or value. -/
theorem mem_encodePart {t : Text} {c : CodePoint} (h : c ∈ encodePart t) :
    Percent.isUnreserved c = true ∨ c = CodePoint.ofChar '%' ∨ c = CodePoint.ofChar '+' := by
  obtain ⟨d, hd, rfl⟩ := List.mem_map.1 h
  split_ifs with hblank
  · exact .inr (.inr rfl)
  · rcases Percent.mem_encode hd with h | h | h
    · rcases Bool.or_eq_true_iff.1 h with h | h
      · exact .inl h
      · exact absurd (of_decide_eq_true h) hblank
    · exact .inr (.inl h)
    · exact .inl h

/-- A code point that a name or a value never holds. -/
theorem notMem_encodePart {c : CodePoint} (hc : Percent.isUnreserved c = false)
    (hpercent : c ≠ CodePoint.ofChar '%') (hplus : c ≠ CodePoint.ofChar '+') (t : Text) :
    c ∉ encodePart t := by
  intro h
  rcases mem_encodePart h with h | h | h
  · rw [hc] at h
    exact Bool.false_ne_true h
  · exact hpercent h
  · exact hplus h

theorem val_lt_of_isUnreserved {c : CodePoint} (h : Percent.isUnreserved c = true) :
    c.val < 0x80 := by
  simp only [Percent.isUnreserved, CodePoint.isDigit, Bool.or_eq_true, Bool.and_eq_true,
    decide_eq_true_eq] at h
  rcases h with (((((h | h) | h) | rfl) | rfl) | rfl) | rfl
  · omega
  · omega
  · omega
  all_goals decide

theorem val_lt_of_mem_encodePart {t : Text} {c : CodePoint} (h : c ∈ encodePart t) :
    c.val < 0x80 := by
  rcases mem_encodePart h with h | rfl | rfl
  · exact val_lt_of_isUnreserved h
  · decide
  · decide

/-- **A name or a value is read back.** A plus sign in it was encoded, so that every plus sign
stands for a blank. -/
theorem decodePart_encodePart {t : Text} (ht : t.Writable) : decodePart (encodePart t) = t := by
  have hplus : ∀ c ∈ Percent.encode isSafe t, c ≠ CodePoint.ofChar '+' := by
    rintro c hc rfl
    rcases Percent.mem_encode hc with h | h | h <;> exact absurd h (by decide)
  have hself : (encodePart t).map
      (fun c : CodePoint => if c = '+' then CodePoint.ofChar ' ' else c) =
        Percent.encode isSafe t := by
    rw [encodePart, List.map_map]
    refine (List.map_congr_left fun c hc => ?_).trans (List.map_id _)
    have hc := hplus c hc
    simp only [Function.comp_apply, id_eq]
    split_ifs with hblank hne
    · exact hblank.symm
    · exact absurd rfl hne
    · rfl
  rw [decodePart, hself, Percent.decode_encode (by decide) ht]

theorem length_encodePart_le (t : Text) : (encodePart t).length ≤ 12 * t.length := by
  have hbytes := Utf8.length_encodeLone_le t
  have hencode := @Percent.length_encodeBytes_le isSafe (Utf8.encodeLone t)
  rw [encodePart, List.length_map]
  change (Percent.encodeBytes isSafe (Utf8.encodeLone t)).length ≤ _
  omega

/-- The text of a field. -/
def encodeField (f : Text × Text) : Text := encodePart f.1 ++ ("=" : Text) ++ encodePart f.2

/-- **A field is read back.** -/
theorem decodeField_encodeField {f : Text × Text} (hname : f.1.Writable) (hvalue : f.2.Writable) :
    decodeField (encodeField f) = f := by
  have hmark : CodePoint.ofChar '=' ∉ encodePart f.1 :=
    notMem_encodePart rfl (by decide) (by decide) _
  have hcut : Text.cutAt '=' (encodeField f) = (encodePart f.1, some (encodePart f.2)) := by
    rw [encodeField, List.append_assoc]
    exact Text.cutAt_append_cons hmark _
  rw [decodeField, hcut]
  dsimp only
  rw [Option.getD_some, decodePart_encodePart hname, decodePart_encodePart hvalue]

theorem mem_encodeField {f : Text × Text} {c : CodePoint} (h : c ∈ encodeField f) :
    c ∈ encodePart f.1 ∨ c = CodePoint.ofChar '=' ∨ c ∈ encodePart f.2 := by
  rcases List.mem_append.1 h with h | h
  · rcases List.mem_append.1 h with h | h
    · exact .inl h
    · exact .inr (.inl (List.mem_singleton.1 h))
  · exact .inr (.inr h)

theorem length_encode_le {fields : Fields} {n : ℕ}
    (h : ∀ f ∈ fields, f.1.length + f.2.length ≤ n) :
    (encode fields).length ≤ fields.length * (12 * n + 2) := by
  have hfield : ∀ t ∈ fields.map encodeField, t.length ≤ 12 * n + 1 := by
    intro t ht
    obtain ⟨f, hf, rfl⟩ := List.mem_map.1 ht
    have hname := length_encodePart_le f.1
    have hvalue := length_encodePart_le f.2
    have hboth := h f hf
    have hmark : (Text.ofString "=").length = 1 := rfl
    rw [encodeField, List.length_append, List.length_append, hmark]
    omega
  have hlength := @Text.length_joinWith_le (Text.ofString "&") _ _ hfield
  rwa [List.length_map] at hlength

theorem val_lt_of_mem_encode {fields : Fields} {c : CodePoint} (h : c ∈ encode fields) :
    c.val < 0x80 := by
  rcases Text.mem_joinWith h with h | ⟨t, ht, hc⟩
  · rw [List.mem_singleton.1 h]
    decide
  · obtain ⟨f, -, rfl⟩ := List.mem_map.1 ht
    rcases mem_encodeField hc with hc | rfl | hc
    · exact val_lt_of_mem_encodePart hc
    · decide
    · exact val_lt_of_mem_encodePart hc

/-- The fields of a form are cut apart where they were put together. -/
theorem splitOn_encode (fields : Fields) :
    ((Text.splitOn '&' (encode fields)).filter fun field => !field.isEmpty) =
      fields.map encodeField := by
  rcases fields with _ | ⟨f, fields⟩
  · rfl
  have hmark : ∀ t ∈ (f :: fields).map encodeField, CodePoint.ofChar '&' ∉ t := by
    intro t ht hc
    obtain ⟨g, -, rfl⟩ := List.mem_map.1 ht
    rcases mem_encodeField hc with hc | hc | hc
    · exact notMem_encodePart rfl (by decide) (by decide) _ hc
    · exact absurd hc (by decide)
    · exact notMem_encodePart rfl (by decide) (by decide) _ hc
  have hsplit : Text.splitOn '&' (encode (f :: fields)) = (f :: fields).map encodeField :=
    Text.splitOn_joinWith (List.cons_ne_nil _ _) hmark
  rw [hsplit, List.filter_eq_self]
  intro t ht
  obtain ⟨g, -, rfl⟩ := List.mem_map.1 ht
  rw [Bool.not_eq_true', List.isEmpty_eq_false_iff]
  intro hnil
  have hmem : CodePoint.ofChar '=' ∈ encodeField g :=
    List.mem_append_left _ (List.mem_append_right _ (List.mem_singleton.2 rfl))
  rw [hnil] at hmem
  exact List.not_mem_nil hmem

/-- **The fields of a form are read back from the bytes of its text**, whatever marks stand in their
names and values. -/
theorem decode_encode {fields : Fields} (h : ∀ f ∈ fields, f.1.Writable ∧ f.2.Writable) :
    decode (Utf8.encodeLone (encode fields)) = fields := by
  rw [decode, Utf8.map_ofByte_encodeLone fun c hc => val_lt_of_mem_encode hc, splitOn_encode,
    List.map_map]
  refine (List.map_congr_left fun f hf => ?_).trans (List.map_id _)
  exact decodeField_encodeField (h f hf).1 (h f hf).2

end Form

end Abacus
