import Mathlib
import Abacus.Address
import Abacus.Proofs.Outcome
import Abacus.Proofs.Text.Cutting
import Abacus.Proofs.Text.Numeral

/-!
# Addresses and their texts

An address that was read from data is read back from its text.

* `Address.octet?_ofNat`, `Address.short?_text`: the numbers of a short address.
* `Address.group?_groupText`, `Address.long?_groupsText`: the groups of a long address.
* `Address.IsProper`, `Address.isProper_of_address`: the addresses that data give.
* `Address.ofText?_text`: such an address is read back from its text.
-/

namespace Abacus

open Text (AllDigits allDigits_ofNat ofNat_ne_nil exists_ofNat_eq_cons digitsValue_ofNat
  joinWith splitOn_joinWith)

/-! ## Short addresses -/

namespace Address

theorem octet?_ofNat {n : ℕ} (h : n < 256) : octet? (Text.ofNat n) = some n := by
  have hne : (Text.ofNat n).isEmpty = false := by
    rw [List.isEmpty_eq_false_iff]
    exact ofNat_ne_nil n
  have hlength : ¬3 < (Text.ofNat n).length :=
    not_lt.2 (Text.length_ofNat_le (by decide) (by omega))
  have hall : (Text.ofNat n).all CodePoint.isDigit = true := List.all_eq_true.2 (allDigits_ofNat n)
  -- Only zero begins with a zero.
  have hzero : (decide (1 < (Text.ofNat n).length) && (Text.ofNat n).startsWith "0") = false := by
    rcases Nat.eq_zero_or_pos n with rfl | hn
    · rfl
    · obtain ⟨c, rest, heq, -, hc⟩ := exists_ofNat_eq_cons hn
      rw [heq, Bool.and_eq_false_iff]
      right
      exact Bool.and_eq_false_iff.2 (.inl (beq_eq_false_iff_ne.2 (Ne.symm hc)))
  rw [octet?, hne, hall, decide_eq_false hlength, hzero, digitsValue_ofNat]
  simp [h]

theorem mapM_octet? {ns : List ℕ} (h : ∀ n ∈ ns, n < 256) :
    (ns.map Text.ofNat).mapM octet? = some ns := by
  induction ns with
  | nil => rfl
  | cons n ns ih =>
    rw [List.map_cons, List.mapM_cons, octet?_ofNat (h n List.mem_cons_self),
      ih fun m hm => h m (List.mem_cons_of_mem _ hm)]
    rfl

theorem lt_of_mem_octets {bits : BitVec 32} {n : ℕ} (h : n ∈ octets bits) : n < 256 := by
  obtain ⟨i, -, rfl⟩ := List.mem_map.1 h
  exact Nat.mod_lt _ (by decide)

/-- The bytes of an address make up its number. -/
theorem foldl_octets (bits : BitVec 32) :
    (octets bits).foldl (fun n b => n * 256 + b) 0 = bits.toNat := by
  have hlt := bits.isLt
  simp only [octets, List.map_cons, List.map_nil, List.foldl_cons, List.foldl_nil]
  norm_num
  omega

/-- The numbers of an address hold no code point but digits. -/
theorem isDigit_of_mem_octets {bits : BitVec 32} {t : Text} {c : CodePoint}
    (ht : t ∈ (octets bits).map Text.ofNat) (hc : c ∈ t) : c.isDigit = true := by
  obtain ⟨n, -, rfl⟩ := List.mem_map.1 ht
  exact allDigits_ofNat n c hc

/-- The text of a short address holds digits and dots only. -/
theorem isDigit_or_dot_of_mem_text {bits : BitVec 32} {c : CodePoint} (h : c ∈ (v4 bits).text) :
    c.isDigit = true ∨ c = '.' := by
  rcases Text.mem_joinWith h with h | ⟨t, ht, hc⟩
  · exact .inr (List.mem_singleton.1 h)
  · exact .inl (isDigit_of_mem_octets ht hc)

theorem length_text_le (bits : BitVec 32) : (v4 bits).text.length ≤ 15 := by
  have hlength : ∀ i, (Text.ofNat (bits.toNat / Nat.pow 256 i % 256)).length ≤ 3 := fun i =>
    Text.length_ofNat_le (by decide) ((Nat.mod_lt _ (by decide)).trans (by decide))
  have h₀ := hlength 0
  have h₁ := hlength 1
  have h₂ := hlength 2
  have h₃ := hlength 3
  have hdot : (Text.ofString ".").length = 1 := rfl
  simp only [text, octets, List.map_cons, List.map_nil, joinWith, List.length_append, hdot]
  omega

/-- **The number of a short address is read back from its text.** -/
theorem short?_text (bits : BitVec 32) : short? (v4 bits).text = some bits.toNat := by
  have hsplit : Text.splitOn '.' (v4 bits).text = (octets bits).map Text.ofNat := by
    refine splitOn_joinWith (List.cons_ne_nil _ _) fun t ht hdot => ?_
    exact absurd (isDigit_of_mem_octets ht hdot) (by decide)
  rw [short?, hsplit, if_neg (by simp [octets]), mapM_octet? fun n hn => lt_of_mem_octets hn,
    Option.map_some, foldl_octets]

/-! ## Groups -/

/-- The digits of a group, the first one first. -/
def groupDigits (n : ℕ) : List ℕ := (List.range 4).reverse.map fun i => n / Nat.pow 16 i % 16

theorem lt_of_mem_groupDigits {n d : ℕ} (h : d ∈ groupDigits n) : d < 16 := by
  obtain ⟨i, -, rfl⟩ := List.mem_map.1 h
  exact Nat.mod_lt _ (by decide)

theorem foldl_groupDigits {n : ℕ} (h : n < 65536) :
    (groupDigits n).foldl (fun n d => n * 16 + d) 0 = n := by
  have hdigits : groupDigits n = [n / 4096 % 16, n / 256 % 16, n / 16 % 16, n / 1 % 16] := rfl
  rw [hdigits]
  simp only [List.foldl_cons, List.foldl_nil]
  omega

/-- Leading zeros do not count. -/
theorem foldl_dropWhile_zero (ds : List ℕ) :
    (ds.dropWhile (· = 0)).foldl (fun n d => n * 16 + d) 0 =
      ds.foldl (fun n d => n * 16 + d) 0 := by
  induction ds with
  | nil => rfl
  | cons d ds ih =>
    by_cases hd : d = 0
    · rw [List.dropWhile_cons_of_pos (by simpa using hd), ih, List.foldl_cons, hd]
    · rw [List.dropWhile_cons_of_neg (by simpa using hd)]

theorem dropWhile_map_ofDigit {ds : List ℕ} (h : ∀ d ∈ ds, d < 16) :
    (ds.map CodePoint.ofDigit).dropWhile (fun (c : CodePoint) => c = '0') =
      (ds.dropWhile (· = 0)).map CodePoint.ofDigit := by
  have hzero : ∀ d < 16, (CodePoint.ofDigit d = CodePoint.ofChar '0') ↔ d = 0 := by decide
  induction ds with
  | nil => rfl
  | cons d ds ih =>
    obtain ⟨hd, hds⟩ := List.forall_mem_cons.1 h
    by_cases hnil : d = 0
    · rw [List.map_cons, List.dropWhile_cons_of_pos (by simpa using (hzero d hd).2 hnil),
        List.dropWhile_cons_of_pos (by simpa using hnil), ih hds]
    · rw [List.map_cons, List.dropWhile_cons_of_neg (by simpa using mt (hzero d hd).1 hnil),
        List.dropWhile_cons_of_neg (by simpa using hnil), List.map_cons]

/-- **A group is written in digits**: one at least, four at most. -/
theorem exists_groupText {n : ℕ} (h : n < 65536) :
    ∃ ds : List ℕ, groupText n = ds.map CodePoint.ofDigit ∧ ds ≠ [] ∧ ds.length ≤ 4 ∧
      (∀ d ∈ ds, d < 16) ∧ ds.foldl (fun n d => n * 16 + d) 0 = n := by
  have hhex : Text.ofHex 4 n = (groupDigits n).map CodePoint.ofDigit := by
    rw [Text.ofHex, groupDigits, List.map_map]
    rfl
  have hvalue := (foldl_dropWhile_zero (groupDigits n)).trans (foldl_groupDigits h)
  have hlength : ((groupDigits n).dropWhile (· = 0)).length ≤ 4 :=
    (List.dropWhile_sublist _).length_le
  rw [groupText, hhex, dropWhile_map_ofDigit fun d hd => lt_of_mem_groupDigits hd]
  generalize hds : (groupDigits n).dropWhile (· = 0) = ds at hvalue hlength
  cases ds with
  | nil => exact ⟨[0], rfl, List.cons_ne_nil _ _, by decide, by decide, hvalue⟩
  | cons d rest =>
    refine ⟨d :: rest, rfl, List.cons_ne_nil _ _, hlength, fun e he => ?_, hvalue⟩
    rw [← hds] at he
    exact lt_of_mem_groupDigits ((List.dropWhile_sublist _).subset he)

theorem mapM_hexValue? {ds : List ℕ} (h : ∀ d ∈ ds, d < 16) :
    (ds.map CodePoint.ofDigit).mapM CodePoint.hexValue? = some ds := by
  induction ds with
  | nil => rfl
  | cons d ds ih =>
    obtain ⟨hd, hds⟩ := List.forall_mem_cons.1 h
    rw [List.map_cons, List.mapM_cons, Text.hexValue?_ofDigit d hd, ih hds]
    rfl

/-- **A group is read back from its text.** -/
theorem group?_groupText {n : ℕ} (h : n < 65536) : group? (groupText n) = some n := by
  obtain ⟨ds, htext, hne, hlength, hlt, hvalue⟩ := exists_groupText h
  have hempty : (ds.map CodePoint.ofDigit).isEmpty = false := by
    rw [List.isEmpty_eq_false_iff, ne_eq, List.map_eq_nil_iff]
    exact hne
  have hlong : decide (4 < (ds.map CodePoint.ofDigit).length) = false := by
    rw [decide_eq_false_iff_not, List.length_map]
    omega
  rw [htext, group?, hempty, hlong, Bool.false_or, if_neg Bool.false_ne_true, mapM_hexValue? hlt,
    Option.map_some, hvalue]

theorem groupText_ne_nil {n : ℕ} (h : n < 65536) : groupText n ≠ [] := by
  obtain ⟨ds, htext, hne, -⟩ := exists_groupText h
  rw [htext, ne_eq, List.map_eq_nil_iff]
  exact hne

/-- No mark stands in a group. -/
theorem notMem_groupText {n : ℕ} (h : n < 65536) {c : CodePoint} (hc : c.hexValue? = none) :
    c ∉ groupText n := by
  obtain ⟨ds, htext, -, -, hlt, -⟩ := exists_groupText h
  rw [htext]
  intro hmem
  obtain ⟨d, hd, rfl⟩ := List.mem_map.1 hmem
  rw [Text.hexValue?_ofDigit d (hlt d hd)] at hc
  cases hc

theorem mapM_group? {gs : List ℕ} (h : ∀ g ∈ gs, g < 65536) :
    (gs.map groupText).mapM group? = some gs := by
  induction gs with
  | nil => rfl
  | cons g gs ih =>
    obtain ⟨hg, hgs⟩ := List.forall_mem_cons.1 h
    rw [List.map_cons, List.mapM_cons, group?_groupText hg, ih hgs]
    rfl

/-! ## The longest run of zeros -/

/-- What is called a run of zeros is one. -/
theorem longestRun_le (gs : List ℕ) :
    (longestRun gs).2 ≤ zeroRun (gs.drop (longestRun gs).1) := by
  have hfold : ∀ (is : List ℕ) (best : ℕ × ℕ), best.2 ≤ zeroRun (gs.drop best.1) →
      let last := is.foldl (fun best i =>
        let run := zeroRun (gs.drop i)
        if best.2 < run then (i, run) else best) best
      last.2 ≤ zeroRun (gs.drop last.1) := by
    intro is
    induction is with
    | nil => exact fun best h => h
    | cons i is ih =>
      intro best h
      refine ih _ ?_
      dsimp only
      split_ifs
      · exact le_rfl
      · exact h
  exact hfold _ (0, 0) (Nat.zero_le _)

theorem take_eq_replicate {gs : List ℕ} {n : ℕ} (h : n ≤ zeroRun gs) :
    gs.take n = List.replicate n 0 := by
  have hsplit := List.takeWhile_append_dropWhile (p := (· = 0)) (l := gs)
  rw [zeroRun] at h
  rw [← hsplit, List.take_append_of_le_length h, List.eq_replicate_iff]
  refine ⟨by rw [List.length_take, min_eq_left h], fun g hg => ?_⟩
  have hzero := List.mem_takeWhile_imp (List.mem_of_mem_take hg)
  exact of_decide_eq_true hzero

/-- **Groups are put together again from both sides of the longest run.** -/
theorem append_longestRun (gs : List ℕ) :
    gs.take (longestRun gs).1 ++ List.replicate (longestRun gs).2 0 ++
      gs.drop ((longestRun gs).1 + (longestRun gs).2) = gs := by
  rw [← take_eq_replicate (longestRun_le gs), ← List.drop_drop, List.append_assoc,
    List.take_append_drop, List.take_append_drop]

theorem longestRun_add_le {gs : List ℕ} (h : 0 < (longestRun gs).2) :
    (longestRun gs).1 + (longestRun gs).2 ≤ gs.length := by
  have hle := longestRun_le gs
  have hlength : zeroRun (gs.drop (longestRun gs).1) ≤ (gs.drop (longestRun gs).1).length :=
    (List.takeWhile_sublist _).length_le
  rw [List.length_drop] at hlength
  omega

/-! ## Two colons in a row -/

theorem cutAtColons_cons_of_ne {c : CodePoint} (hc : c ≠ ':') (t : Text) :
    cutAtColons (c :: t) = (c :: (cutAtColons t).1, (cutAtColons t).2) := by
  cases t with
  | nil => rfl
  | cons d t => rw [cutAtColons, decide_eq_false hc, Bool.false_and, if_neg Bool.false_ne_true]

theorem cutAtColons_append {t : Text} (ht : CodePoint.ofChar ':' ∉ t) (u : Text) :
    cutAtColons (t ++ u) = (t ++ (cutAtColons u).1, (cutAtColons u).2) := by
  induction t with
  | nil => rfl
  | cons c t ih =>
    obtain ⟨hc, ht⟩ := not_or.1 (mt List.mem_cons.2 ht)
    rw [List.cons_append, cutAtColons_cons_of_ne (Ne.symm hc), ih ht, List.cons_append]

/-- **The first two colons in a row stand behind pieces with single colons between them.** -/
theorem cutAtColons_joinWith {pieces : List Text}
    (h : ∀ t ∈ pieces, t ≠ [] ∧ CodePoint.ofChar ':' ∉ t) (u : Text) :
    cutAtColons (joinWith ":" pieces ++ u) =
      (joinWith ":" pieces ++ (cutAtColons u).1, (cutAtColons u).2) := by
  induction pieces with
  | nil => rfl
  | cons t pieces ih =>
    obtain ⟨⟨-, ht⟩, hpieces⟩ := List.forall_mem_cons.1 h
    cases pieces with
    | nil => exact cutAtColons_append ht u
    | cons v pieces =>
      obtain ⟨hne, hv⟩ := hpieces v List.mem_cons_self
      obtain ⟨d, v, rfl⟩ := List.exists_cons_of_ne_nil hne
      have hd : d ≠ CodePoint.ofChar ':' := by
        rintro rfl
        exact hv List.mem_cons_self
      obtain ⟨rest, hrest⟩ : ∃ rest, joinWith ":" ((d :: v) :: pieces) = d :: rest := by
        cases pieces <;> exact ⟨_, rfl⟩
      have htail := ih hpieces
      rw [hrest, List.cons_append] at htail
      have hcolon : cutAtColons (CodePoint.ofChar ':' :: d :: (rest ++ u)) =
          (CodePoint.ofChar ':' :: d :: (rest ++ (cutAtColons u).1), (cutAtColons u).2) := by
        rw [cutAtColons, decide_eq_false hd, Bool.and_false, if_neg Bool.false_ne_true, htail]
        rfl
      rw [Text.joinWith_cons_cons, hrest, List.append_assoc, List.append_assoc,
        cutAtColons_append ht, List.append_assoc, List.append_assoc]
      exact congrArg (fun x : Text × Option Text => (t ++ x.1, x.2)) hcolon

/-! ## Long addresses -/

section Long

variable {gs : List ℕ} (h : ∀ g ∈ gs, g < 65536)

include h

theorem pieces_spec {t : Text} (ht : t ∈ gs.map groupText) :
    t ≠ [] ∧ CodePoint.ofChar ':' ∉ t ∧ CodePoint.ofChar '.' ∉ t := by
  obtain ⟨g, hg, rfl⟩ := List.mem_map.1 ht
  exact ⟨groupText_ne_nil (h g hg), notMem_groupText (h g hg) (by decide),
    notMem_groupText (h g hg) (by decide)⟩

/-- Groups are read back from their texts; none of them is taken for a short address. -/
theorem groupsOf?_map : groupsOf? (gs.map groupText) = some gs := by
  rw [groupsOf?]
  split
  · next hlast =>
    rw [List.getLast?_eq_none_iff, List.map_eq_nil_iff] at hlast
    rw [hlast]
  · next last hlast =>
    have hdot : Text.contains last '.' = false :=
      Text.contains_eq_false_iff.2 (pieces_spec h (List.mem_of_getLast? hlast)).2.2
    rw [hdot, if_neg Bool.false_ne_true, mapM_group? h]

theorem splitOn_map (hne : gs ≠ []) :
    (joinWith ":" (gs.map groupText)).splitOn ':' = gs.map groupText :=
  splitOn_joinWith (mt List.map_eq_nil_iff.1 hne) fun _ ht => (pieces_spec h ht).2.1

/-- One side of two colons. -/
theorem side?_joinWith : side? (joinWith ":" (gs.map groupText)) = some gs := by
  rw [side?]
  split_ifs with hempty
  · cases gs with
    | nil => rfl
    | cons g gs =>
      -- The text of a group is not empty.
      obtain ⟨c, rest, hc⟩ := List.exists_cons_of_ne_nil
        (groupText_ne_nil (h g List.mem_cons_self))
      cases gs <;> rw [List.map_cons, hc] at hempty <;> cases hempty
  · have hne : gs ≠ [] := by
      rintro rfl
      exact hempty rfl
    rw [splitOn_map h hne, groupsOf?_map h]

/-- Texts of groups hold no two colons in a row, so that they are not cut. -/
theorem cutAtColons_map (u : Text) :
    cutAtColons (joinWith ":" (gs.map groupText) ++ (("::" : Text) ++ u)) =
        (joinWith ":" (gs.map groupText), some u) ∧
      cutAtColons (joinWith ":" (gs.map groupText)) = (joinWith ":" (gs.map groupText), none) := by
  have hpieces : ∀ t ∈ gs.map groupText, t ≠ [] ∧ CodePoint.ofChar ':' ∉ t := fun t ht =>
    ⟨(pieces_spec h ht).1, (pieces_spec h ht).2.1⟩
  have hcut := cutAtColons_joinWith hpieces (("::" : Text) ++ u)
  have hwhole := cutAtColons_joinWith hpieces []
  have hcolons : cutAtColons (("::" : Text) ++ u) = ([], some u) := rfl
  rw [hcolons, List.append_nil] at hcut
  rw [List.append_nil] at hwhole
  refine ⟨hcut, hwhole.trans ?_⟩
  rw [cutAtColons, List.append_nil]

/-- Eight groups, all of them written. -/
theorem long?_joinWith (hlength : gs.length = 8) :
    long? (joinWith ":" (gs.map groupText)) = some gs := by
  have hne : gs ≠ [] := by
    rintro rfl
    cases hlength
  rw [long?, (cutAtColons_map h []).2]
  dsimp only
  rw [splitOn_map h hne, groupsOf?_map h, Option.bind_some, if_pos hlength]

/-- Groups on either side of two colons, which stand for zeros. -/
theorem long?_joinWith_append {back : List ℕ} (hback : ∀ g ∈ back, g < 65536)
    (hlength : gs.length + back.length < 8) :
    long? (joinWith ":" (gs.map groupText) ++ ("::" : Text) ++ joinWith ":" (back.map groupText)) =
      some (gs ++ List.replicate (8 - gs.length - back.length) 0 ++ back) := by
  have hdot : Text.contains (joinWith ":" (gs.map groupText)) '.' = false := by
    rw [Text.contains_eq_false_iff]
    intro hc
    rcases Text.mem_joinWith hc with hc | ⟨t, ht, hc⟩
    · exact absurd hc (by decide)
    · exact (pieces_spec h ht).2.2 hc
  rw [List.append_assoc, long?, (cutAtColons_map h _).1]
  dsimp only
  rw [hdot, if_neg Bool.false_ne_true, side?_joinWith h, side?_joinWith hback]
  dsimp only [Option.bind_eq_bind, Option.bind_some]
  rw [if_neg (not_le.2 hlength)]
  rfl

/-- **Eight groups are read back from their text.** -/
theorem long?_groupsText (hlength : gs.length = 8) : long? (groupsText gs) = some gs := by
  rw [groupsText]
  dsimp only
  split_ifs with hrun
  · exact long?_joinWith h hlength
  · have hend := longestRun_add_le (show 0 < (longestRun gs).2 by omega)
    have hall := append_longestRun gs
    generalize longestRun gs = best at hrun hend hall
    obtain ⟨start, run⟩ := best
    dsimp only at hrun hend hall ⊢
    have hcount : (gs.take start).length + (gs.drop (start + run)).length < 8 := by
      rw [List.length_take, List.length_drop]
      omega
    have hzeros : 8 - (gs.take start).length - (gs.drop (start + run)).length = run := by
      rw [List.length_take, List.length_drop]
      omega
    rw [long?_joinWith_append (fun g hg => h g (List.mem_of_mem_take hg))
      (fun g hg => h g (List.mem_of_mem_drop hg)) hcount, hzeros, hall]

/-- The text of groups holds digits and colons only. -/
theorem mem_groupsText {c : CodePoint} (hc : c ∈ groupsText gs) :
    c = ':' ∨ c.hexValue? ≠ none := by
  have hpart : ∀ {part : List ℕ}, (∀ g ∈ part, g ∈ gs) →
      c ∈ joinWith ":" (part.map groupText) → c = ':' ∨ c.hexValue? ≠ none := by
    intro part hpart hc
    rcases Text.mem_joinWith hc with hc | ⟨t, ht, hc⟩
    · exact .inl (List.mem_singleton.1 hc)
    · obtain ⟨g, hg, rfl⟩ := List.mem_map.1 ht
      exact .inr fun hnone => notMem_groupText (h g (hpart g hg)) hnone hc
  rw [groupsText] at hc
  dsimp only at hc
  split_ifs at hc
  · exact hpart (fun _ hg => hg) hc
  · rw [List.mem_append, List.mem_append] at hc
    rcases hc with (hc | hc) | hc
    · exact hpart (fun _ hg => List.mem_of_mem_take hg) hc
    · have hcolons : Text.ofString "::" = List.replicate 2 (CodePoint.ofChar ':') := rfl
      rw [hcolons] at hc
      exact .inl (List.eq_of_mem_replicate hc)
    · exact hpart (fun _ hg => List.mem_of_mem_drop hg) hc

theorem notMem_groupsText {c : CodePoint} (hc : c ≠ ':') (hnone : c.hexValue? = none) :
    c ∉ groupsText gs := fun hmem =>
  (mem_groupsText h hmem).elim hc fun hsome => hsome hnone

omit h in
/-- There is a colon in the text of groups. -/
theorem colon_mem_groupsText (hlength : 2 ≤ gs.length) :
    CodePoint.ofChar ':' ∈ groupsText gs := by
  rw [groupsText]
  dsimp only
  split_ifs
  · obtain ⟨g, gs, rfl⟩ := List.exists_cons_of_length_pos (show 0 < gs.length by omega)
    rw [List.length_cons] at hlength
    obtain ⟨g', gs, rfl⟩ := List.exists_cons_of_length_pos (show 0 < gs.length by omega)
    rw [List.map_cons, List.map_cons, Text.joinWith_cons_cons]
    exact List.mem_append_left _ (List.mem_append_right _ List.mem_cons_self)
  · exact List.mem_append_left _ (List.mem_append_right _ List.mem_cons_self)

end Long

theorem lt_of_mem_groups {bits : BitVec 128} {g : ℕ} (h : g ∈ groups bits) : g < 65536 := by
  obtain ⟨i, -, rfl⟩ := List.mem_map.1 h
  exact Nat.mod_lt _ (by decide)

/-- The groups of an address make up its number. -/
theorem ofGroups_groups (bits : BitVec 128) : ofGroups (groups bits) = bits := by
  have hlt := bits.isLt
  have hvalue : (groups bits).foldl (fun n g => n * 65536 + g) 0 = bits.toNat := by
    simp only [groups, List.map_cons, List.map_nil, List.foldl_cons, List.foldl_nil]
    norm_num
    omega
  rw [ofGroups, hvalue, BitVec.ofNat_toNat, BitVec.setWidth_eq]

/-! ## Addresses -/

/-- The addresses that data give: a zone is not empty and holds neither a percent sign nor a
slash. -/
def IsProper : Address → Prop
  | v4 _ => True
  | v6 _ zone => ∀ z ∈ zone, z ≠ [] ∧ CodePoint.ofChar '%' ∉ z ∧ CodePoint.ofChar '/' ∉ z

theorem isProper_of_longOfText? {t : Text} {a : Address} (hslash : CodePoint.ofChar '/' ∉ t)
    (h : longOfText? t = some a) : a.IsProper := by
  rw [longOfText?] at h
  cases hcut : Text.cutAt '%' t with
  | mk front zone =>
    rw [hcut] at h
    obtain ⟨bits, -, h⟩ := Option.bind_eq_some_iff.1 h
    cases zone with
    | none =>
      cases h
      intro z hz
      cases hz
    | some z =>
      dsimp only at h
      split_ifs at h with hzone
      cases h
      rw [Bool.or_eq_true, not_or, Bool.not_eq_true, Bool.not_eq_true, List.isEmpty_eq_false_iff,
        Text.contains_eq_false_iff] at hzone
      intro z' hz
      cases hz
      have hsuffix : z <:+ t := Text.suffix_of_cutAt (c := CodePoint.ofChar '%') (by rw [hcut])
      exact ⟨hzone.1, hzone.2, fun hmem => hslash (hsuffix.subset hmem)⟩

theorem isProper_of_ofText? {t : Text} {a : Address} (h : ofText? t = some a) : a.IsProper := by
  rw [ofText?] at h
  split_ifs at h with hslash
  rw [Bool.not_eq_true, Text.contains_eq_false_iff] at hslash
  split at h
  · cases h
    trivial
  · exact isProper_of_longOfText? hslash h

theorem isProper_of_ofInt? {n : ℤ} {a : Address} (h : ofInt? n = some a) : a.IsProper := by
  rw [ofInt?] at h
  split_ifs at h
  · cases h
    trivial
  · cases h
    intro z hz
    cases hz

/-- **Data give proper addresses.** -/
theorem isProper_of_address {v : Json.Value} {a : Address} (h : Schema.address v = .valid a) :
    a.IsProper := by
  have hor : ∀ {o : Option Address}, Schema.addressOr o = .valid a → o = some a := by
    intro o ho
    cases o with
    | none => cases ho
    | some b =>
      cases ho
      rfl
  cases v with
  | text t => exact isProper_of_ofText? (hor h)
  | int n => exact isProper_of_ofInt? (hor h)
  | bool b => exact isProper_of_ofInt? (hor h)
  | null => cases h
  | float x => cases h
  | array vs => cases h
  | object ms => cases h

/-- A text with a colon is no short address. -/
theorem short?_eq_none {t : Text} (h : CodePoint.ofChar ':' ∈ t) : short? t = none := by
  rw [← Text.joinWith_splitOn '.' t] at h
  obtain hmem | ⟨piece, hpiece, hmem⟩ := Text.mem_joinWith h
  · exact absurd (List.mem_singleton.1 hmem) (by decide)
  · have hdigits : piece.all CodePoint.isDigit = false := by
      rw [List.all_eq_false]
      exact ⟨_, hmem, by decide⟩
    have hoctet : octet? piece = none := by
      rw [octet?, hdigits, Bool.not_false, Bool.or_true, if_pos rfl]
    rw [short?]
    split_ifs
    · rfl
    · rw [mapM_eq_none hpiece hoctet, Option.map_none]

/-- The text of a proper address holds no slash. -/
theorem slash_notMem_text {a : Address} (h : a.IsProper) : CodePoint.ofChar '/' ∉ a.text := by
  cases a with
  | v4 bits =>
    intro hc
    rcases isDigit_or_dot_of_mem_text hc with h | h <;> exact absurd h (by decide)
  | v6 bits zone =>
    rw [text.eq_def, List.mem_append, not_or]
    refine ⟨notMem_groupsText (fun _ => lt_of_mem_groups) (by decide) (by decide), ?_⟩
    cases zone with
    | none => exact List.not_mem_nil
    | some z => exact fun hmem => (List.mem_cons.1 hmem).elim (by decide) (h z rfl).2.2

/-- A long address is read back from its text. -/
theorem longOfText?_text {bits : BitVec 128} {zone : Option Text} (h : (v6 bits zone).IsProper) :
    longOfText? (v6 bits zone).text = some (v6 bits zone) := by
  have hgroups : ∀ g ∈ groups bits, g < 65536 := fun _ => lt_of_mem_groups
  have hlong := long?_groupsText hgroups rfl
  have hpercent : CodePoint.ofChar '%' ∉ groupsText (groups bits) :=
    notMem_groupsText hgroups (by decide) (by decide)
  rw [longOfText?]
  cases zone with
  | none =>
    have htext : (v6 bits none).text = groupsText (groups bits) := List.append_nil _
    rw [htext, Text.cutAt_of_notMem hpercent]
    dsimp only
    rw [hlong]
    change some (v6 (ofGroups (groups bits)) none) = _
    rw [ofGroups_groups]
  | some z =>
    obtain ⟨hne, hzone, -⟩ := h z rfl
    have hcut : Text.cutAt '%' (v6 bits (some z)).text = (groupsText (groups bits), some z) :=
      Text.cutAt_append_cons hpercent z
    rw [hcut]
    dsimp only
    rw [hlong]
    change (if z.isEmpty || z.contains '%' then none
      else some (v6 (ofGroups (groups bits)) (some z))) = _
    rw [List.isEmpty_eq_false_iff.2 hne, Text.contains_eq_false_iff.2 hzone, Bool.or_self,
      if_neg Bool.false_ne_true, ofGroups_groups]

/-- **An address is read back from its text.** -/
theorem ofText?_text {a : Address} (h : a.IsProper) : ofText? a.text = some a := by
  rw [ofText?, Text.contains_eq_false_iff.2 (slash_notMem_text h), if_neg Bool.false_ne_true]
  cases a with
  | v4 bits =>
    rw [short?_text]
    dsimp only
    rw [BitVec.ofNat_toNat, BitVec.setWidth_eq]
  | v6 bits zone =>
    have hcolon : CodePoint.ofChar ':' ∈ (v6 bits zone).text :=
      List.mem_append_left _ (colon_mem_groupsText (show 2 ≤ 8 by decide))
    rw [short?_eq_none hcolon]
    exact longOfText?_text h

end Address

end Abacus
