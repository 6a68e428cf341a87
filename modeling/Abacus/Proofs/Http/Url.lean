import Mathlib
import Abacus.Client
import Abacus.Proofs.Address

/-!
# The address of a service with a short host

A client with a short address writes down an address that is read back as it was meant, so that its
connections open.

* `Host.advance`, `Host.mem_foldl_joinWith`: numbers with dots between them look like one;
* `Text.integer?_ofNat`: reading a port;
* `Url.place`, `Url.ofText_address`: reading the whole; `Client.exists_connect`: what follows for a
  client.
-/

namespace Abacus

open Text (AllDigits allDigits_ofNat ofNat_ne_nil digitsValue_ofNat joinWith splitOn_of_notMem)

/-! ## Hosts -/

namespace Host

/-- The stages that a code point leads to. -/
def advance (stages : List ℕ) (c : CodePoint) : List ℕ :=
  (List.range 8).filter fun next => stages.any (follows c · next)

theorem isShortLike_eq (t : Text) : isShortLike t = (t.foldl advance [0]).contains 7 := rfl

variable {stages : List ℕ} {stage : ℕ}

theorem mem_advance {c : CodePoint} {next : ℕ} (h : stage ∈ stages) (hnext : next < 8)
    (hc : follows c stage next = true) : next ∈ advance stages c :=
  List.mem_filter.2 ⟨List.mem_range.2 hnext, List.any_eq_true.2 ⟨stage, h, hc⟩⟩

theorem follows_of_isDigit {c : CodePoint} (hc : c.isDigit = true) {next : ℕ}
    (hodd : next % 2 = 1) (h : next = stage ∨ next = stage + 1) :
    follows c stage next = true := by
  rw [follows, if_pos hodd, hc, Bool.true_and, Bool.or_eq_true, decide_eq_true_eq,
    decide_eq_true_eq]
  exact h

/-- Digits do not lead out of a number. -/
theorem mem_foldl_of_allDigits {t : Text} (ht : t.AllDigits) (hodd : stage % 2 = 1)
    (hlt : stage < 8) (h : stage ∈ stages) : stage ∈ t.foldl advance stages := by
  induction t generalizing stages with
  | nil => exact h
  | cons c t ih =>
    have hc := follows_of_isDigit (ht c List.mem_cons_self) hodd (.inl rfl)
    exact ih (fun d hd => ht d (List.mem_cons_of_mem _ hd)) (mem_advance h hlt hc)

/-- The digits of a number lead into it. -/
theorem mem_foldl_ofNat (n : ℕ) (heven : stage % 2 = 0) (hlt : stage < 7) (h : stage ∈ stages) :
    stage + 1 ∈ (Text.ofNat n).foldl advance stages := by
  have hdigits := allDigits_ofNat n
  cases hn : Text.ofNat n with
  | nil => exact absurd hn (ofNat_ne_nil n)
  | cons c t =>
    rw [hn] at hdigits
    have hodd : (stage + 1) % 2 = 1 := by omega
    have hc := follows_of_isDigit (hdigits c List.mem_cons_self) hodd (.inr rfl)
    have ht : AllDigits t := fun d hd => hdigits d (List.mem_cons_of_mem _ hd)
    rw [List.foldl_cons]
    exact mem_foldl_of_allDigits ht hodd (by omega) (mem_advance h (by omega) hc)

/-- A code point between two numbers leads out of the first one. -/
theorem mem_advance_between (c : CodePoint) (hodd : stage % 2 = 1) (hlt : stage < 7)
    (h : stage ∈ stages) : stage + 1 ∈ advance stages c := by
  refine mem_advance h (by omega) ?_
  rw [follows, if_neg (by omega), decide_eq_true_eq]

/-- **Numbers with dots between them lead two stages on for each.** -/
theorem mem_foldl_joinWith {ns : List ℕ} (hne : ns ≠ []) (heven : stage % 2 = 0)
    (hlt : stage + 2 * ns.length ≤ 8) (h : stage ∈ stages) :
    stage + 2 * ns.length - 1 ∈ (joinWith "." (ns.map Text.ofNat)).foldl advance stages := by
  induction ns generalizing stage stages with
  | nil => exact absurd rfl hne
  | cons n ns ih =>
    rw [List.length_cons] at hlt
    have hn := mem_foldl_ofNat n heven (by omega) h
    cases ns with
    | nil => exact hn
    | cons m ns =>
      have hpos : 0 < (m :: ns).length := List.length_pos_of_ne_nil (List.cons_ne_nil _ _)
      have hdot := mem_advance_between (CodePoint.ofChar '.') (by omega) (by omega) hn
      have hrest := ih (List.cons_ne_nil _ _) (by omega) (by omega) hdot
      have hstage : stage + 2 * (n :: m :: ns).length - 1 =
          stage + 1 + 1 + 2 * (m :: ns).length - 1 := by
        rw [List.length_cons]
        omega
      rw [hstage, List.map_cons, List.map_cons, joinWith]
      · rw [List.foldl_append, List.foldl_append]
        exact hrest
      · simp

/-- **A short address is read back from its text as a host.** -/
theorem ofText?_text (bits : BitVec 32) :
    ofText? (Address.v4 bits).text = some (.address (.v4 bits)) := by
  have hlike : isShortLike (Address.v4 bits).text = true := by
    rw [isShortLike_eq, List.contains_iff_mem]
    exact mem_foldl_joinWith (List.cons_ne_nil _ _) (by rfl : 0 % 2 = 0) le_rfl
      List.mem_cons_self
  have hbracket : (Address.v4 bits).text.startsWith "[" = false := by
    rw [← Bool.not_eq_true, Text.startsWith, List.isPrefixOf_iff_prefix]
    intro hprefix
    have hmem : CodePoint.ofChar '[' ∈ (Address.v4 bits).text :=
      hprefix.subset List.mem_cons_self
    rcases Address.isDigit_or_dot_of_mem_text hmem with h | h <;> exact absurd h (by decide)
  rw [ofText?, bracketed?, hbracket, hlike, Bool.false_and, if_neg Bool.false_ne_true]
  dsimp only
  rw [if_pos rfl, Address.short?_text, Option.map_some, BitVec.ofNat_toNat, BitVec.setWidth_eq]

end Host

/-! ## Ports -/

namespace Text

theorem decimal?_of_isDigit {c : CodePoint} (hc : c.isDigit = true) :
    c.decimal? = some c.digitValue := by
  rw [CodePoint.isDigit, Bool.and_eq_true, decide_eq_true_eq, decide_eq_true_eq] at hc
  have hfirst : (decide (0x30 ≤ c.val) && decide (c.val < 0x30 + 10)) = true := by
    rw [Bool.and_eq_true, decide_eq_true_eq, decide_eq_true_eq]
    omega
  rw [CodePoint.decimal?, CodePoint.zeros, List.find?_cons, hfirst]
  rfl

theorem isPadding_of_isDigit {c : CodePoint} (hc : c.isDigit = true) : c.isPadding = false := by
  rw [CodePoint.isDigit, Bool.and_eq_true, decide_eq_true_eq, decide_eq_true_eq] at hc
  have hblank : c.isBlank = false := by
    simp only [CodePoint.isBlank, CodePoint.blanks, List.any_cons, List.any_nil,
      ← Bool.not_eq_true, Bool.and_eq_true, Bool.or_eq_true, decide_eq_true_eq, Bool.false_eq_true,
      or_false]
    omega
  rw [CodePoint.isPadding, hblank, Bool.false_and]

theorem mapM_decimal? {t : Text} (ht : t.AllDigits) :
    t.mapM CodePoint.decimal? = some (t.map CodePoint.digitValue) := by
  induction t with
  | nil => rfl
  | cons c t ih =>
    rw [List.mapM_cons, decimal?_of_isDigit (ht c List.mem_cons_self),
      ih fun d hd => ht d (List.mem_cons_of_mem _ hd)]
    rfl

theorem natural?_ofNat {n : ℕ} (h : (ofNat n).length ≤ digitLimit) :
    natural? (ofNat n) = some n := by
  have hdigits := allDigits_ofNat n
  have hsplit : splitOn '_' (ofNat n) = [ofNat n] :=
    splitOn_of_notMem fun hmem => absurd (hdigits _ hmem) (by decide)
  have hne : (ofNat n).isEmpty = false := by
    rw [List.isEmpty_eq_false_iff]
    exact ofNat_ne_nil n
  have hvalue : ((ofNat n).map CodePoint.digitValue).foldl (fun n d => n * 10 + d) 0 = n := by
    rw [List.foldl_map]
    exact digitsValue_ofNat n
  rw [natural?, hsplit]
  simp [hne, mapM_decimal? hdigits, hvalue, h]

/-- **A number is read back from its digits.** -/
theorem integer?_ofNat {n : ℕ} (h : (ofNat n).length ≤ digitLimit) :
    integer? (ofNat n) = some (n : ℤ) := by
  have hdigits := allDigits_ofNat n
  have htrim : (ofNat n).trimPadding = ofNat n :=
    trimWith_of_forall fun c hc => isPadding_of_isDigit (hdigits c hc)
  rw [integer?, htrim]
  cases hn : ofNat n with
  | nil => exact absurd hn (ofNat_ne_nil n)
  | cons c rest =>
    have hc : c.isDigit = true := hdigits c (hn ▸ List.mem_cons_self)
    have hsign : ∀ d : CodePoint, d.isDigit = false → c ≠ d := by
      rintro d hd rfl
      rw [hc] at hd
      cases hd
    dsimp only
    rw [if_neg (hsign _ rfl), if_neg (hsign _ rfl), ← hn, natural?_ofNat h]
    rfl

end Text

/-! ## The address of a client -/

namespace Url

/-- What stands behind the scheme in the address of a client with a short host. -/
def place (bits : BitVec 32) (port : ℕ) : Text :=
  (Address.v4 bits).text ++ CodePoint.ofChar ':' :: Text.ofNat port

theorem address_eq {c : Client} {bits : BitVec 32} (hhost : c.host = .v4 bits) :
    c.address = scheme ++ place bits c.port := by
  rw [Client.address, hhost, List.append_assoc, List.append_assoc]
  rfl

section

variable {bits : BitVec 32} {port : ℕ} {c : CodePoint}

/-- The code points of a short address with a port: digits, dots and colons. -/
theorem range_of_mem_place (h : c ∈ place bits port) :
    0x2E ≤ c.val ∧ c.val ≤ 0x3A ∧ c.val ≠ 0x2F := by
  have hdigit : ∀ d : CodePoint, d.isDigit = true → 0x2E ≤ d.val ∧ d.val ≤ 0x3A ∧ d.val ≠ 0x2F := by
    intro d hd
    rw [CodePoint.isDigit, Bool.and_eq_true, decide_eq_true_eq, decide_eq_true_eq] at hd
    omega
  rcases List.mem_append.1 h with h | h
  · rcases Address.isDigit_or_dot_of_mem_text h with h | rfl
    · exact hdigit c h
    · decide
  · rcases List.mem_cons.1 h with rfl | h
    · decide
    · exact hdigit c (allDigits_ofNat port c h)

theorem notMem_place (h : c.val < 0x2E ∨ 0x3A < c.val) : c ∉ place bits port := by
  intro hmem
  have := range_of_mem_place hmem
  omega

theorem length_place_le (hport : port ≤ 65535) : (place bits port).length ≤ 21 := by
  have hhost := Address.length_text_le bits
  have hdigits : (Text.ofNat port).length ≤ 5 := Text.length_ofNat_le (by decide) (by omega)
  rw [place, List.length_append, List.length_cons]
  omega

theorem isControl_of_mem_place (h : c ∈ place bits port) : Target.isControl c = false := by
  have := range_of_mem_place h
  rw [Target.isControl, Bool.or_eq_false_iff, decide_eq_false_iff_not, decide_eq_false_iff_not]
  omega

/-- No path, query or fragment begins in a place. -/
theorem isInside_of_mem_place (h : c ∈ place bits port) :
    (!(decide (c = CodePoint.ofChar '/') || decide (c = CodePoint.ofChar '?') ||
      decide (c = CodePoint.ofChar '#'))) = true := by
  have hrange := range_of_mem_place h
  rw [Bool.not_eq_true', Bool.or_eq_false_iff, Bool.or_eq_false_iff, decide_eq_false_iff_not,
    decide_eq_false_iff_not, decide_eq_false_iff_not]
  refine ⟨⟨?_, ?_⟩, ?_⟩
  · rintro rfl
    exact hrange.2.2 rfl
  · rintro rfl
    exact absurd hrange (by decide)
  · rintro rfl
    exact absurd hrange (by decide)

end

theorem cutUser_of_notMem {t : Text} (h : CodePoint.ofChar '@' ∉ t) : cutUser t = (none, t) := by
  have hself : t.reverse.takeWhile (fun c : CodePoint => decide (c ≠ '@')) = t.reverse := by
    rw [List.takeWhile_eq_self_iff]
    intro c hc
    rw [decide_eq_true_eq]
    rintro rfl
    exact h (List.mem_reverse.1 hc)
  rw [cutUser, hself, List.reverse_reverse, if_pos rfl]

theorem hostLength_append {t u : Text} (ht : CodePoint.ofChar ':' ∉ t)
    (hbracket : CodePoint.ofChar ']' ∉ t ++ CodePoint.ofChar ':' :: u) :
    hostLength (t ++ CodePoint.ofChar ':' :: u) = t.length := by
  have hcontains : Text.contains (t ++ CodePoint.ofChar ':' :: u) ']' = false := by
    rw [Text.contains, List.any_eq_false]
    intro c hc
    rw [decide_eq_true_eq]
    rintro rfl
    exact hbracket hc
  have hall : ∀ c ∈ t, decide (c ≠ CodePoint.ofChar ':') = true := by
    intro c hc
    rw [decide_eq_true_eq]
    rintro rfl
    exact ht hc
  rw [hostLength, hcontains, Bool.and_false, if_neg Bool.false_ne_true,
    List.takeWhile_append_of_pos hall, List.takeWhile_cons_of_neg (by simp), List.append_nil]

theorem hostLength_place (bits : BitVec 32) (port : ℕ) :
    hostLength (place bits port) = (Address.v4 bits).text.length := by
  refine hostLength_append (fun hmem => ?_) (notMem_place (.inr (by decide)))
  rcases Address.isDigit_or_dot_of_mem_text hmem with h | h <;> exact absurd h (by decide)

theorem portOfText_ofNat {n : ℕ} (h : (Text.ofNat n).length ≤ Text.digitLimit) :
    portOfText (Text.ofNat n) = .ok (some (n : ℤ)) := by
  rw [portOfText, List.isEmpty_eq_false_iff.2 (ofNat_ne_nil n), if_neg Bool.false_ne_true,
    Text.integer?_ofNat h]

/-- **The address of a client with a short host is read back as it was meant.** -/
theorem ofText_address {c : Client} {bits : BitVec 32} (hhost : c.host = .v4 bits)
    (hport : c.port ≤ 65535) :
    ofText c.address = .ok ⟨none, .address (.v4 bits), some (c.port : ℤ), [], none, none⟩ := by
  have hdigits : (Text.ofNat c.port).length ≤ 5 := Text.length_ofNat_le (by decide) (by omega)
  have hshort : ¬Target.limit < (scheme ++ place bits c.port).length := by
    have hlength := @length_place_le bits c.port hport
    have hscheme : scheme.length = 7 := rfl
    rw [List.length_append, hscheme, Target.limit]
    omega
  have hcontrol : (scheme ++ place bits c.port).any Target.isControl = false := by
    rw [List.any_append, Bool.or_eq_false_iff]
    refine ⟨by decide, List.any_eq_false.2 fun d hd => ?_⟩
    rw [isControl_of_mem_place hd]
    exact Bool.false_ne_true
  have hscheme : Text.startsWith (scheme ++ place bits c.port) scheme = true :=
    List.isPrefixOf_iff_prefix.2 (List.prefix_append _ _)
  have htake := List.takeWhile_eq_self_iff.2 fun d hd => @isInside_of_mem_place bits c.port d hd
  have hdrop := List.dropWhile_eq_nil_iff.2 fun d hd => @isInside_of_mem_place bits c.port d hd
  have huser : cutUser (place bits c.port) = (none, place bits c.port) :=
    cutUser_of_notMem (notMem_place (.inr (by decide)))
  have hhostText : (place bits c.port).take (Address.v4 bits).text.length =
      (Address.v4 bits).text := List.take_left
  have hportText : (place bits c.port).drop (Address.v4 bits).text.length =
      CodePoint.ofChar ':' :: Text.ofNat c.port := List.drop_left
  rw [ofText, address_eq hhost]
  simp only [hscheme, hcontrol, decide_eq_false hshort, List.drop_left, htake, hdrop, huser,
    hostLength_place, hhostText, hportText, Host.ofText?_text, behind?, if_true, Option.getD_some,
    portOfText_ofNat (hdigits.trans (by decide))]
  rfl

end Url

/-- A client with a short host opens its connections to an address without a query. -/
theorem Client.exists_connect {c : Client} {bits : BitVec 32} (hhost : c.host = .v4 bits)
    (hport : c.port ≤ 65535) (s : Session) :
    ∃ url : Url, c.connect s = .ok (url, s.note (.connect c.address)) ∧ url.query = none := by
  refine ⟨⟨none, .address (.v4 bits), some (c.port : ℤ), [], none, none⟩, ?_, rfl⟩
  rw [Client.connect, Url.ofText_address hhost hport]

end Abacus
