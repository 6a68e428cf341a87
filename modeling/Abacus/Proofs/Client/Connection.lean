import Mathlib
import Abacus.Proofs.Client.Compute
import Abacus.Proofs.Client.Readiness
import Abacus.Proofs.Http.Authority
import Abacus.Proofs.Schema

/-!
# When a client can open its connections

A client writes down its host and its port as an address. A short host is read back from it together
with the port. A long one is not: it stands there without brackets, and its own colons are taken for
the one before the port.

* `Url.ofText_address_of_long`, `Url.host_ne_of_long`: the address of a client with a long host;
* `Client.Connects`, `Client.IsStranded`: clients none or all of whose calls fail for their address;
* `Client.port_le_of_ofData`: the ports of clients that data give;
* `Client.address_readable`: which clients can be reached.
-/

namespace Abacus

/-! ## The address of a client with a long host -/

namespace Url

variable {c : Client} {bits : BitVec 128} {zone : Option Text}

theorem authority_address (c : Client) :
    authority c.address =
      (c.host.text ++ CodePoint.ofChar ':' :: Text.ofNat c.port).takeWhile fun d => !isEnd d := by
  have haddress :
      c.address = scheme ++ (c.host.text ++ CodePoint.ofChar ':' :: Text.ofNat c.port) := by
    rw [Client.address, List.append_assoc, List.append_assoc]
    rfl
  rw [authority, haddress, List.drop_left]

/-- The groups of a long host stand whole behind the scheme. -/
theorem exists_authority_eq (hhost : c.host = .v6 bits zone) :
    ∃ rest, authority c.address = Address.groupsText (Address.groups bits) ++ rest := by
  have hall : ∀ d ∈ Address.groupsText (Address.groups bits), (!isEnd d) = true := by
    intro d hd
    have hmark : ∀ m : CodePoint, m ≠ ':' → m.hexValue? = none → d ≠ m := by
      rintro m hm hnone rfl
      exact Address.notMem_groupsText (fun _ => Address.lt_of_mem_groups) hm hnone hd
    rw [Bool.not_eq_true', isEnd, Bool.or_eq_false_iff, Bool.or_eq_false_iff,
      decide_eq_false_iff_not, decide_eq_false_iff_not, decide_eq_false_iff_not]
    exact ⟨⟨hmark _ (by decide) (by decide), hmark _ (by decide) (by decide)⟩,
      hmark _ (by decide) (by decide)⟩
  rw [authority_address, hhost, Address.text.eq_def]
  dsimp only
  rw [List.append_assoc, List.takeWhile_append_of_pos hall]
  exact ⟨_, rfl⟩

/-- **The address of a client with a long host is unusable** if there is no user in it. -/
theorem ofText_address_of_long (hhost : c.host = .v6 bits zone)
    (hat : CodePoint.ofChar '@' ∉ authority c.address) :
    ofText c.address = .error .invalid := by
  obtain ⟨rest, hauthority⟩ := exists_authority_eq hhost
  have hlength : 3 ≤ (Address.groups bits).length := (by decide : 3 ≤ 8)
  obtain ⟨before, after, hgroups, hbefore, hafter⟩ := Address.exists_groupsText_eq hlength
  have hbracket : Text.startsWith (authority c.address) "[" = false := by
    rw [← Bool.not_eq_true, Text.startsWith, List.isPrefixOf_iff_prefix, hauthority, hgroups]
    rintro ⟨tail, htail⟩
    have hfirst : CodePoint.ofChar '[' ∈ Address.groupsText (Address.groups bits) := by
      rw [hgroups]
      cases before with
      | nil => exact absurd (List.cons.inj htail).1 (by decide)
      | cons d before => exact (List.cons.inj htail).1 ▸ List.mem_cons_self
    exact Address.notMem_groupsText (fun _ => Address.lt_of_mem_groups) (by decide) (by decide)
      hfirst
  rw [hgroups, List.append_assoc, List.cons_append] at hauthority
  exact ofText_of_two_colons hauthority hbefore (List.mem_append_left _ hafter) hat hbracket

/-- An at sign in the address of a client with a long host is one in its zone. -/
theorem at_mem_zone (hhost : c.host = .v6 bits zone)
    (hat : CodePoint.ofChar '@' ∈ authority c.address) :
    ∃ z, zone = some z ∧ CodePoint.ofChar '@' ∈ z := by
  rw [authority_address] at hat
  rcases List.mem_append.1 ((List.takeWhile_sublist _).subset hat) with hmem | hmem
  · rw [hhost, Address.text.eq_def] at hmem
    rcases List.mem_append.1 hmem with hmem | hmem
    · exact absurd hmem
        (Address.notMem_groupsText (fun _ => Address.lt_of_mem_groups) (by decide) (by decide))
    · cases zone with
      | none => exact absurd hmem List.not_mem_nil
      | some z => exact ⟨z, rfl, (List.mem_cons.1 hmem).resolve_left (by decide)⟩
  · rcases List.mem_cons.1 hmem with heq | hmem
    · exact absurd heq (by decide)
    · exact absurd (Text.allDigits_ofNat _ _ hmem) (by decide)

/-- **A long host is never read back.** If the address of the client can be used after all, then
because its zone holds an at sign; what stands before that is taken for a user, and the host is
what follows, where there is none. -/
theorem host_ne_of_long (hhost : c.host = .v6 bits zone) {url : Url}
    (h : ofText c.address = .ok url) : url.host ≠ .address (.v6 bits zone) := by
  intro hback
  have hread := host_of_ofText h
  by_cases hat : CodePoint.ofChar '@' ∈ authority c.address
  · obtain ⟨z, rfl, hz⟩ := at_mem_zone hhost hat
    rw [hback] at hread
    exact at_notMem_cutUser _ (List.take_subset _ _ (Host.subset_of_ofText? hread hz))
  · cases (ofText_address_of_long hhost hat).symm.trans h

end Url

/-! ## Calls -/

theorem Question.body_ne (expression : Json.Value) :
    body expression ≠ .error .invalidAddress := by
  rw [body.eq_def]
  split
  · rintro ⟨⟩
  · split_ifs
    · rintro ⟨⟩
    · split <;> rintro ⟨⟩

namespace Client

theorem send_ne (call : Call) (s : Session) : (send call s).1 ≠ .error .invalidAddress := by
  rw [send]
  split
  · rintro ⟨⟩
  · intro h
    obtain ⟨e, -, he⟩ := mapError_eq_error_iff.1 h
    cases he

end Client

namespace Batch

variable {url : Url} {s : Session}

theorem content_ne (files : Files) (input : Path) :
    content files input ≠ .error .invalidAddress := by
  rw [content]
  split_ifs <;>
  · intro h
    obtain ⟨e, -, he⟩ := mapError_eq_error_iff.1 h
    cases he

theorem outcome_ne (reply : Json.Value) : outcome reply ≠ .error .invalidAddress := by
  rw [outcome.eq_def]
  split
  · split
    · rintro ⟨⟩
    · split <;> rintro ⟨⟩
  · rintro ⟨⟩

theorem replyRecord_ne (line : Text) (reply : Json.Value) :
    replyRecord line reply ≠ .error .invalidAddress := by
  intro h
  rcases bind_eq_error_iff.1 h with h | ⟨t, -, h⟩
  · exact outcome_ne reply h
  · dsimp only at h
    split_ifs at h <;> cases h

theorem record_ne (url : Url) (number : ℕ) (line : Text) (s : Session) :
    (record url number line s).1 ≠ .error .invalidAddress := by
  rw [record]
  split_ifs
  · intro h
    rcases bind_eq_error_iff.1 h with h | ⟨reply, -, h⟩
    · exact Client.send_ne _ _ h
    · exact replyRecord_ne _ _ h
  · rintro ⟨⟩

/-- No line of a batch fails for the address. -/
theorem failure_ne (url : Url) (number : ℕ) (lines : List Text) (s : Session) :
    (run url number lines s).failure ≠ some .invalidAddress := by
  induction lines generalizing number s with
  | nil => rintro ⟨⟩
  | cons line lines ih =>
    have hrecord := record_ne url number line s
    rw [run]
    split
    · next e s' heq =>
      rw [heq] at hrecord
      intro h
      exact hrecord (congrArg Except.error (Option.some.inj h))
    · exact ih _ _

end Batch

namespace Client

variable {c : Client} {url : Url}

theorem sendLines_ne (url : Url) (lines : List Text) (output : Path) (place : Place)
    (s : Session) : (sendLines url lines output place s).1 ≠ .error .invalidAddress := by
  have hfailure := Batch.failure_ne url 1 lines s
  rw [sendLines]
  dsimp only
  split
  · next e heq =>
    rintro ⟨⟩
    exact hfailure heq
  · rintro ⟨⟩

/-- No call of a client fails for its address, which is read as a given one. A wait can still fail
for a pause that the clock refuses, and a direct question for its own path or query. -/
structure Connects (c : Client) (url : Url) : Prop where
  wait : ∀ retries delay s, (∃ ready, (c.waitUntilReady retries delay s).1 = .ok ready) ∨
    ∃ e, s.clock.refusal? delay = some e ∧
      (c.waitUntilReady retries delay s).1 = .error (.pause e)
  calculate : ∀ e s, (c.calculate e s).1 ≠ .error .invalidAddress
  sendFile : ∀ input output s, (c.sendFile input output s).1 ≠ .error .invalidAddress
  question : ∀ action v1 v2 s, (c.compute action v1 v2 s).1 = .error .invalidAddress ↔
    Question.call url action v1 v2 = .error .invalid
  compute : ∀ (op : Operator) (x y : Float) s, x.isFinite = true → y.isFinite = true →
    (c.compute (Text.ofString op.name) (.float x) (.float y) s).1 ≠ .error .invalidAddress

/-- Every call of a client fails for its address and leaves the session as it is; a batch fails so
unless its text cannot even be read. -/
structure IsStranded (c : Client) : Prop where
  wait : ∀ retries delay s, c.waitUntilReady retries delay s = (.error .invalidAddress, s)
  calculate : ∀ e s, c.calculate e s = (.error .invalidAddress, s)
  sendFile : ∀ input output s t, Batch.content s.files input = .ok t →
    c.sendFile input output s = (.error .invalidAddress, s)
  compute : ∀ action v1 v2 s, c.compute action v1 v2 s = (.error .invalidAddress, s)

theorem connects_of_ofText (hurl : Url.ofText c.address = .ok url) (hquery : url.query = none) :
    c.Connects url := by
  have hconnect : ∀ s, c.connect s = .ok (url, s.note (.connect c.address)) := by
    intro s
    rw [connect, hurl]
  have hcompute : ∀ action v1 v2 s, (c.compute action v1 v2 s).1 = .error .invalidAddress ↔
      Question.call url action v1 v2 = .error .invalid := by
    intro action v1 v2 s
    rw [compute, hconnect]
    dsimp only
    cases Question.call url action v1 v2 with
    | error e => cases e <;> simp [ClientError.ofTargetError]
    | ok call => exact iff_of_false (send_ne _ _) (by rintro ⟨⟩)
  refine ⟨fun retries delay s => ?_, fun e s => ?_, fun input output s => ?_, hcompute,
    fun op x y s hx hy => ?_⟩
  · rw [waitUntilReady_eq (hconnect s)]
    rcases poll_cases url delay retries.toNat (s.note (.connect c.address)) with
      ⟨ready, hready⟩ | ⟨e, hclock, herror⟩
    · exact .inl ⟨ready, by rw [hready]; rfl⟩
    · exact .inr ⟨e, hclock, by rw [herror]; rfl⟩
  · rw [calculate, hconnect]
    dsimp only
    split
    · next e' hbody =>
      rintro ⟨⟩
      exact Question.body_ne e hbody
    · exact send_ne _ _
  · rw [sendFile]
    split
    · next e hcontent =>
      rintro ⟨⟩
      exact Batch.content_ne _ _ hcontent
    · rw [hconnect]
      dsimp only
      split
      · rintro ⟨⟩
      · exact sendLines_ne _ _ _ _ _
  · rw [ne_eq, hcompute, Question.call_eq hquery op hx hy]
    rintro ⟨⟩

theorem isStranded_of_ofText (h : Url.ofText c.address = .error .invalid) : c.IsStranded := by
  have hconnect : ∀ s, c.connect s = .error .invalidAddress := by
    intro s
    rw [connect, h]
    rfl
  refine ⟨fun retries delay s => ?_, fun e s => ?_, fun input output s t ht => ?_,
    fun action v1 v2 s => ?_⟩
  · rw [waitUntilReady, hconnect]
  · rw [calculate, hconnect]
  · rw [sendFile, ht]
    dsimp only
    rw [hconnect]
  · rw [compute, hconnect]

/-! ## Clients that data give -/

theorem port_le_of_ofData {members : Json.Members} (h : ofData members = .valid c) :
    c.port ≤ 65535 := by
  obtain ⟨_, _, htimeout, -, rfl⟩ := Checked.seq_eq_valid_iff.1 h
  obtain ⟨_, _, hports, -, rfl⟩ := Checked.seq_eq_valid_iff.1 htimeout
  obtain ⟨_, port, hhost, hport, rfl⟩ := Checked.seq_eq_valid_iff.1 hports
  obtain ⟨host, -, rfl⟩ := Checked.map_eq_valid_iff.1 hhost
  rcases Schema.exists_of_optional hport with rfl | ⟨v, hv⟩
  · exact (by decide : standard.port ≤ 65535)
  · exact (Schema.bounds_of_port hv).2

/-- **Which clients can be reached.** The address of a client that data give is read back with its
host exactly if that is a short one. Then it is the host and the port and nothing else, and no call
fails for the address. A long host is not found again in the address. Unless its zone holds an at
sign, which makes all before it a user, the address cannot be used, and every call fails before
anything is sent. -/
theorem address_readable {members : Json.Members} (h : ofData members = .valid c) :
    ((∃ url, Url.ofText c.address = .ok url ∧ url.host = .address c.host) ↔
      c.host.isLong = false) ∧
    (c.host.isLong = false →
      let url : Url := ⟨none, .address c.host, some (c.port : ℤ), [], none, none⟩
      Url.ofText c.address = .ok url ∧ c.Connects url) ∧
    (c.host.isLong = true → CodePoint.ofChar '@' ∉ Url.authority c.address →
      Url.ofText c.address = .error .invalid ∧ c.IsStranded) := by
  have hport := port_le_of_ofData h
  cases hhost : c.host with
  | v4 bits =>
    have hurl := Url.ofText_address hhost hport
    exact ⟨iff_of_true ⟨_, hurl, rfl⟩ rfl, fun _ => ⟨hurl, connects_of_ofText hurl rfl⟩,
      by rintro ⟨⟩⟩
  | v6 bits zone =>
    refine ⟨iff_of_false ?_ (by rintro ⟨⟩), by rintro ⟨⟩, fun _ hat => ?_⟩
    · rintro ⟨url, hurl, hback⟩
      exact Url.host_ne_of_long hhost hurl hback
    · have hurl := Url.ofText_address_of_long hhost hat
      exact ⟨hurl, isStranded_of_ofText hurl⟩

/-- A client of the machine itself, by its short address and by its long one. -/
theorem address_readable_loopback :
    let short : Client := ⟨.loopback, 8080, 10⟩
    let long : Client := ⟨.v6 1 none, 8080, 10⟩
    ofData [("port", .int 8080)] = .valid short ∧
      Url.ofText short.address = .ok ⟨none, .address .loopback, some 8080, [], none, none⟩ ∧
      ofData [("host", .text "::1"), ("port", .int 8080)] = .valid long ∧
      long.address = ("http://::1:8080" : Text) ∧
      ∀ s, long.calculate (.int 1) s = (.error .invalidAddress, s) := by
  intro short long
  have hshort : ofData [("port", .int 8080)] = .valid short := rfl
  have hlong : ofData [("host", .text "::1"), ("port", .int 8080)] = .valid long := rfl
  have hat : CodePoint.ofChar '@' ∉ Url.authority long.address := by decide +kernel
  obtain ⟨-, hread, -⟩ := address_readable hshort
  obtain ⟨-, -, hstranded⟩ := address_readable hlong
  exact ⟨hshort, (hread rfl).1, hlong, by decide +kernel,
    (hstranded rfl hat).2.calculate (.int 1)⟩

end Client

end Abacus
