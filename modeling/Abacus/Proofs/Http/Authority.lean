import Mathlib
import Abacus.Proofs.Http.Url
import Abacus.Proofs.Outcome

/-!
# What stands behind the scheme of an address

Behind the scheme of an address there are a user, a host and a port, up to the first slash, question
mark or number sign. A host without brackets ends at its first colon, and a port holds no colon, so
that a second colon makes the address unusable.

* `Text.integer?_eq_none`: a text that holds a colon writes no integer;
* `Url.authority`, `Url.hostText`, `Url.portText`: the parts behind the scheme;
* `Url.ofText_eq`: how an address is read part by part;
* `Url.ofText_of_two_colons`: an address without user and brackets that has a colon too many;
* `Url.host_of_ofText`, `Host.subset_of_ofText?`: where the host and its zone come from;
* `Address.exists_groupsText_eq`: the colons of a long address.
-/

namespace Abacus

open Text (splitOn joinWith joinWith_cons_cons joinWith_splitOn mem_joinWith mem_trimWith)

/-! ## Colons in numbers -/

namespace Text

variable {t : Text}

theorem natural?_eq_none (h : CodePoint.ofChar ':' ∈ t) : natural? t = none := by
  have hmem : CodePoint.ofChar ':' ∈ (splitOn '_' t).flatten := by
    rw [← joinWith_splitOn '_' t] at h
    rcases mem_joinWith h with h | ⟨piece, hpiece, h⟩
    · exact absurd (List.mem_singleton.1 h) (by decide)
    · exact List.mem_flatten.2 ⟨piece, hpiece, h⟩
  have hdigits : (splitOn '_' t).flatten.mapM CodePoint.decimal? = none :=
    mapM_eq_none hmem (by decide)
  rw [natural?, hdigits]
  split_ifs <;> rfl

/-- **A text with a colon writes no integer.** -/
theorem integer?_eq_none (h : CodePoint.ofChar ':' ∈ t) : integer? t = none := by
  have htrim : CodePoint.ofChar ':' ∈ t.trimPadding := mem_trimWith h (by decide)
  rw [integer?]
  split
  · rfl
  · next c rest heq =>
    rw [heq] at htrim
    have hrest : c ≠ CodePoint.ofChar ':' → natural? rest = none := fun hc =>
      natural?_eq_none ((List.mem_cons.1 htrim).resolve_left (Ne.symm hc))
    split_ifs with hminus hplus
    · rw [hrest (hminus ▸ by decide)]
      rfl
    · rw [hrest (hplus ▸ by decide)]
      rfl
    · rw [natural?_eq_none htrim]
      rfl

end Text

/-! ## The parts of an address -/

namespace Url

variable {t before after : Text}

/-- What ends the part of an address behind its scheme. -/
def isEnd (c : CodePoint) : Bool := c = '/' || c = '?' || c = '#'

/-- The user, the host and the port of an address, as they stand in it. -/
def authority (t : Text) : Text := (t.drop scheme.length).takeWhile fun c => !isEnd c

/-- The host at the front of a text. -/
def hostText (place : Text) : Text := place.take (hostLength place)

/-- The port behind the host at the front of a text. -/
def portText (place : Text) : Text :=
  (behind? ':' (place.drop (hostText place).length)).getD (place.drop (hostText place).length)

/-- **How an address is read**: first the user, then the host, then the port; what comes after them
leaves the host as it is. -/
theorem ofText_eq (t : Text) :
    ofText t = .error .invalid ∨ ∃ finish : Host → Option ℤ → Except TargetError Url,
      (∀ host port url, finish host port = .ok url → url.host = host) ∧
        ofText t = (encodable ((cutUser (authority t)).1.getD []) >>= fun _ =>
          match Host.ofText? (hostText (cutUser (authority t)).2) with
          | some host => portOfText (portText (cutUser (authority t)).2) >>= finish host
          | _ => .error .invalid) := by
  rw [ofText]
  split_ifs
  · exact .inl rfl
  · refine .inr ⟨_, fun host port url h => ?_, rfl⟩
    obtain ⟨_, -, h⟩ := bind_eq_ok_iff.1 h
    split_ifs at h
    · cases h
    · cases h
      rfl

/-- The host of an address is read from the text behind its user. -/
theorem host_of_ofText {url : Url} (h : ofText t = .ok url) :
    Host.ofText? (hostText (cutUser (authority t)).2) = some url.host := by
  rcases ofText_eq t with hinvalid | ⟨finish, hfinish, heq⟩
  · cases hinvalid.symm.trans h
  · obtain ⟨_, -, h⟩ := bind_eq_ok_iff.1 (heq.symm.trans h)
    split at h
    · next host hhost =>
      obtain ⟨port, -, h⟩ := bind_eq_ok_iff.1 h
      rw [hhost, hfinish host port url h]
    · cases h

theorem portOfText_eq_error (h : CodePoint.ofChar ':' ∈ t) : portOfText t = .error .invalid := by
  rw [portOfText, List.isEmpty_eq_false_iff.2 (List.ne_nil_of_mem h), if_neg Bool.false_ne_true,
    Text.integer?_eq_none h]

/-- A host without brackets ends at the first colon. -/
theorem hostLength_of_not_bracket (hbefore : CodePoint.ofChar ':' ∉ before)
    (hbracket : Text.startsWith (before ++ CodePoint.ofChar ':' :: after) "[" = false) :
    hostLength (before ++ CodePoint.ofChar ':' :: after) = before.length := by
  have hall : ∀ c ∈ before, decide (c ≠ CodePoint.ofChar ':') = true := by
    intro c hc
    rw [decide_eq_true_eq]
    rintro rfl
    exact hbefore hc
  rw [hostLength, hbracket, Bool.false_and, if_neg Bool.false_ne_true,
    List.takeWhile_append_of_pos hall, List.takeWhile_cons_of_neg (by simp), List.append_nil]

/-- **A colon behind the one that ends the host makes an address unusable.** -/
theorem ofText_of_two_colons (ht : authority t = before ++ CodePoint.ofChar ':' :: after)
    (hbefore : CodePoint.ofChar ':' ∉ before) (hafter : CodePoint.ofChar ':' ∈ after)
    (hat : CodePoint.ofChar '@' ∉ authority t)
    (hbracket : Text.startsWith (authority t) "[" = false) : ofText t = .error .invalid := by
  rcases ofText_eq t with hinvalid | ⟨finish, -, heq⟩
  · exact hinvalid
  · have hlength := hostLength_of_not_bracket hbefore (ht ▸ hbracket)
    have hport : portText (authority t) = after := by
      rw [ht, portText, hostText, hlength, List.take_left, List.drop_left]
      rfl
    rw [heq, cutUser_of_notMem hat]
    dsimp only
    rw [hport, portOfText_eq_error hafter]
    split <;> rfl

/-- No at sign is left behind the user. -/
theorem at_notMem_cutUser (t : Text) : CodePoint.ofChar '@' ∉ (cutUser t).2 := by
  have hnot : CodePoint.ofChar '@' ∉
      (t.reverse.takeWhile fun c : CodePoint => c ≠ '@').reverse := by
    intro h
    exact absurd (List.mem_takeWhile_imp (List.mem_reverse.1 h)) (by simp)
  rw [cutUser]
  split_ifs with hlength
  · have hself : (t.reverse.takeWhile fun c : CodePoint => c ≠ '@') = t.reverse := by
      refine (List.takeWhile_prefix _).eq_of_length ?_
      rw [← List.length_reverse, hlength, List.length_reverse]
    rwa [hself, List.reverse_reverse] at hnot
  · exact hnot

end Url

/-! ## Long addresses -/

theorem Text.length_le_count_joinWith (c : CodePoint) (pieces : List Text) :
    pieces.length ≤ (joinWith [c] pieces).count c + 1 := by
  induction pieces with
  | nil => exact Nat.zero_le _
  | cons t pieces ih =>
    cases pieces with
    | nil => exact Nat.le_add_left 1 _
    | cons u pieces =>
      rw [joinWith_cons_cons, List.count_append, List.count_append, List.count_singleton_self,
        List.length_cons]
      omega

/-- **A long address has two colons at least.** -/
theorem Address.exists_groupsText_eq {gs : List ℕ} (hlength : 3 ≤ gs.length) :
    ∃ before after, groupsText gs = before ++ CodePoint.ofChar ':' :: after ∧
      CodePoint.ofChar ':' ∉ before ∧ CodePoint.ofChar ':' ∈ after := by
  have hcount : 2 ≤ (groupsText gs).count (CodePoint.ofChar ':') := by
    rw [groupsText]
    dsimp only
    split_ifs
    · have hpieces := Text.length_le_count_joinWith (CodePoint.ofChar ':') (gs.map groupText)
      have hcolon : Text.ofString ":" = [CodePoint.ofChar ':'] := rfl
      rw [List.length_map] at hpieces
      rw [hcolon]
      omega
    · have htwo : (Text.ofString "::").count (CodePoint.ofChar ':') = 2 := by decide
      rw [List.count_append, List.count_append, htwo]
      omega
  obtain ⟨before, after, heq, hbefore⟩ :=
    List.eq_append_cons_of_mem (colon_mem_groupsText (show 2 ≤ gs.length by omega))
  refine ⟨before, after, heq, hbefore, List.count_pos_iff.1 ?_⟩
  rw [heq, List.count_append, List.count_cons_self, List.count_eq_zero_of_not_mem hbefore] at hcount
  omega

theorem Address.suffix_of_longOfText? {t z : Text} {bits : BitVec 128}
    (h : longOfText? t = some (v6 bits (some z))) : z <:+ t := by
  rw [longOfText?] at h
  cases hcut : Text.cutAt '%' t with
  | mk front zone =>
    rw [hcut] at h
    obtain ⟨groups, -, h⟩ := Option.bind_eq_some_iff.1 h
    cases zone with
    | none => cases h
    | some z' =>
      dsimp only at h
      split_ifs at h
      cases h
      exact Text.suffix_of_cutAt (c := CodePoint.ofChar '%') (by rw [hcut])

/-- **The zone of a host stands in its text.** -/
theorem Host.subset_of_ofText? {t z : Text} {bits : BitVec 128}
    (h : ofText? t = some (.address (.v6 bits (some z)))) : z ⊆ t := by
  rw [ofText?] at h
  split at h
  · next inner hinner =>
    obtain ⟨a, ha, hhost⟩ := Option.map_eq_some_iff.1 h
    cases hhost
    rw [bracketed?] at hinner
    split_ifs at hinner
    cases hinner
    intro c hc
    exact List.tail_subset t (List.dropLast_subset _ ((Address.suffix_of_longOfText? ha).subset hc))
  · split_ifs at h
    · obtain ⟨n, -, hhost⟩ := Option.map_eq_some_iff.1 h
      cases hhost
    · cases h

end Abacus
