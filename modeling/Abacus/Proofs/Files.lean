import Mathlib
import Abacus.Archive.Unpacking
import Abacus.Proofs.Outcome
import Abacus.Proofs.Text.Utf8
import Abacus.Proofs.Text.Writable

/-!
# Reading and writing files

* `Files.writable_readText`, `Unpacking.writable_unpack`: a text that is read from a file or
  unpacked from an archive can be written.
* `Files.target_ne_nil`, `Files.content?_write`: a file that is opened for writing is not the root,
  and it holds what was written.
* `Files.entry?_put`: what stands at each place after an entry was put at one of them.
* `Files.Holds`, `Files.holds_add`, `Files.readText_of_holds`: a file with directories all the way
  down to it is read by the names that lead there, unless they are too long.
-/

namespace Abacus

namespace Files

/-- **A text that is read from a file can be written.** -/
theorem writable_readText {f : Files} {p : Path} {t : Text} (h : f.readText p = .ok t) :
    t.Writable := by
  rw [readText] at h
  obtain ⟨content, -, h⟩ := bind_eq_ok_iff.1 h
  cases hcontent : content.text? with
  | none =>
    rw [hcontent] at h
    cases h
  | some u =>
    rw [hcontent] at h
    cases h
    obtain ⟨bytes, -, hdecode⟩ := Option.bind_eq_some_iff.1 hcontent
    exact Text.writable_normalizeNewlines (Utf8.isSurrogate_of_decode? hdecode)

/-- The place of a file that is opened for writing is not the root. -/
theorem target_ne_nil {f : Files} {p : Path} {place : Place} (h : f.target p = .ok place) :
    place ≠ [] := by
  rintro rfl
  rw [target] at h
  obtain ⟨place, -, h⟩ := bind_eq_ok_iff.1 h
  split_ifs at h with hdirectory
  cases h
  exact hdirectory rfl

/-- **A file holds what was written to it.** -/
theorem content?_write (f : Files) {place : Place} (hplace : place ≠ []) (t : Text) :
    (f.write place t).content? place = some (.bytes (Utf8.encodeLone t)) := by
  have hentry : entry? (f.write place t) place = some (.file (.bytes (Utf8.encodeLone t))) := by
    rw [ entry?, List.isEmpty_eq_false_iff.2 hplace, if_neg Bool.false_ne_true]
    exact List.lookup_cons_self
  rw [content?, hentry]

/-! ## Places -/

/-- Taking away what stands elsewhere changes nothing at a place. -/
theorem lookup_filter_ne {place q : Place} (hq : q ≠ place) (entries : List (Place × Entry)) :
    (entries.filter fun e => e.1 ≠ place).lookup q = entries.lookup q := by
  induction entries with
  | nil => rfl
  | cons e entries ih =>
    obtain ⟨other, entry⟩ := e
    by_cases hother : other = place
    · have hne : (q == other) = false := beq_eq_false_iff_ne.2 (hother ▸ hq)
      rw [List.filter_cons_of_neg (by simpa using hother), ih, List.lookup_cons, hne]
    · rw [List.filter_cons_of_pos (by simpa using hother), List.lookup_cons, List.lookup_cons, ih]

/-- **What stands at a place after an entry was put somewhere.** -/
theorem entry?_put (f : Files) (place : Place) (entry : Entry) (q : Place) :
    entry? (f.put place entry) q =
      if q = [] then some .directory else if q = place then some entry else f.entry? q := by
  by_cases hroot : q = []
  · rw [if_pos hroot, hroot]
    rfl
  · rw [if_neg hroot, entry?, List.isEmpty_eq_false_iff.2 hroot, if_neg Bool.false_ne_true]
    by_cases hq : q = place
    · rw [if_pos hq, hq]
      exact List.lookup_cons_self
    · have hne : (q == place) = false := beq_eq_false_iff_ne.2 hq
      rw [if_neg hq, put, List.lookup_cons, hne, lookup_filter_ne hq, entry?,
        List.isEmpty_eq_false_iff.2 hroot]
      rfl

theorem isDirectory_eq_true_iff {f : Files} {place : Place} :
    f.isDirectory place = true ↔ f.entry? place = some .directory := by
  rw [isDirectory, decide_eq_true_eq]

/-- A place is above another one. -/
def IsAbove (q place : Place) : Prop := q <+: place ∧ q ≠ place

/-- A file with given bytes stands at a place, and directories stand above it. -/
structure Holds (f : Files) (place : Place) (data : Bytes) : Prop where
  file : f.entry? place = some (.file (.bytes data))
  above : ∀ q, IsAbove q place → f.isDirectory q = true

/-- **Names lead down through directories** unless one of them is too long. -/
theorem walk_eq {f : Files} {place : Place} {parts : List Text}
    (h : ∀ q, place <+: q → IsAbove q (place ++ parts) → f.isDirectory q = true)
    (hup : Path.up ∉ parts) :
    f.walk place parts =
      if ∃ part ∈ parts, nameLimit < size part then .error .nameTooLong
      else .ok (place ++ parts) := by
  induction parts generalizing place with
  | nil => rw [walk, List.append_nil, if_neg (by rintro ⟨part, ⟨⟩, -⟩)]
  | cons part parts ih =>
    rw [List.mem_cons, not_or] at hup
    have hplace : f.entry? place = some .directory := by
      refine isDirectory_eq_true_iff.1 (h place List.prefix_rfl ⟨List.prefix_append _ _, ?_⟩)
      rw [ne_eq, List.self_eq_append_right]
      exact List.cons_ne_nil _ _
    have hassoc : place ++ part :: parts = place ++ [part] ++ parts := by
      rw [List.append_assoc, List.singleton_append]
    rw [walk, hplace]
    dsimp only
    rw [if_neg (Ne.symm hup.1)]
    by_cases hsize : nameLimit < size part
    · rw [if_pos hsize, if_pos ⟨part, List.mem_cons_self, hsize⟩]
    · have hrest := ih (fun q hq habove => h q ((List.prefix_append _ _).trans hq)
        (hassoc ▸ habove)) hup.2
      rw [if_neg hsize, hrest, hassoc]
      simp only [List.exists_mem_cons_iff, hsize, false_or]

theorem content_of_entry {f : Files} {p : Path} {place : Place} {c : Content}
    (hresolve : f.resolve p = .ok place) (hentry : entry? f place = some (.file c)) :
    f.content p = .ok c := by
  rw [content, hresolve]
  simp only [bind, Except.bind, hentry]
  rfl

theorem readText_of_content {f : Files} {p : Path} {c : Content} {t : Text}
    (hcontent : f.content p = .ok c) (ht : c.text? = some t) :
    f.readText p = .ok (Text.normalizeNewlines t) := by
  rw [readText, hcontent]
  simp only [bind, Except.bind, ht]
  rfl

/-- Why a path cannot be followed even if all is there that it leads through: it cannot be encoded,
or it is too long, or a name in it is. -/
def pathError? (p : Path) : Option AccessError :=
  if (Utf8.encodeStray? p.text).isNone then some .unencodable
  else if pathLimit < size p.text ∨ ∃ part ∈ p.parts, nameLimit < size part then some .nameTooLong
  else none

/-- **A file is read by the names that lead to it**, if they can be followed. -/
theorem readText_of_holds {f : Files} {p : Path} {data : Bytes} {t : Text}
    (h : f.Holds (f.home ++ p.parts) data) (hrelative : p.root = []) (hup : Path.up ∉ p.parts)
    (hzero : ∀ part ∈ p.parts, ∀ c ∈ part, c.val ≠ 0) (ht : Utf8.decode? data = some t) :
    f.readText p =
      match pathError? p with
      | some e => .error e
      | none => .ok (Text.normalizeNewlines t) := by
  have hnone : (p.parts.any fun part => part.any fun c => c.val = 0) = false := by
    rw [List.any_eq_false]
    intro part hpart
    rw [Bool.not_eq_true, List.any_eq_false]
    intro c hc
    rw [decide_eq_true_eq]
    exact hzero part hpart c hc
  have hwalk := walk_eq (fun q _ habove => h.above q habove) hup
  have hresolve : f.resolve p =
      match pathError? p with
      | some e => .error e
      | none => .ok (f.home ++ p.parts) := by
    rw [resolve, pathError?, hnone, Path.isAbsolute, hrelative]
    by_cases hencodable : (Utf8.encodeStray? p.text).isNone = true
    · rw [if_pos hencodable, if_pos hencodable]
    · rw [if_neg hencodable, if_neg hencodable, if_neg Bool.false_ne_true]
      by_cases hlength : pathLimit < size p.text
      · rw [if_pos hlength, if_pos (.inl hlength)]
      · rw [if_neg hlength]
        refine hwalk.trans ?_
        simp only [hlength, false_or]
        split_ifs <;> rfl
  cases herror : pathError? p with
  | some e =>
    rw [herror] at hresolve
    rw [readText, content, hresolve]
    rfl
  | none =>
    rw [herror] at hresolve
    exact readText_of_content (content_of_entry hresolve h.file) ht

/-- Directories are put where nothing stands; what stood there before stays. -/
theorem entry?_foldl_directories (above : List Place) (f : Files) (q : Place) :
    entry? (above.foldl (fun f p => if (f.entry? p).isNone then f.put p .directory else f) f) q =
      if q ∈ above ∧ (f.entry? q).isNone then some .directory else f.entry? q := by
  induction above generalizing f with
  | nil => simp
  | cons p above ih =>
    rw [List.foldl_cons, ih]
    by_cases hp : (f.entry? p).isNone = true
    · have hroot : p ≠ [] := by
        rintro rfl
        exact absurd hp (by simp [ entry?])
      rw [if_pos hp, entry?_put]
      by_cases hq : q = p
      · subst hq
        simp [hroot, hp]
      · by_cases hnil : q = []
        · subst hnil
          simp [ entry?]
        · simp [hq, hnil]
    · rw [if_neg hp]
      by_cases hq : q = p
      · subst hq
        simp [hp]
      · simp [hq]

theorem home_foldl_directories (above : List Place) (f : Files) :
    (above.foldl (fun f p => if (f.entry? p).isNone then f.put p .directory else f) f).home =
      f.home := by
  induction above generalizing f with
  | nil => rfl
  | cons p above ih =>
    rw [List.foldl_cons, ih]
    split_ifs <;> rfl

theorem home_add (f : Files) (place : Place) (entry : Entry) : (f.add place entry).home = f.home :=
  home_foldl_directories _ f

/-- The places above a place, but for the root. -/
theorem mem_above_iff {place q : Place} (hq : q ≠ []) :
    q ∈ (List.range place.length).tail.map place.take ↔ IsAbove q place := by
  rw [List.range_eq_range', List.tail_range', List.mem_map]
  constructor
  · rintro ⟨n, hn, rfl⟩
    rw [List.mem_range'_1] at hn
    refine ⟨List.take_prefix _ _, fun h => ?_⟩
    have := congrArg List.length h
    rw [List.length_take] at this
    omega
  · rintro ⟨hstart, hne⟩
    refine ⟨q.length, ?_, (List.prefix_iff_eq_take.1 hstart).symm⟩
    rw [List.mem_range'_1]
    have hpos := List.length_pos_of_ne_nil hq
    have hlt : q.length < place.length :=
      lt_of_le_of_ne hstart.length_le fun h => hne (hstart.eq_of_length h)
    omega

/-- **A file that is added has directories above it**, where no other file stands. -/
theorem holds_add {f : Files} {place : Place} (hplace : place ≠ [])
    (hfree : ∀ q, IsAbove q place → f.entry? q = none ∨ f.entry? q = some .directory)
    (data : Bytes) : (f.add place (.file (.bytes data))).Holds place data := by
  constructor
  · rw [add, entry?_put, if_neg hplace, if_pos rfl]
  · intro q hq
    rw [isDirectory_eq_true_iff, add, entry?_put]
    split_ifs with hroot
    · rfl
    · exact absurd ‹q = place› hq.2
    · rw [ entry?_foldl_directories]
      rcases hfree q hq with h | h
      · rw [if_pos ⟨(mem_above_iff hroot).2 hq, by rw [h, Option.isNone_none]⟩]
      · rw [h, Option.isNone_some, if_neg fun hne => Bool.false_ne_true hne.2]

end Files

namespace Unpacking

theorem writable_readBack {f : Files} {name t : Text} (h : readBack f name = .ok t) :
    t.Writable :=
  Files.writable_readText (mapError_eq_ok_iff.1 h)

theorem writable_along {name t : Text} {data : Bytes} (h : along name data = .ok t) :
    t.Writable := by
  rw [along] at h
  split at h
  · cases h
  · cases h
  · dsimp only at h
    split_ifs at h
    exact writable_readBack h

theorem writable_ofZip {members : List (Text × Bytes)} {t : Text} (h : ofZip members = .ok t) :
    t.Writable := by
  rw [ofZip] at h
  split at h
  · cases h
  · exact writable_readBack h

theorem writable_ofTape {members : List Archive.TapeMember} {t : Text}
    (h : ofTape members = .ok t) : t.Writable := by
  rw [ofTape] at h
  split at h
  · cases h
  · exact writable_along h

theorem writable_ofSevenZip {members : List (Text × Bytes)} {t : Text}
    (h : ofSevenZip members = .ok t) : t.Writable := by
  rw [ofSevenZip] at h
  split at h
  · cases h
  · split_ifs at h
    exact writable_readBack h

/-- **A text that is unpacked from an archive can be written.** -/
theorem writable_unpack {f : Files} {p : Path} {t : Text} (h : unpack f p = .ok t) :
    t.Writable := by
  rw [unpack] at h
  split at h
  · cases h
  · obtain ⟨content, -, h⟩ := bind_eq_ok_iff.1 h
    rw [ofContent.eq_def] at h
    split at h
    · exact writable_ofZip h
    · split_ifs at h
      exact writable_ofZip h
    · exact writable_ofTape h
    · exact writable_ofSevenZip h
    · cases h

end Unpacking

end Abacus
