import Mathlib
import Abacus.Proofs.Files
import Abacus.Proofs.Path

/-!
# Unpacking archives

What an archive gives depends on the files in it, not on its format, unless the format that takes
names for paths takes one for a path that leads out of the folder.

* `Archive.files`, `Archive.format`: the files in an archive and its format.
* `Unpacking.Sound`, `Unpacking.firstExpressionFile?`: names and contents as they are packed from
  files, and the member that counts.
* `Unpacking.textOf`: what becomes of a member whose name can be followed or not.
* `Unpacking.plainly_eq`, `Unpacking.along_eq`: a file that is unpacked is read back.
* `Unpacking.ofContent_of_none`, `Unpacking.ofContent_of_some`: an archive gives the text of its
  first expression file.
-/

namespace Abacus

namespace Archive

/-- The name and the bytes of a member of a tape archive that is a file. -/
def TapeMember.file? (m : TapeMember) : Option (Text × Bytes) :=
  match m.kind with
  | .file data => some (m.name, data)
  | _ => none

/-- The files in an archive, in their order. -/
def files : Archive → List (Text × Bytes)
  | zip members | sevenZip members => members
  | tarXz members => members.filterMap TapeMember.file?

/-- The format of an archive. -/
def format : Archive → ArchiveFormat
  | zip _ => .zip
  | tarXz _ => .tarXz
  | sevenZip _ => .sevenZip

end Archive

namespace Unpacking

open Files (IsAbove Holds pathError?)
open Abacus.Path (up)
open Text (splitOn)

/-! ## Files as they are packed -/

/-- Names and contents as they are packed from files: the names are relative paths, each of them
stands once, and the contents are texts. -/
structure Sound (members : List (Text × Bytes)) : Prop where
  plain : ∀ m ∈ members, Path.IsPlain m.1
  distinct : (members.map Prod.fst).Nodup
  texts : ∀ m ∈ members, (Utf8.decode? m.2).isSome = true

/-- The first expression file. -/
def firstExpressionFile? (members : List (Text × Bytes)) : Option (Text × Bytes) :=
  members.find? fun m => isExpressionFile m.1

/-- What becomes of a member with a name and a text: the text with its line ends unified, unless the
name cannot be followed in the file system. -/
def textOf (name text : Text) : Except UnpackingError Text :=
  match pathError? (Path.ofText name) with
  | some e => .error (.access e)
  | none => .ok (Text.normalizeNewlines text)

/-! ## One member -/

section Member

variable {name t : Text} {data : Bytes}

theorem start_eq : start = ⟨folder, [(folder, .directory)]⟩ := rfl

theorem entry?_start {q : Place} (hq : q ≠ []) :
    start.entry? q = if q = folder then some .directory else none := by
  rw [start_eq, Files.entry?, List.isEmpty_eq_false_iff.2 hq, if_neg Bool.false_ne_true,
    List.lookup_cons, List.lookup_nil]
  by_cases h : q = folder
  · rw [if_pos h, beq_iff_eq.2 h]
  · rw [if_neg h, beq_eq_false_iff_ne.2 h]

/-- Nothing but directories stands in the folder at first. -/
theorem entry?_start_cases (q : Place) :
    start.entry? q = none ∨ start.entry? q = some .directory := by
  by_cases hq : q = []
  · rw [hq]
    exact .inr rfl
  · rw [entry?_start hq]
    split_ifs
    · exact .inr rfl
    · exact .inl rfl

theorem up_notMem (hplain : Path.IsPlain name) : up ∉ splitOn Path.separator name :=
  fun hup => (hplain.parts up hup).2.2 rfl

/-- **A member is read back from the file that its name leads to.** -/
theorem readBack_of_holds (hplain : Path.IsPlain name) (ht : Utf8.decode? data = some t)
    {f : Files} (hhome : f.home = folder)
    (h : f.Holds (folder ++ splitOn Path.separator name) data) :
    readBack f name = textOf name t := by
  have hpath := Path.ofText_of_isPlain hplain
  have hread := @Files.readText_of_holds f (Path.ofText name) data t (by rwa [hhome, hpath])
    (by rw [hpath]) (by rw [hpath]; exact up_notMem hplain)
    (by
      rw [hpath]
      exact fun part hpart c hc => hplain.nonzero c (Text.mem_of_mem_splitOn hpart hc).1) ht
  rw [readBack, hread, textOf]
  cases pathError? (Path.ofText name) <;> rfl

/-- **A member that is unpacked by its name is read back.** -/
theorem plainly_eq (hplain : Path.IsPlain name) (ht : Utf8.decode? data = some t) :
    plainly name data = textOf name t := by
  have hparts : (Path.partsOf name).filter (fun part => part ≠ up) =
      splitOn Path.separator name := by
    rw [Path.partsOf_of_isPlain hplain, List.filter_eq_self]
    exact fun part hpart => decide_eq_true fun heq => up_notMem hplain (heq ▸ hpart)
  rw [plainly, hparts]
  exact readBack_of_holds hplain ht (Files.home_add _ _ _)
    (Files.holds_add (List.cons_ne_nil _ _) (fun q _ => entry?_start_cases q) data)

/-- The trail of parts that do not lead up. -/
theorem trail_eq {parts : List Text} (h : up ∉ parts) (places : List Place) :
    trail places parts =
      some ((parts.inits.tail.map (places.headD folder ++ ·)).reverse ++ places) := by
  induction parts generalizing places with
  | nil => rfl
  | cons part parts ih =>
    have hne : part ≠ up := fun heq => h (heq ▸ List.mem_cons_self)
    have hrest : up ∉ parts := fun hmem => h (List.mem_cons_of_mem _ hmem)
    obtain ⟨more, hmore⟩ : ∃ more, parts.inits = [] :: more := by
      cases parts <;> exact ⟨_, rfl⟩
    rw [trail, if_neg hne, ih hrest, List.inits_cons, hmore]
    simp [Function.comp_def]

/-- Directories that are put at places stand there. -/
theorem entry?_foldr_put (above : List Place) (f : Files) {q : Place} (hq : q ≠ []) :
    Files.entry? (above.foldr (fun p files => files.put p .directory) f) q =
      if q ∈ above then some .directory else f.entry? q := by
  induction above with
  | nil => simp
  | cons p above ih =>
    rw [List.foldr_cons, Files.entry?_put, if_neg hq, ih]
    by_cases hp : q = p <;> simp [hp]

theorem home_foldr_put (above : List Place) (f : Files) :
    (above.foldr (fun p files => files.put p .directory) f).home = f.home := by
  induction above with
  | nil => rfl
  | cons p above ih => exact ih

theorem mem_tail_inits {α : Type} {l r : List α} : r ∈ l.inits.tail ↔ r <+: l ∧ r ≠ [] := by
  cases l with
  | nil => simp
  | cons a l =>
    rw [List.inits_cons, List.tail_cons, List.mem_map]
    constructor
    · rintro ⟨r, hr, rfl⟩
      exact ⟨List.cons_prefix_cons.2 ⟨rfl, (List.mem_inits _ _).1 hr⟩, List.cons_ne_nil _ _⟩
    · rintro ⟨hr, hne⟩
      rcases List.prefix_cons_iff.1 hr with rfl | ⟨r, rfl, htail⟩
      · exact absurd rfl hne
      · exact ⟨r, (List.mem_inits _ _).2 htail, rfl⟩

/-- The trail of a name: the place that it leads to, and all places between that and the folder. -/
theorem exists_trail {parts : List Text} (hne : parts ≠ []) (hup : up ∉ parts) :
    ∃ above, trail [] parts = some ((folder ++ parts) :: above) ∧
      ∀ q, q ∈ above ↔ IsAbove q (folder ++ parts) ∧ ¬q <+: folder := by
  obtain ⟨front, last, rfl⟩ := (List.eq_nil_or_concat' parts).resolve_left hne
  have hmem : ∀ r, r ∈ front.inits.tail ↔ r <+: front ∧ r ≠ [] := fun r => mem_tail_inits
  have hinits : front.inits = [] :: front.inits.tail := by
    cases front <;> rfl
  refine ⟨(front.inits.tail.map (folder ++ ·)).reverse, ?_, fun q => ?_⟩
  · rw [trail_eq hup, List.inits_append, hinits]
    simp
  · rw [List.mem_reverse, List.mem_map]
    constructor
    · rintro ⟨r, hr, rfl⟩
      obtain ⟨hr, hnil⟩ := (hmem r).1 hr
      have hlength := hr.length_le
      refine ⟨⟨(List.prefix_append_right_inj _).2 (hr.trans (List.prefix_append _ _)), ?_⟩, ?_⟩
      · intro heq
        have := congrArg List.length (List.append_cancel_left heq)
        rw [List.length_append, List.length_singleton] at this
        omega
      · intro hfolder
        have := hfolder.length_le
        have := List.length_pos_of_ne_nil hnil
        rw [List.length_append] at *
        omega
    · rintro ⟨⟨hstart, hne⟩, hfolder⟩
      rw [← List.append_assoc] at hstart hne
      have hfront := (List.prefix_concat_iff.1 hstart).resolve_left hne
      obtain ⟨r, rfl⟩ := (List.prefix_or_prefix_of_prefix hfront
        (List.prefix_append folder front)).resolve_left hfolder
      refine ⟨r, (hmem r).2 ⟨(List.prefix_append_right_inj _).1 hfront, ?_⟩, rfl⟩
      rintro rfl
      exact hfolder (by rw [List.append_nil])

/-- The folder at first, with directories at places. -/
def startWith (above : List Place) : Files :=
  above.foldr (fun p files => files.put p .directory) start

theorem entry?_startWith (above : List Place) {q : Place} (hq : q ≠ []) :
    Files.entry? (startWith above) q =
      if q ∈ above then some .directory else if q = folder then some .directory else none := by
  rw [startWith, entry?_foldr_put _ _ hq, entry?_start hq]

/-- A file at the end of a trail has directories all the way down to it. -/
theorem holds_put_startWith {above : List Place} {place : Place} (hplace : place ≠ [])
    (habove : ∀ q, IsAbove q place → ¬q <+: folder → q ∈ above) (data : Bytes) :
    ((startWith above).put place (.file (.bytes data))).Holds place data := by
  constructor
  · rw [Files.entry?_put, if_neg hplace, if_pos rfl]
  · intro q hq
    rw [Files.isDirectory_eq_true_iff, Files.entry?_put, if_neg hq.2]
    split_ifs with hroot
    · rfl
    · rw [entry?_startWith above hroot]
      split_ifs with hin hfolder
      · rfl
      · rfl
      · -- What is not in the trail lies at the folder or above it.
        have hstart : q <+: folder := not_not.1 fun hnot => hin (habove q hq hnot)
        rcases List.prefix_cons_iff.1 hstart with rfl | ⟨rest, rfl, hrest⟩
        · exact absurd rfl hroot
        · rw [List.prefix_nil.1 hrest] at hfolder
          exact absurd rfl hfolder

/-- **A member that is unpacked along its name is read back.** -/
theorem along_eq (hplain : Path.IsPlain name) (ht : Utf8.decode? data = some t) :
    along name data = textOf name t := by
  set parts := splitOn Path.separator name with hparts
  have hne : parts ≠ [] := Text.splitOn_ne_nil _ _
  obtain ⟨above, htrail, hmem⟩ := exists_trail hne (up_notMem hplain)
  have hplace : folder ++ parts ≠ [] := List.cons_ne_nil _ _
  have hfree : (startWith above).isDirectory (folder ++ parts) = false := by
    have hnot : folder ++ parts ∉ above := fun hin => ((hmem _).1 hin).1.2 rfl
    have hfolder : folder ++ parts ≠ folder := by
      rwa [ne_eq, List.append_right_eq_self]
    rw [Files.isDirectory, entry?_startWith above hplace, if_neg hnot, if_neg hfolder]
    rfl
  have hholds := holds_put_startWith hplace (fun q hq hfolder => (hmem q).2 ⟨hq, hfolder⟩) data
  rw [along, Path.partsOf_of_isPlain hplain, ← hparts, htrail]
  dsimp only
  rw [← startWith, hfree, if_neg Bool.false_ne_true]
  exact readBack_of_holds hplain ht (home_foldr_put above start) hholds

end Member

/-! ## The first expression file -/

section Names

variable {name : Text}

theorem fieldName_of_isPlain (h : Path.IsPlain name) : fieldName name = name := by
  rw [fieldName, List.takeWhile_eq_self_iff]
  exact fun c hc => decide_eq_true (h.nonzero c hc)

/-- A plain name does not end with a slash. -/
theorem trimEndWith_of_isPlain (h : Path.IsPlain name) :
    (name.trimEndWith fun c => c = Path.separator) = name := by
  rw [Text.trimEndWith]
  rcases List.eq_nil_or_concat' name with rfl | ⟨front, last, rfl⟩
  · rfl
  · have hlast : last ≠ Path.separator := by
      rintro rfl
      have hmem : [] ∈ splitOn Path.separator (front ++ [Path.separator]) := by
        rw [Text.splitOn_concat]
        exact List.mem_append_right _ (List.mem_singleton_self _)
      exact (h.parts [] hmem).1 rfl
    rw [List.reverse_concat, List.dropWhile_cons_of_neg (by simpa using hlast),
      ← List.reverse_concat, List.reverse_reverse]

theorem tapeName_of_isPlain (h : Path.IsPlain name) : tapeName name = name := by
  rw [tapeName]
  split_ifs
  · exact fieldName_of_isPlain h
  · exact trimEndWith_of_isPlain h

end Names

/-- The first member of a tape archive that counts is the first expression file in it. -/
theorem findSome?_tapeFile? {members : List Archive.TapeMember}
    (h : ∀ m ∈ members.filterMap Archive.TapeMember.file?, Path.IsPlain m.1) :
    members.findSome? tapeFile? =
      firstExpressionFile? (members.filterMap Archive.TapeMember.file?) := by
  induction members with
  | nil => rfl
  | cons m members ih =>
    obtain ⟨name, kind⟩ := m
    cases kind with
    | file data =>
      have hfile : Archive.TapeMember.file? ⟨name, .file data⟩ = some (name, data) := rfl
      rw [List.filterMap_cons_some hfile] at h ⊢
      obtain ⟨hname, h⟩ := List.forall_mem_cons.1 h
      rw [List.findSome?_cons, tapeFile?]
      dsimp only
      rw [tapeName_of_isPlain hname, firstExpressionFile?, List.find?_cons, ih h]
      cases isExpressionFile name <;> rfl
    | directory => exact ih h
    | symbolicLink => exact ih h
    | hardLink => exact ih h

/-- A name that stands once is found from either end. -/
theorem lookup_reverse {members : List (Text × Bytes)} (h : (members.map Prod.fst).Nodup)
    {m : Text × Bytes} (hm : m ∈ members) : members.reverse.lookup m.1 = some m.2 := by
  obtain ⟨before, after, hmembers⟩ := List.append_of_mem (List.mem_reverse.2 hm)
  rw [List.lookup_eq_some_iff]
  refine ⟨before, after, hmembers, fun other hother => bne_iff_ne.2 fun heq => ?_⟩
  have hnodup : (members.reverse.map Prod.fst).Nodup := by
    rwa [List.map_reverse, List.nodup_reverse]
  rw [hmembers, List.map_append, List.nodup_append] at hnodup
  exact hnodup.2.2 other.1 (List.mem_map_of_mem hother) m.1 List.mem_cons_self heq.symm

section Archive

variable {a : Archive}

/-- What a format does with the first expression file. -/
theorem ofContent_eq (h : Sound a.files) :
    ofContent a.format (.archive a) =
      match firstExpressionFile? a.files with
      | none => .error (.noExpressionFile a.format)
      | some (name, data) =>
        match a.format with
        | .zip => plainly name data
        | .tarXz => along name data
        | .sevenZip =>
          if leadsOut name then .error (.malformed .sevenZip) else plainly name data := by
  cases a with
  | zip members =>
    have hmap : members.map (fun m => (fieldName m.1, m.2)) = members := by
      conv_rhs => rw [← List.map_id members]
      exact List.map_congr_left fun m hm => Prod.ext (fieldName_of_isPlain (h.plain m hm)) rfl
    rw [Archive.format, ofContent, ofZip]
    dsimp only [Archive.files]
    rw [hmap, firstExpressionFile?]
    cases hfind : members.find? fun m => isExpressionFile m.1 with
    | none => rfl
    | some m =>
      have hlookup : members.reverse.lookup m.1 = some m.2 :=
        lookup_reverse h.distinct (List.mem_of_find?_eq_some hfind)
      dsimp only
      rw [hlookup, Option.getD_some]
  | tarXz members =>
    rw [Archive.format, ofContent, ofTape, findSome?_tapeFile? h.plain]
    rfl
  | sevenZip members =>
    have hmap : members.map (fun m => ((Path.ofText m.1).text, m.2)) = members := by
      conv_rhs => rw [← List.map_id members]
      exact List.map_congr_left fun m hm =>
        Prod.ext (Path.text_ofText_of_isPlain (h.plain m hm)) rfl
    rw [Archive.format, ofContent, ofSevenZip]
    dsimp only [Archive.files]
    rw [hmap]
    rfl

/-- An archive without an expression file. -/
theorem ofContent_of_none (h : Sound a.files) (hnone : firstExpressionFile? a.files = none) :
    ofContent a.format (.archive a) = .error (.noExpressionFile a.format) := by
  rw [ofContent_eq h, hnone]

/-- **An archive gives the text of its first expression file**, unless the file has a name that its
format refuses. -/
theorem ofContent_of_some (h : Sound a.files) {name : Text} {data : Bytes}
    (hsome : firstExpressionFile? a.files = some (name, data)) {t : Text}
    (ht : Utf8.decode? data = some t) :
    ofContent a.format (.archive a) =
      if a.format = .sevenZip ∧ leadsOut name = true then .error (.malformed .sevenZip)
      else textOf name t := by
  have hplain : Path.IsPlain name := h.plain _ (List.mem_of_find?_eq_some hsome)
  rw [ofContent_eq h, hsome]
  dsimp only
  cases a.format with
  | zip => exact plainly_eq hplain ht
  | tarXz => exact along_eq hplain ht
  | sevenZip => simp only [true_and, plainly_eq hplain ht]

end Archive

end Unpacking

end Abacus
