import Mathlib
import Abacus.Settings.Overlay
import Abacus.Proofs.Outcome

/-!
# Data that pass their checks

What the value of a check says about the data, from the parts of a record up to the options of a
run.

* `Checked.map_eq_valid_iff`, `Checked.seq_eq_valid_iff`, `Checked.within_eq_valid_iff`,
  `Checked.andThen_eq_valid_iff`: values of checks that are put together;
* `Checked.IsSingle`: a check of one piece of data finds one issue at most;
* `Schema.exists_of_optional`, `Schema.exists_of_optionalBy`, `Schema.exists_of_requiredBy`: values
  of members;
* `Schema.bounds_of_port`, `Schema.one_le_of_depth`: the range of a port and of a depth limit;
* `Files.exists_resolve_of_find`: what a path leads to;
* `Schema.directory_text_eq_valid_iff`, `Schema.directory_text_eq_error_iff`: the path of a
  directory;
* `RunOptions.IsValid`, `RunOptions.isValid_of_ofData`: the options of a run.
-/

namespace Abacus

namespace Checked

variable {α β : Type}

theorem map_eq_valid_iff {f : α → β} {x : Checked α} {b : β} :
    f <$> x = .valid b ↔ ∃ a, x = .valid a ∧ f a = b := by
  cases x <;> simp [Functor.map, map]

theorem seq_eq_valid_iff {f : Checked (α → β)} {x : Checked α} {b : β} :
    f <*> x = .valid b ↔ ∃ g a, f = .valid g ∧ x = .valid a ∧ g a = b := by
  cases f <;> cases x <;> simp [Seq.seq, apply, map]

theorem within_eq_valid_iff {step : Schema.Step} {x : Checked α} {a : α} :
    x.within step = .valid a ↔ x = .valid a := by
  cases x <;> simp [within]

theorem andThen_eq_valid_iff {x : Checked α} {f : α → Checked β} {b : β} :
    x.andThen f = .valid b ↔ ∃ a, x = .valid a ∧ f a = .valid b := by
  cases x <;> simp [andThen]

theorem issues_map (f : α → β) (x : Checked α) : (f <$> x).issues = x.issues := by
  cases x <;> rfl

theorem issues_seq (f : Checked (α → β)) (x : Checked α) :
    (f <*> x).issues = f.issues ++ x.issues := by
  cases f <;> cases x <;> simp [Seq.seq, apply, map, issues]

/-- There is one issue at most, and it lies at the place checked. -/
def IsSingle (x : Checked α) : Prop :=
  ∀ issues, x = .invalid issues → ∃ kind, issues = [⟨[], kind⟩]

theorem isSingle_valid (a : α) : (valid a).IsSingle := fun _ h => nomatch h

theorem isSingle_issue (kind : Issue.Kind) : (issue kind : Checked α).IsSingle := by
  intro issues h
  cases h
  exact ⟨kind, rfl⟩

theorem IsSingle.andThen {x : Checked α} {f : α → Checked β} (hx : x.IsSingle)
    (hf : ∀ a, (f a).IsSingle) : (x.andThen f).IsSingle := by
  cases x with
  | valid a => exact hf a
  | invalid issues =>
    intro others h
    cases h
    exact hx issues rfl

theorem IsSingle.map {x : Checked α} (hx : x.IsSingle) (f : α → β) :
    (Checked.map f x).IsSingle := by
  cases x with
  | valid a => exact isSingle_valid (f a)
  | invalid issues =>
    intro others h
    cases h
    exact hx issues rfl

/-- **What is found below a step**: an issue at the step itself, if there is no value. -/
theorem IsSingle.mem_within_iff {x : Checked α} (hx : x.IsSingle) (step : Schema.Step)
    (location : List Schema.Step) :
    (∃ i ∈ (x.within step).issues, i.location = location) ↔
      location = [step] ∧ ∀ a, x ≠ .valid a := by
  cases x with
  | valid a =>
    constructor
    · rintro ⟨i, hi, -⟩
      cases hi
    · rintro ⟨-, hne⟩
      exact absurd rfl (hne a)
  | invalid issues =>
    obtain ⟨kind, rfl⟩ := hx issues rfl
    constructor
    · rintro ⟨i, hi, rfl⟩
      rw [List.mem_singleton.1 hi]
      exact ⟨rfl, fun a h => nomatch h⟩
    · rintro ⟨rfl, -⟩
      exact ⟨_, List.mem_singleton_self _, rfl⟩

end Checked

namespace Schema

variable {α : Type} {members : Json.Members} {name : String}

/-- The value of a member that may be missing is a default or was checked. -/
theorem exists_of_optional {default a : α} {check : Json.Value → Checked α}
    (h : optional members name default check = .valid a) :
    a = default ∨ ∃ v, check v = .valid a := by
  rw [optional, Checked.within_eq_valid_iff] at h
  split at h
  · exact .inr ⟨_, h⟩
  · cases h
    exact .inl rfl

/-- The value of a member that must not be missing was checked. -/
theorem exists_of_requiredBy {ε : Type} {a : α} {check : Json.Value → Except ε (Checked α)}
    (h : requiredBy members name check = .ok (.valid a)) : ∃ v, check v = .ok (.valid a) := by
  unfold requiredBy at h
  split at h
  · obtain ⟨x, hx, h⟩ := bind_eq_ok_iff.1 h
    cases Checked.within_eq_valid_iff.1 (Except.ok.inj h)
    exact ⟨_, hx⟩
  · cases h

/-- The value of a member that may be missing is a default or was checked, also by a check that can
fail to be made. -/
theorem exists_of_optionalBy {ε : Type} {default a : α} {check : Json.Value → Except ε (Checked α)}
    (h : optionalBy members name default check = .ok (.valid a)) :
    a = default ∨ ∃ v, check v = .ok (.valid a) := by
  unfold optionalBy at h
  split at h
  · obtain ⟨x, hx, h⟩ := bind_eq_ok_iff.1 h
    cases Checked.within_eq_valid_iff.1 (Except.ok.inj h)
    exact .inr ⟨_, hx⟩
  · cases h
    exact .inl rfl

theorem bounds_of_between {low high n : ℤ} {k : ℕ} (h : between low high n = .valid k) :
    low ≤ n ∧ n ≤ high ∧ k = n.toNat := by
  unfold between atLeast at h
  split_ifs at h with hhigh hlow
  · cases h
  · cases h
    exact ⟨hlow, not_lt.1 hhigh, rfl⟩
  · cases h

/-- **The range of a port.** -/
theorem bounds_of_port {v : Json.Value} {n : ℕ} (h : port v = .valid n) : 1 ≤ n ∧ n ≤ 65535 := by
  obtain ⟨k, -, hk⟩ := Checked.andThen_eq_valid_iff.1 h
  obtain ⟨hlow, hhigh, rfl⟩ := bounds_of_between hk
  omega

/-- **The range of a depth limit.** -/
theorem one_le_of_depth {v : Json.Value} {n : ℕ} (h : depth v = .valid n) : 1 ≤ n := by
  obtain ⟨k, -, hk⟩ := Checked.andThen_eq_valid_iff.1 h
  unfold atLeast at hk
  split_ifs at hk with hlow
  · cases hk
    omega
  · cases hk

/-! ## Single issues -/

theorem isSingle_atLeast (low n : ℤ) : (atLeast low n).IsSingle := by
  unfold atLeast
  split_ifs
  · exact Checked.isSingle_valid _
  · exact Checked.isSingle_issue _

theorem isSingle_between (low high n : ℤ) : (between low high n).IsSingle := by
  unfold between
  split_ifs
  · exact Checked.isSingle_issue _
  · exact isSingle_atLeast low n

theorem isSingle_integerOfText (t : Text) : (integerOfText t).IsSingle := by
  unfold integerOfText
  split_ifs
  · exact Checked.isSingle_issue _
  · split
    · exact Checked.isSingle_valid _
    · exact Checked.isSingle_issue _
    · unfold indirectInteger
      split
      · exact Checked.isSingle_valid _
      · exact Checked.isSingle_issue _

theorem isSingle_port_text (t : Text) : (port (.text t)).IsSingle :=
  (isSingle_integerOfText t).andThen fun n => isSingle_between 1 65535 n

theorem isSingle_depth_text (t : Text) : (depth (.text t)).IsSingle :=
  (isSingle_integerOfText t).andThen fun n => isSingle_atLeast 1 n

theorem isSingle_addressOr (a : Option Address) : (addressOr a).IsSingle := by
  cases a with
  | none => exact Checked.isSingle_issue _
  | some a => exact Checked.isSingle_valid a

theorem isSingle_address_text (t : Text) : (address (.text t)).IsSingle := isSingle_addressOr _

end Schema

/-! ## Paths -/

namespace Files

variable {f : Files} {p : Path} {entry : Entry}

theorem exists_resolve_of_find (h : f.find p = .ok (some entry)) :
    ∃ place, f.resolve p = .ok place ∧ f.entry? place = some entry := by
  unfold find at h
  split at h
  · next place hplace => exact ⟨place, hplace, Except.ok.inj h⟩
  · cases h
  · cases h

/-- What a path leads to cannot be found out only if the path is too long. -/
theorem find_eq_error {e : AccessError} (h : f.find p = .error e) : e = .nameTooLong := by
  unfold find at h
  split at h
  · cases h
  · cases h
    rfl
  · cases h

/-- A path without parts leads to the root or to the home. -/
theorem resolve_of_parts_eq_nil (hp : p.parts = []) {place : Place} (h : f.resolve p = .ok place) :
    place = [] ∨ place = f.home := by
  unfold resolve at h
  rw [hp] at h
  split_ifs at h
  · cases h
    exact .inl rfl
  · cases h
    exact .inr rfl

/-- A path that leads to a file has a name, unless a file stands where the home should be. -/
theorem parts_ne_nil_of_find {content : Content} (hhome : f.content? f.home = none)
    (h : f.find p = .ok (some (.file content))) : p.parts ≠ [] := by
  intro hp
  obtain ⟨place, hplace, hentry⟩ := exists_resolve_of_find h
  rcases resolve_of_parts_eq_nil hp hplace with rfl | rfl
  · cases hentry
  · rw [content?, hentry] at hhome
    cases hhome

end Files

/-! ## Directories -/

namespace Schema

variable {files : Files} {p : Path}

theorem existingDirectory_eq_valid_iff {q : Path} :
    existingDirectory files p = .ok (.valid q) ↔
      q = p ∧ files.find p = .ok (some .directory) := by
  unfold existingDirectory
  cases files.find p with
  | error e => exact ⟨fun h => (nomatch h), fun h => (nomatch h.2)⟩
  | ok entry =>
    rcases entry with _ | _ | _
    · exact ⟨fun h => (nomatch h), fun h => (nomatch h.2)⟩
    · constructor
      · intro h
        cases h
        exact ⟨rfl, rfl⟩
      · rintro ⟨rfl, -⟩
        rfl
    · exact ⟨fun h => (nomatch h), fun h => (nomatch h.2)⟩

theorem existingDirectory_eq_error_iff {e : AccessError} :
    existingDirectory files p = .error e ↔ files.find p = .error e := by
  unfold existingDirectory
  cases files.find p with
  | error e' =>
    constructor <;> intro h <;> cases h <;> rfl
  | ok entry => exact ⟨fun h => (nomatch h), fun h => (nomatch h)⟩

theorem isSingle_existingDirectory {c : Checked Path} (h : existingDirectory files p = .ok c) :
    c.IsSingle := by
  unfold existingDirectory at h
  obtain ⟨entry, -, h⟩ := bind_eq_ok_iff.1 h
  cases h
  split
  · exact Checked.isSingle_valid p
  · exact Checked.isSingle_issue _

/-- The path of a directory, as a text. -/
theorem directory_text (files : Files) (t : Text) :
    directory files (.text t) =
      (existingDirectory files (Path.ofText t)).map (Checked.map some) := by
  change (existingDirectory files (Path.ofText t)).bind _ = _
  cases existingDirectory files (Path.ofText t) <;> rfl

theorem directory_text_eq_valid_iff {t : Text} {place : Option Path} :
    directory files (.text t) = .ok (.valid place) ↔
      place = some (Path.ofText t) ∧ files.find (Path.ofText t) = .ok (some .directory) := by
  rw [directory_text]
  constructor
  · intro h
    cases hexisting : existingDirectory files (Path.ofText t) with
    | error e =>
      rw [hexisting] at h
      cases h
    | ok c =>
      rw [hexisting] at h
      cases c with
      | invalid issues => cases h
      | valid q =>
        cases h
        obtain ⟨rfl, hfind⟩ := existingDirectory_eq_valid_iff.1 hexisting
        exact ⟨rfl, hfind⟩
  · rintro ⟨rfl, hfind⟩
    rw [existingDirectory_eq_valid_iff.2 ⟨rfl, hfind⟩]
    rfl

theorem directory_text_eq_error_iff {t : Text} {e : AccessError} :
    directory files (.text t) = .error e ↔ files.find (Path.ofText t) = .error e := by
  rw [directory_text, ← existingDirectory_eq_error_iff]
  cases existingDirectory files (Path.ofText t) with
  | error e' => exact ⟨fun h => congrArg Except.error (Except.error.inj h),
      fun h => congrArg Except.error (Except.error.inj h)⟩
  | ok c => exact ⟨fun h => (nomatch h), fun h => (nomatch h)⟩

theorem isSingle_directory_text {t : Text} {c : Checked (Option Path)}
    (h : directory files (.text t) = .ok c) : c.IsSingle := by
  rw [directory_text] at h
  cases hexisting : existingDirectory files (Path.ofText t) with
  | error e =>
    rw [hexisting] at h
    cases h
  | ok c =>
    rw [hexisting] at h
    cases h
    exact (isSingle_existingDirectory hexisting).map some

end Schema

/-! ## Options -/

/-- Options that passed their check: the input is a file, and the port is one. -/
structure RunOptions.IsValid (files : Files) (o : RunOptions) : Prop where
  isFile : ∃ content, files.find o.input = .ok (some (.file content))
  port_pos : 1 ≤ o.port
  port_le : o.port ≤ 65535

theorem Schema.exists_of_file {files : Files} {v : Json.Value} {p : Path}
    (h : Schema.file files v = .ok (.valid p)) :
    ∃ content, files.find p = .ok (some (.file content)) := by
  unfold Schema.file at h
  split at h
  · unfold existingFile at h
    obtain ⟨entry, hentry, h⟩ := bind_eq_ok_iff.1 h
    split at h
    · cases h
      exact ⟨_, hentry⟩
    · cases h
  · cases h

/-- **What the check of options guarantees.** -/
theorem RunOptions.isValid_of_ofData {files : Files} {members : Json.Members} {o : RunOptions}
    (h : ofData files members = .ok (.valid o)) : o.IsValid files := by
  obtain ⟨input, hinput, h⟩ := bind_eq_ok_iff.1 h
  obtain ⟨g, port, hg, hport, rfl⟩ := Checked.seq_eq_valid_iff.1 (Except.ok.inj h)
  obtain ⟨path, rfl, rfl⟩ := Checked.map_eq_valid_iff.1 hg
  obtain ⟨v, hv⟩ := Schema.exists_of_requiredBy hinput
  have hbounds : 1 ≤ port ∧ port ≤ 65535 := by
    obtain rfl | ⟨w, hw⟩ := Schema.exists_of_optional hport
    · decide
    · exact Schema.bounds_of_port hw
  exact ⟨Schema.exists_of_file hv, hbounds.1, hbounds.2⟩

end Abacus
