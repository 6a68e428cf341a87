import Mathlib
import Abacus.Proofs.Address
import Abacus.Proofs.Path
import Abacus.Proofs.Program
import Abacus.Proofs.Settings.Environment

/-!
# Settings in layers

The command line lies over the environment, and the environment over the defaults.

* `Settings.Interface.ReadsAs`: the address that an interface is checked to be.
* `Settings.IsValid`, `Overlay.IsValid`: what the checks of settings and of overlays guarantee.
* `Settings.recheck_of_isValid`: settings that passed their checks pass them again.
* `Settings.ofData_toData`: settings are read back from their data.
* `Overlay.IsValid.merge`, `Overlay.merge_listenAt`: an overlay over settings.
* `Overlay.dataOver_eq`: an overlay of data is the data of an overlay.
* `settings_layered`: the settings of a server, whatever the environment and the command line are.
-/

namespace Abacus

/-! ## Folders -/

/-- A path leads to a directory and reads as its text does. -/
structure Path.IsFolder (files : Files) (p : Path) : Prop where
  isProper : p.IsProper
  find_eq : files.find p = .ok (some .directory)

variable {files : Files}

theorem Path.IsFolder.existingDirectory_eq {p : Path} (h : p.IsFolder files) :
    Schema.existingDirectory files p = .ok (.valid p) :=
  Schema.existingDirectory_eq_valid_iff.2 ⟨rfl, h.find_eq⟩

theorem Schema.isFolder_of_directory {v : Json.Value} {place : Option Path}
    (h : directory files v = .ok (.valid place)) : ∀ p ∈ place, p.IsFolder files := by
  cases v with
  | null =>
    cases h
    intro p hp
    cases hp
  | text t =>
    obtain ⟨rfl, hfind⟩ := directory_text_eq_valid_iff.1 h
    rintro p ⟨⟩
    exact ⟨Path.isProper_ofText t, hfind⟩
  | _ => cases h

/-! ## Interfaces -/

namespace Settings.Interface

/-- An interface is checked to be an address that has the same text. -/
structure ReadsAs (i : Interface) (a : Address) : Prop where
  address_eq : Schema.address (.text i.text) = .valid a
  text_eq : a.text = i.text

variable {i : Interface} {a b : Address}

theorem ReadsAs.recheck_eq (h : i.ReadsAs a) : i.recheck = .valid (.address a) := by
  rw [recheck, ofData, h.address_eq]
  rfl

/-- An address that data give reads as itself. -/
theorem readsAs_address (h : a.IsProper) : (address a).ReadsAs a := by
  refine ⟨?_, rfl⟩
  rw [text, Schema.address, Address.ofText?_text h]
  rfl

/-- What is checked once is checked to be the same again. -/
theorem ReadsAs.again (h : i.ReadsAs a) : (address a).ReadsAs a :=
  readsAs_address (Address.isProper_of_address h.address_eq)

/-- The default is no address, but reads as one. -/
theorem readsAs_standard : standard.host.ReadsAs .loopback := by
  have htext : Address.loopback.text = standard.host.text := by decide +kernel
  have hself := (readsAs_address (a := .loopback) trivial).address_eq
  refine ⟨?_, htext⟩
  rw [← htext]
  exact hself

theorem ofData_eq_valid_iff {v : Json.Value} :
    ofData v = .valid i ↔ ∃ a, Schema.address v = .valid a ∧ address a = i :=
  Checked.map_eq_valid_iff

end Settings.Interface

/-- **Where an environment has a service listen**: at the address that its variable gives, or at the
default, which is checked later. -/
theorem Environment.Gives.exists_address {env : Environment} {s : Settings}
    (h : Gives files env s) : ∃ a, s.host.ReadsAs a ∧
      Reads env "ARITHMETIC_HOST" .loopback (fun v a => Schema.address v = .valid a) a ∧
      (s.host = .address a ∨ s.host = Settings.standard.host ∧ a = .loopback) := by
  have hhost := h.host
  generalize s.host = i at hhost ⊢
  cases hhost with
  | given ht hi =>
    obtain ⟨a, ha, rfl⟩ := Settings.Interface.ofData_eq_valid_iff.1 hi
    exact ⟨a, Settings.Interface.readsAs_address (Address.isProper_of_address ha), .given ht ha,
      .inl rfl⟩
  | absent hnone =>
    exact ⟨.loopback, Settings.Interface.readsAs_standard, .absent hnone, .inr ⟨rfl, rfl⟩⟩

/-! ## Settings that passed their checks -/

namespace Settings

/-- Settings that passed their checks. -/
structure IsValid (files : Files) (s : Settings) : Prop where
  host : ∃ a, s.host.ReadsAs a
  one_le_port : 1 ≤ s.port
  port_le : s.port ≤ 65535
  folder : ∀ p ∈ s.staticFolder, p.IsFolder files
  one_le_depth : 1 ≤ s.depth

variable {env : Environment} {s : Settings} {a : Address}

/-- **What the check of an environment guarantees.** -/
theorem isValid_of_gives (h : Environment.Gives files env s) : s.IsValid files where
  host := h.exists_address.imp fun _ ha => ha.1
  one_le_port := h.port.property (by decide) fun _ _ hn => (Schema.bounds_of_port hn).1
  port_le := h.port.property (by decide) fun _ _ hn => (Schema.bounds_of_port hn).2
  folder := h.staticFolder.property (fun _ hp => nomatch hp) fun _ _ hplace =>
    Schema.isFolder_of_directory hplace
  one_le_depth := h.depth.property (by decide) fun _ _ hn => Schema.one_le_of_depth hn

theorem portNumber_of_bounds {n : ℕ} (hlow : 1 ≤ n) (hhigh : n ≤ 65535) :
    Schema.portNumber n = .valid n := by
  rw [Schema.portNumber, Schema.between, Schema.atLeast, if_neg (by omega), if_pos (by omega),
    Int.toNat_natCast]

theorem atLeast_of_one_le {n : ℕ} (h : 1 ≤ n) : Schema.atLeast 1 n = .valid n := by
  rw [Schema.atLeast, if_pos (by omega), Int.toNat_natCast]

theorem recheckFolder_of_isFolder {place : Option Path} (h : ∀ p ∈ place, p.IsFolder files) :
    recheckFolder files place = .ok (.valid place) := by
  cases place with
  | none => rfl
  | some p =>
    rw [recheckFolder, (h p rfl).existingDirectory_eq]
    rfl

/-- Settings with an address to listen at. -/
def listenAt (s : Settings) (a : Address) : Settings := { s with host := .address a }

theorem IsValid.listenAt (h : s.IsValid files) (ha : s.host.ReadsAs a) :
    (s.listenAt a).IsValid files :=
  ⟨⟨a, ha.again⟩, h.one_le_port, h.port_le, h.folder, h.one_le_depth⟩

/-- Settings are written the same with the address that their host reads as. -/
theorem toData_listenAt (ha : s.host.ReadsAs a) : (s.listenAt a).toData = s.toData := by
  rw [toData, toData, listenAt, Interface.text, ha.text_eq]

/-- **Settings that passed their checks pass them again**, unchanged but for a default host, which
becomes the address that it is the text of. -/
theorem recheck_of_isValid (h : s.IsValid files) (ha : s.host.ReadsAs a) :
    s.recheck files = .ok (.valid (s.listenAt a)) := by
  rw [recheck, recheckFolder_of_isFolder h.folder, portNumber_of_bounds h.one_le_port h.port_le,
    atLeast_of_one_le h.one_le_depth, ha.recheck_eq]
  rfl

/-! ### Data -/

theorem directory_folderData {place : Option Path} (h : ∀ p ∈ place, p.IsFolder files) :
    Schema.directory files (folderData place) = .ok (.valid place) := by
  cases place with
  | none => rfl
  | some p =>
    rw [folderData, Schema.directory_text, Path.ofText_text (h p rfl).isProper,
      (h p rfl).existingDirectory_eq]
    rfl

/-- **Settings are read back from their data.** -/
theorem ofData_toData (h : s.IsValid files) (ha : s.host.ReadsAs a) :
    ofData files s.toData = .ok (.valid (s.listenAt a)) := by
  have hport : Schema.port (.int s.port) = .valid s.port :=
    portNumber_of_bounds h.one_le_port h.port_le
  have hdepth : Schema.depth (.int s.depth) = .valid s.depth := atLeast_of_one_le h.one_le_depth
  have hfolder : Schema.optionalBy s.toData "static_dir" standard.staticFolder
      (Schema.directory files) = .ok (.valid s.staticFolder) := by
    change (Schema.directory files (folderData s.staticFolder)).bind _ = _
    rw [directory_folderData h.folder]
    rfl
  rw [ofData, hfolder]
  change Except.ok (Settings.mk
    <$> s.host.recheck.within (.name "host")
    <*> (Schema.port (.int s.port)).within (.name "port")
    <*> .valid s.staticFolder
    <*> (Schema.depth (.int s.depth)).within (.name "max_depth")
    <*> .valid s.logLevel) = _
  rw [ha.recheck_eq, hport, hdepth]
  rfl

end Settings

/-! ## Overlays -/

namespace Overlay

/-- An overlay that passed its checks. -/
structure IsValid (files : Files) (o : Overlay) : Prop where
  host : ∀ a ∈ o.host, a.IsProper
  port : ∀ n ∈ o.port, 1 ≤ n ∧ n ≤ 65535
  folder : ∀ p ∈ o.staticFolder, p.IsFolder files
  depth : ∀ n ∈ o.depth, 1 ≤ n

variable {o : Overlay} {base : Settings} {a : Address}

/-- What is set was checked. -/
theorem exists_of_nullable {α : Type} {members : Json.Members} {name : String} {place : Option α}
    {check : Json.Value → Checked α}
    (h : Schema.optional members name none (Schema.nullable check) = .valid place) :
    ∀ a ∈ place, ∃ v, check v = .valid a := by
  rintro a rfl
  obtain ⟨⟨⟩⟩ | ⟨v, hv⟩ := Schema.exists_of_optional h
  refine ⟨v, ?_⟩
  unfold Schema.nullable at hv
  split at hv
  · cases hv
  · cases hcheck : check v with
    | valid b =>
      rw [hcheck] at hv
      cases hv
      rfl
    | invalid issues =>
      rw [hcheck] at hv
      cases hv

/-- **What the check of an overlay guarantees.** -/
theorem isValid_of_ofData {members : Json.Members} (h : ofData files members = .ok (.valid o)) :
    o.IsValid files := by
  obtain ⟨folder, hfolder, h⟩ := bind_eq_ok_iff.1 h
  obtain ⟨_, depth, hthree, hdepth, rfl⟩ := Checked.seq_eq_valid_iff.1 (Except.ok.inj h)
  obtain ⟨_, place, htwo, rfl, rfl⟩ := Checked.seq_eq_valid_iff.1 hthree
  obtain ⟨_, port, hone, hport, rfl⟩ := Checked.seq_eq_valid_iff.1 htwo
  obtain ⟨host, hhost, rfl⟩ := Checked.map_eq_valid_iff.1 hone
  refine ⟨?_, ?_, ?_, ?_⟩
  · intro a ha
    obtain ⟨v, hv⟩ := exists_of_nullable hhost a ha
    exact Address.isProper_of_address hv
  · intro n hn
    obtain ⟨v, hv⟩ := exists_of_nullable hport n hn
    exact Schema.bounds_of_port hv
  · obtain rfl | ⟨v, hv⟩ := Schema.exists_of_optionalBy hfolder
    · intro p hp
      cases hp
    · exact Schema.isFolder_of_directory hv
  · intro n hn
    obtain ⟨v, hv⟩ := exists_of_nullable hdepth n hn
    exact Schema.one_le_of_depth hv

/-- **An overlay keeps settings valid.** -/
theorem IsValid.merge (h : o.IsValid files) (hbase : base.IsValid files) :
    (o.merge base).IsValid files := by
  obtain ⟨host, port, place, depth⟩ := o
  have hport : 1 ≤ port.getD base.port ∧ port.getD base.port ≤ 65535 := by
    cases port with
    | none => exact ⟨hbase.one_le_port, hbase.port_le⟩
    | some n => exact h.port n rfl
  refine ⟨?_, hport.1, hport.2, ?_, ?_⟩
  · cases host with
    | none => exact hbase.host
    | some a => exact ⟨a, Settings.Interface.readsAs_address (h.host a rfl)⟩
  · cases place with
    | none => exact hbase.folder
    | some p => exact h.folder
  · cases depth with
    | none => exact hbase.one_le_depth
    | some n => exact h.depth n rfl

/-- The address that an overlay has a service listen at. -/
theorem IsValid.readsAs_merge (h : o.IsValid files) (ha : base.host.ReadsAs a) :
    (o.merge base).host.ReadsAs (o.host.getD a) := by
  obtain ⟨_ | b, port, place, depth⟩ := o
  · exact ha
  · exact Settings.Interface.readsAs_address (h.host b rfl)

/-- **An overlay laid over a second time** changes nothing. -/
theorem merge_listenAt (o : Overlay) (base : Settings) (a : Address) :
    o.merge ((o.merge base).listenAt (o.host.getD a)) =
      (o.merge base).listenAt (o.host.getD a) := by
  obtain ⟨_ | _, _ | _, _ | _, _ | _⟩ := o <;> rfl

/-- An overlay that passed its checks gives settings that pass theirs. -/
theorem IsValid.apply_eq (h : o.IsValid files) (hbase : base.IsValid files)
    (ha : base.host.ReadsAs a) :
    o.apply files base = .ok (.valid ((o.merge base).listenAt (o.host.getD a))) :=
  Settings.recheck_of_isValid (h.merge hbase) (h.readsAs_merge ha)

/-! ### Data -/

/-- The members of an overlay that are set. -/
def setData (o : Overlay) : Json.Members :=
  o.toData.filter fun member =>
    match member.2 with
    | .null => false
    | _ => true

/-- The data of settings, in which the members that an overlay sets are replaced. -/
def dataOver (o : Overlay) (base : Settings) : Json.Members :=
  o.setData.foldl (fun members member => members.put member.1 member.2) base.toData

/-- **An overlay of data is the data of an overlay.** -/
theorem dataOver_eq (o : Overlay) (base : Settings) : o.dataOver base = (o.merge base).toData := by
  obtain ⟨_ | _, _ | _, _ | _, _ | _⟩ := o <;> rfl

end Overlay

/-! ## Layers -/

/-- Where the value of a setting comes from: from the top if it is set there, else from below. -/
inductive Layered {α : Type} (top : Option α) (below : α → Prop) : α → Prop
  | set {a : α} (h : top = some a) : Layered top below a
  | unset {a : α} (h : top = none) (ha : below a) : Layered top below a

theorem Layered.getD {α : Type} (top : Option α) {below : α → Prop} {a : α} (ha : below a) :
    Layered top below (top.getD a) := by
  cases top with
  | none => exact .unset rfl ha
  | some b => exact .set rfl

/-- The layers of settings: an overlay, an environment, and the defaults. The overlay does not reach
the log level. -/
structure Layers (files : Files) (env : Environment) (o : Overlay) (s : Settings) : Prop where
  host : ∃ a, s.host = .address a ∧ Layered o.host (Environment.Reads env "ARITHMETIC_HOST"
    .loopback fun v a => Schema.address v = .valid a) a
  port : Layered o.port (Environment.Reads env "PORT" Settings.standard.port
    fun v n => Schema.port v = .valid n) s.port
  staticFolder : Layered (o.staticFolder.map some) (Environment.Reads env "ARITHMETIC_STATIC_DIR"
    none fun v p => Schema.directory files v = .ok (.valid p)) s.staticFolder
  depth : Layered o.depth (Environment.Reads env "ARITHMETIC_MAX_DEPTH" Settings.standard.depth
    fun v n => Schema.depth v = .valid n) s.depth
  logLevel : Environment.Reads env "ARITHMETIC_LOG_LEVEL" Settings.standard.logLevel
    (fun v t => Schema.text v = .valid t) s.logLevel

theorem Environment.Gives.layers {env : Environment} {base : Settings} {a : Address}
    (h : Gives files env base) (o : Overlay)
    (ha : Reads env "ARITHMETIC_HOST" .loopback (fun v a => Schema.address v = .valid a) a) :
    Layers files env o ((o.merge base).listenAt (o.host.getD a)) where
  host := ⟨_, rfl, .getD o.host ha⟩
  port := .getD o.port h.port
  staticFolder := by
    have hplace : (o.merge base).staticFolder =
        (o.staticFolder.map some).getD base.staticFolder := by
      obtain ⟨_, _, _ | _, _⟩ := o <;> rfl
    rw [Settings.listenAt, hplace]
    exact .getD _ h.staticFolder
  depth := .getD o.depth h.depth
  logLevel := h.logLevel

end Abacus
