import Mathlib
import Abacus.Proofs.Schema
import Abacus.Server
import Abacus.Settings.Environment

/-!
# Settings from the environment

* `Environment.Reads`, `Environment.Fails`: what a variable gives for a setting.
* `Environment.Gives`, `Environment.ofEnvironment_eq_valid_iff`: the settings that an environment
  gives.
* `Environment.Rejects`, `Environment.mem_issues_iff`: the settings with texts that do not do, and
  their issues.
* `Environment.folder_eq_error_iff`: the environments that cannot be checked.
* `environment_starts`: what the check of an environment means for the start of a server.
-/

namespace Abacus

namespace Environment

/-! ## Variables -/

section Variables

variable {α : Type} (env : Environment) (name : String)

/-- What a variable gives for a setting: a value that its text passes for or, if it is not set or
empty, a default. -/
inductive Reads (default : α) (passes : Json.Value → α → Prop) : α → Prop
  | given {t : Text} {a : α} (ht : value? env name = some t) (ha : passes (.text t) a) :
    Reads default passes a
  | absent (h : value? env name = none) : Reads default passes default

/-- A variable is set to a text that passes for no value. -/
def Fails (passes : Json.Value → α → Prop) : Prop :=
  ∃ t, value? env name = some t ∧ ∀ a, ¬passes (.text t) a

/-- The check of what a variable gives. -/
def read (default : α) (check : Json.Value → Checked α) : Checked α :=
  match value? env name with
  | some t => check (.text t)
  | none => .valid default

variable {env name} {default a : α} {check : Json.Value → Checked α}

theorem read_eq_valid_iff :
    read env name default check = .valid a ↔
      Reads env name default (fun v a => check v = .valid a) a := by
  rw [read]
  constructor
  · intro h
    split at h
    · next ht => exact .given ht h
    · next ht =>
      cases h
      exact .absent ht
  · rintro (⟨ht, ha⟩ | h)
    · rw [ht]
      exact ha
    · rw [h]

theorem read_ne_valid_iff :
    (∀ a, read env name default check ≠ .valid a) ↔
      Fails env name (fun v a => check v = .valid a) := by
  rw [read]
  constructor
  · intro h
    split at h
    · next t ht => exact ⟨t, ht, h⟩
    · exact absurd rfl (h default)
  · rintro ⟨t, ht, h⟩
    rw [ht]
    exact h

/-- **The issue of a variable** is that it fails. -/
theorem mem_read_iff (h : ∀ t, (check (.text t)).IsSingle) (step : Schema.Step)
    (location : List Schema.Step) :
    (∃ i ∈ ((read env name default check).within step).issues, i.location = location) ↔
      location = [step] ∧ Fails env name fun v a => check v = .valid a := by
  have hsingle : (read env name default check).IsSingle := by
    rw [read]
    split
    · exact h _
    · exact Checked.isSingle_valid default
  rw [hsingle.mem_within_iff, read_ne_valid_iff]

/-- What holds of the default and of whatever passes holds of what a variable gives. -/
theorem Reads.property {passes : Json.Value → α → Prop} {P : α → Prop}
    (h : Reads env name default passes a) (hdefault : P default)
    (hpasses : ∀ v b, passes v b → P b) : P a := by
  cases h with
  | given _ ha => exact hpasses _ _ ha
  | absent _ => exact hdefault

/-- What a variable gives is not what it fails to give. -/
theorem Reads.not_fails {passes : Json.Value → α → Prop} (h : Reads env name default passes a) :
    ¬Fails env name passes := by
  rintro ⟨t, ht, hne⟩
  cases h with
  | given hu ha =>
    rw [ht] at hu
    cases hu
    exact hne a ha
  | absent hnone =>
    rw [ht] at hnone
    cases hnone

end Variables

/-! ## Members -/

variable {env : Environment} {files : Files}

/-- The members of different settings do not stand in each other's way. -/
theorem lookup_filterMap {settings : List (String × String)}
    (h : (settings.map fun v => Text.ofString v.1).Nodup) {v : String × String}
    (hv : v ∈ settings) :
    (settings.filterMap fun v => (value? env (Text.ofString v.2)).map fun t =>
        (Text.ofString v.1, Json.Value.text t)).lookup (Text.ofString v.1) =
      (value? env (Text.ofString v.2)).map .text := by
  induction settings with
  | nil => cases hv
  | cons w settings ih =>
    rw [List.map_cons, List.nodup_cons] at h
    rw [List.filterMap_cons]
    rcases List.mem_cons.1 hv with rfl | hv
    · cases hvalue : value? env (Text.ofString v.2) with
      | some t => exact List.lookup_cons_self
      | none =>
        -- No other setting has this name.
        rw [Option.map_none, Option.map_none, List.lookup_eq_none_iff]
        rintro ⟨other, value⟩ hmem
        obtain ⟨w, hw, heq⟩ := List.mem_filterMap.1 hmem
        obtain ⟨t, -, heq⟩ := Option.map_eq_some_iff.1 heq
        cases heq
        refine bne_iff_ne.2 fun hname => h.1 ?_
        rw [hname]
        exact List.mem_map_of_mem hw
    · have hne : (Text.ofString v.1 == Text.ofString w.1) = false := by
        refine beq_eq_false_iff_ne.2 fun heq => h.1 ?_
        rw [← heq]
        exact List.mem_map_of_mem hv
      cases hvalue : value? env (Text.ofString w.2) with
      | some t =>
        rw [Option.map_some]
        dsimp only
        rw [List.lookup_cons, hne, ih h.2 hv]
      | none => exact ih h.2 hv

theorem get?_members {v : String × String} (hv : v ∈ known) :
    Json.Members.get? (members env) (Text.ofString v.1) =
      (value? env (Text.ofString v.2)).map .text :=
  lookup_filterMap (by decide) hv

/-- **A setting is checked as its variable gives it.** -/
theorem optional_members {α : Type} {v : String × String} (hv : v ∈ known) (default : α)
    (check : Json.Value → Checked α) :
    Schema.optional (members env) v.1 default check =
      (read env v.2 default check).within (.name v.1) := by
  rw [Schema.optional, get?_members hv, read]
  cases value? env (Text.ofString v.2) <;> rfl

/-- The check of what an environment gives for the static folder. -/
def folder (files : Files) (env : Environment) : Except AccessError (Checked (Option Path)) :=
  match value? env "ARITHMETIC_STATIC_DIR" with
  | some t => Schema.directory files (.text t)
  | none => .ok (.valid none)

/-- The settings that an environment gives with what it gives for the static folder. -/
def gather (env : Environment) (folder : Checked (Option Path)) : Checked Settings :=
  Settings.mk
    <$> (read env "ARITHMETIC_HOST" Settings.standard.host Settings.Interface.ofData).within
      (.name "host")
    <*> (read env "PORT" Settings.standard.port Schema.port).within (.name "port")
    <*> folder.within (.name "static_dir")
    <*> (read env "ARITHMETIC_MAX_DEPTH" Settings.standard.depth Schema.depth).within
      (.name "max_depth")
    <*> (read env "ARITHMETIC_LOG_LEVEL" Settings.standard.logLevel Schema.text).within
      (.name "log_level")

/-- **The settings of an environment are gathered from its variables.** -/
theorem ofEnvironment_eq (files : Files) (env : Environment) :
    Settings.ofEnvironment files env = (folder files env).map (gather env) := by
  have hfolder : Schema.optionalBy (members env) "static_dir" Settings.standard.staticFolder
      (Schema.directory files) =
      (folder files env).map (Checked.within (.name "static_dir")) := by
    rw [Schema.optionalBy, get?_members (v := ("static_dir", "ARITHMETIC_STATIC_DIR")) (by decide),
      folder]
    cases value? env "ARITHMETIC_STATIC_DIR" with
    | none => rfl
    | some t =>
      change (Schema.directory files (.text t)).bind _ = (Schema.directory files (.text t)).map _
      cases Schema.directory files (.text t) <;> rfl
  rw [Settings.ofEnvironment, Settings.ofData, hfolder]
  rw [optional_members (v := ("host", "ARITHMETIC_HOST")) (by decide),
    optional_members (v := ("port", "PORT")) (by decide),
    optional_members (v := ("max_depth", "ARITHMETIC_MAX_DEPTH")) (by decide),
    optional_members (v := ("log_level", "ARITHMETIC_LOG_LEVEL")) (by decide)]
  cases folder files env <;> rfl

/-! ## Settings that are given -/

/-- The settings that an environment gives: each of them is a default or has its variable. -/
structure Gives (files : Files) (env : Environment) (s : Settings) : Prop where
  host : Reads env "ARITHMETIC_HOST" Settings.standard.host
    (fun v i => Settings.Interface.ofData v = .valid i) s.host
  port : Reads env "PORT" Settings.standard.port (fun v n => Schema.port v = .valid n) s.port
  staticFolder : Reads env "ARITHMETIC_STATIC_DIR" none
    (fun v p => Schema.directory files v = .ok (.valid p)) s.staticFolder
  depth : Reads env "ARITHMETIC_MAX_DEPTH" Settings.standard.depth
    (fun v n => Schema.depth v = .valid n) s.depth
  logLevel : Reads env "ARITHMETIC_LOG_LEVEL" Settings.standard.logLevel
    (fun v t => Schema.text v = .valid t) s.logLevel

theorem folder_eq_valid_iff {p : Option Path} :
    folder files env = .ok (.valid p) ↔
      Reads env "ARITHMETIC_STATIC_DIR" none
        (fun v p => Schema.directory files v = .ok (.valid p)) p := by
  rw [folder]
  constructor
  · intro h
    split at h
    · next ht => exact .given ht h
    · next ht =>
      cases h
      exact .absent ht
  · rintro (⟨ht, hp⟩ | h)
    · rw [ht]
      exact hp
    · rw [h]

theorem gather_eq_valid_iff {folder : Checked (Option Path)} {s : Settings} :
    gather env folder = .valid s ↔
      read env "ARITHMETIC_HOST" Settings.standard.host Settings.Interface.ofData =
        .valid s.host ∧
      read env "PORT" Settings.standard.port Schema.port = .valid s.port ∧
      folder = .valid s.staticFolder ∧
      read env "ARITHMETIC_MAX_DEPTH" Settings.standard.depth Schema.depth = .valid s.depth ∧
      read env "ARITHMETIC_LOG_LEVEL" Settings.standard.logLevel Schema.text =
        .valid s.logLevel := by
  simp only [gather, Checked.seq_eq_valid_iff, Checked.map_eq_valid_iff,
    Checked.within_eq_valid_iff]
  constructor
  · rintro ⟨_, _, ⟨_, _, ⟨_, _, ⟨_, _, ⟨_, hhost, rfl⟩, hport, rfl⟩, hfolder, rfl⟩, hdepth, rfl⟩,
      hlevel, rfl⟩
    exact ⟨hhost, hport, hfolder, hdepth, hlevel⟩
  · rintro ⟨hhost, hport, hfolder, hdepth, hlevel⟩
    exact ⟨_, _, ⟨_, _, ⟨_, _, ⟨_, _, ⟨_, hhost, rfl⟩, hport, rfl⟩, hfolder, rfl⟩, hdepth, rfl⟩,
      hlevel, rfl⟩

/-- **What settings an environment gives.** -/
theorem ofEnvironment_eq_valid_iff {s : Settings} :
    Settings.ofEnvironment files env = .ok (.valid s) ↔ Gives files env s := by
  rw [ofEnvironment_eq]
  constructor
  · intro h
    cases hfolder : folder files env with
    | error e =>
      rw [hfolder] at h
      cases h
    | ok p =>
      rw [hfolder] at h
      obtain ⟨hhost, hport, rfl, hdepth, hlevel⟩ := gather_eq_valid_iff.1 (Except.ok.inj h)
      exact ⟨read_eq_valid_iff.1 hhost, read_eq_valid_iff.1 hport, folder_eq_valid_iff.1 hfolder,
        read_eq_valid_iff.1 hdepth, read_eq_valid_iff.1 hlevel⟩
  · intro h
    rw [folder_eq_valid_iff.2 h.staticFolder]
    exact congrArg Except.ok (gather_eq_valid_iff.2 ⟨read_eq_valid_iff.2 h.host,
      read_eq_valid_iff.2 h.port, rfl, read_eq_valid_iff.2 h.depth, read_eq_valid_iff.2 h.logLevel⟩)

/-! ## Settings that are not given -/

/-- The settings whose variables hold texts that do not do. Any text does for the name of a log
level. -/
inductive Rejects (files : Files) (env : Environment) : Text → Prop
  | host (h : Fails env "ARITHMETIC_HOST" fun v (i : Settings.Interface) =>
      Settings.Interface.ofData v = .valid i) :
    Rejects files env "host"
  | port (h : Fails env "PORT" fun v (n : ℕ) => Schema.port v = .valid n) :
    Rejects files env "port"
  | staticFolder (h : Fails env "ARITHMETIC_STATIC_DIR" fun v (p : Option Path) =>
      Schema.directory files v = .ok (.valid p)) :
    Rejects files env "static_dir"
  | depth (h : Fails env "ARITHMETIC_MAX_DEPTH" fun v (n : ℕ) => Schema.depth v = .valid n) :
    Rejects files env "max_depth"

/-- An environment cannot be checked if the path of the static folder is too long. -/
theorem folder_eq_error_iff {e : AccessError} :
    folder files env = .error e ↔
      e = .nameTooLong ∧ ∃ t, value? env "ARITHMETIC_STATIC_DIR" = some t ∧
        files.find (Path.ofText t) = .error .nameTooLong := by
  rw [folder]
  constructor
  · intro h
    split at h
    · next t ht =>
      have hfind := Schema.directory_text_eq_error_iff.1 h
      obtain rfl := Files.find_eq_error hfind
      exact ⟨rfl, t, ht, hfind⟩
    · cases h
  · rintro ⟨rfl, t, ht, hfind⟩
    rw [ht]
    exact Schema.directory_text_eq_error_iff.2 hfind

theorem isSingle_folder {p : Checked (Option Path)} (h : folder files env = .ok p) :
    p.IsSingle := by
  rw [folder] at h
  split at h
  · exact Schema.isSingle_directory_text h
  · cases h
    exact Checked.isSingle_valid none

theorem folder_ne_valid_iff {p : Checked (Option Path)} (h : folder files env = .ok p) :
    (∀ q, p ≠ .valid q) ↔
      Fails env "ARITHMETIC_STATIC_DIR" fun v (q : Option Path) =>
        Schema.directory files v = .ok (.valid q) := by
  cases hvalue : value? env "ARITHMETIC_STATIC_DIR" with
  | none =>
    rw [folder, hvalue] at h
    cases h
    constructor
    · intro hne
      exact absurd rfl (hne none)
    · rintro ⟨t, ht, -⟩
      rw [hvalue] at ht
      cases ht
  | some t =>
    rw [folder, hvalue] at h
    dsimp only at h
    constructor
    · intro hne
      exact ⟨t, hvalue, fun q hq => hne q (Except.ok.inj (h.symm.trans hq))⟩
    · rintro ⟨u, hu, hne⟩ q rfl
      rw [hvalue] at hu
      cases hu
      exact hne q h

/-- **The issues of an environment** lie at the settings whose variables hold texts that do not
do, one at each. -/
theorem mem_issues_iff {issues : List Issue}
    (h : Settings.ofEnvironment files env = .ok (.invalid issues)) (location : List Schema.Step) :
    (∃ i ∈ issues, i.location = location) ↔
      ∃ field, Rejects files env field ∧ location = [.name field] := by
  rw [ofEnvironment_eq] at h
  cases hfolder : folder files env with
  | error e =>
    rw [hfolder] at h
    cases h
  | ok p =>
    rw [hfolder] at h
    have hissues : issues = (gather env p).issues := by
      rw [Except.ok.inj h]
      rfl
    have hlevel : ¬Fails env "ARITHMETIC_LOG_LEVEL" fun v t => Schema.text v = .valid t := by
      rintro ⟨t, -, hne⟩
      exact hne t rfl
    have htext : ∀ t, (Schema.text (.text t)).IsSingle := fun t => Checked.isSingle_valid t
    simp only [hissues, gather, Checked.issues_seq, Checked.issues_map, List.mem_append,
      or_and_right, exists_or]
    rw [mem_read_iff fun t => (Schema.isSingle_address_text t).map Settings.Interface.address,
      mem_read_iff Schema.isSingle_port_text, (isSingle_folder hfolder).mem_within_iff,
      folder_ne_valid_iff hfolder,
      mem_read_iff Schema.isSingle_depth_text, mem_read_iff htext]
    constructor
    · rintro ((((⟨rfl, h⟩ | ⟨rfl, h⟩) | ⟨rfl, h⟩) | ⟨rfl, h⟩) | ⟨-, h⟩)
      · exact ⟨_, .host h, rfl⟩
      · exact ⟨_, .port h, rfl⟩
      · exact ⟨_, .staticFolder h, rfl⟩
      · exact ⟨_, .depth h, rfl⟩
      · exact absurd h hlevel
    · rintro ⟨field, hrejects, rfl⟩
      cases hrejects with
      | host h => exact .inl (.inl (.inl (.inl ⟨rfl, h⟩)))
      | port h => exact .inl (.inl (.inl (.inr ⟨rfl, h⟩)))
      | staticFolder h => exact .inl (.inl (.inr ⟨rfl, h⟩))
      | depth h => exact .inl (.inr ⟨rfl, h⟩)

/-- Settings that are given are not rejected. -/
theorem Gives.not_rejects {s : Settings} (h : Gives files env s) (field : Text) :
    ¬Rejects files env field := by
  rintro (hfails | hfails | hfails | hfails)
  · exact h.host.not_fails hfails
  · exact h.port.not_fails hfails
  · exact h.staticFolder.not_fails hfails
  · exact h.depth.not_fails hfails

/-- Some setting is rejected if there are issues. -/
theorem exists_rejects {issues : List Issue}
    (h : Settings.ofEnvironment files env = .ok (.invalid issues)) :
    ∃ field, Rejects files env field := by
  by_contra hnone
  have hread : ∀ {α : Type} {name : String} {default : α} {check : Json.Value → Checked α},
      ¬Fails env name (fun v a => check v = .valid a) →
        ∃ a, read env name default check = .valid a := by
    intro α name default check hfails
    by_contra hne
    exact hfails (read_ne_valid_iff.1 fun a ha => hne ⟨a, ha⟩)
  rw [ofEnvironment_eq] at h
  cases hfolder : folder files env with
  | error e =>
    rw [hfolder] at h
    cases h
  | ok p =>
    rw [hfolder] at h
    obtain ⟨host, hhost⟩ := hread fun hfails => hnone ⟨_, .host hfails⟩
    obtain ⟨port, hport⟩ := hread fun hfails => hnone ⟨_, .port hfails⟩
    obtain ⟨depth, hdepth⟩ := hread fun hfails => hnone ⟨_, .depth hfails⟩
    obtain ⟨level, hlevel⟩ : ∃ t, read env "ARITHMETIC_LOG_LEVEL" Settings.standard.logLevel
        Schema.text = .valid t := hread fun ⟨t, _, hne⟩ => hne t rfl
    obtain ⟨place, rfl⟩ : ∃ q, p = .valid q := by
      by_contra hne
      exact hnone ⟨_, .staticFolder ((folder_ne_valid_iff hfolder).1 fun q hq => hne ⟨q, hq⟩)⟩
    have hvalid : gather env (.valid place) = .valid ⟨host, port, place, depth, level⟩ :=
      gather_eq_valid_iff.2 ⟨hhost, hport, rfl, hdepth, hlevel⟩
    rw [Except.map, hvalid] at h
    cases h

/-- A static folder that is given is there for the service to read from. -/
theorem Gives.exists_folder {s : Settings} (h : Gives files env s) {p : Path}
    (hp : s.staticFolder = some p) :
    ∃ place, (Service.ofSettings s files).folder? = some place ∧
      files.isDirectory place = true := by
  have hfolder := h.staticFolder
  rw [hp] at hfolder
  cases hfolder with
  | given _ hdirectory =>
    obtain ⟨hpath, hfind⟩ := Schema.directory_text_eq_valid_iff.1 hdirectory
    cases hpath
    obtain ⟨place, hresolve, hentry⟩ := Files.exists_resolve_of_find hfind
    refine ⟨place, ?_, decide_eq_true hentry⟩
    rw [Service.folder?, Service.ofSettings, hp, Option.bind_some, hresolve]
    rfl

end Environment

/-! ## Starting -/

/-- A server whose settings name a log level listens with them. -/
theorem Server.start_of_level {settings : Settings} {level : ℕ}
    (h : Log.level? settings.logLevel.capitals = some level) (s : Session) :
    (start settings s).1 = .ok () ∧
      (start settings s).2.events = s.events ++ [.listen settings] ∧
      (start settings s).2.peer = .service settings := by
  have hconfigure : s.logger.configure settings.logLevel =
      .ok { s.logger.attached with level := level } := by
    rw [Logger.configure, h]
  rw [start, hconfigure]
  exact ⟨rfl, rfl, rfl⟩

/-- A server whose settings name no log level does not start. -/
theorem Server.start_of_no_level {settings : Settings}
    (h : Log.level? settings.logLevel.capitals = none) (s : Session) :
    start settings s = (.error ⟨settings.logLevel.capitals⟩, s) := by
  have hconfigure : s.logger.configure settings.logLevel =
      .error ⟨settings.logLevel.capitals⟩ := by
    rw [Logger.configure, h]
  rw [start, hconfigure]

/-- **What an environment means for the start of a server.** It cannot be checked if the path of the
static folder is too long to be looked up. Else the host, the port, the static folder and the depth
limit are checked: there is an issue at each of them whose variable holds a text that does not do,
and none elsewhere. Without issues the settings are what the variables give, and the static folder,
if there is one, is there to be served. The name of the log level is not checked before the start:
if there is such a level, in whatever case, then the server listens with its settings, and else it
does not start. -/
theorem environment_starts (env : Environment) (s : Session) :
    match Settings.ofEnvironment s.files env with
    | .error e =>
      e = .nameTooLong ∧ ∃ t, env.value? "ARITHMETIC_STATIC_DIR" = some t ∧
        s.files.find (Path.ofText t) = .error .nameTooLong
    | .ok (.invalid issues) =>
      (∃ field, Environment.Rejects s.files env field) ∧
        ∀ location, (∃ i ∈ issues, i.location = location) ↔
          ∃ field, Environment.Rejects s.files env field ∧ location = [.name field]
    | .ok (.valid settings) =>
      Environment.Gives s.files env settings ∧
        (∀ field, ¬Environment.Rejects s.files env field) ∧
        (∀ p, settings.staticFolder = some p → ∃ place,
          (Service.ofSettings settings s.files).folder? = some place ∧
            s.files.isDirectory place = true) ∧
        match Log.level? settings.logLevel.capitals with
        | some _ =>
          (Server.start settings s).1 = .ok () ∧
            (Server.start settings s).2.events = s.events ++ [.listen settings] ∧
            (Server.start settings s).2.peer = .service settings
        | none => Server.start settings s = (.error ⟨settings.logLevel.capitals⟩, s) := by
  cases h : Settings.ofEnvironment s.files env with
  | error e =>
    rw [Environment.ofEnvironment_eq] at h
    cases hfolder : Environment.folder s.files env with
    | ok p =>
      rw [hfolder] at h
      cases h
    | error e' =>
      rw [hfolder] at h
      cases h
      exact Environment.folder_eq_error_iff.1 hfolder
  | ok checked =>
    cases checked with
    | invalid issues =>
      exact ⟨Environment.exists_rejects h, Environment.mem_issues_iff h⟩
    | valid settings =>
      have hgives := Environment.ofEnvironment_eq_valid_iff.1 h
      refine ⟨hgives, hgives.not_rejects, fun p hp => hgives.exists_folder hp, ?_⟩
      cases hlevel : Log.level? settings.logLevel.capitals with
      | some level => exact Server.start_of_level hlevel s
      | none => exact Server.start_of_no_level hlevel s

/-- A word that names no log level: the environment passes, and the server does not start. -/
theorem environment_starts_unknown_level :
    let env : Environment := [("ARITHMETIC_LOG_LEVEL", "verbose")]
    let settings : Settings := { Settings.standard with logLevel := "verbose" }
    let s := Session.fresh Files.empty (.service .standard) 0
    Settings.ofEnvironment s.files env = .ok (.valid settings) ∧
      Server.start settings s = (.error ⟨"VERBOSE"⟩, s) := by
  intro env settings s
  have hgiven : Settings.ofEnvironment s.files env = .ok (.valid settings) := by rfl
  have hlevel : Log.level? settings.logLevel.capitals = none := by decide
  have hcapitals : settings.logLevel.capitals = Text.ofString "VERBOSE" := by decide
  have hall := environment_starts env s
  rw [hgiven] at hall
  obtain ⟨-, -, -, hstart⟩ := hall
  rw [hlevel] at hstart
  dsimp only at hstart
  rw [hcapitals] at hstart
  exact ⟨hgiven, hstart⟩

end Abacus
