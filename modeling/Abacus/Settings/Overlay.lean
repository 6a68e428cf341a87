import Abacus.Settings

/-!
# Overlays of settings

The command line can set some of the settings of the service. Those it does not set keep the value
that they have in the settings below.

* `Overlay`, `Overlay.ofData`: the settings that are set, and their checks.
* `Overlay.merge`: an overlay laid over settings.
* `Overlay.apply`: the same with a check of the outcome.
-/

namespace Abacus

/-- Settings of the service that may be set or not. -/
structure Overlay where
  host : Option Address
  port : Option Nat
  staticFolder : Option Path
  depth : Option Nat
  deriving DecidableEq

namespace Overlay

/-- The shape of an overlay. -/
def shape : Schema.Shape := ⟨"ServeArgs", ["host", "port", "static_dir", "max_depth"], false⟩

/-- The overlay that the members of an object give; null leaves a setting as it is. -/
def ofData (files : Files) (members : Json.Members) : Except AccessError (Checked Overlay) := do
  let folder ← Schema.optionalBy members "static_dir" none (Schema.directory files)
  return Overlay.mk
    <$> Schema.optional members "host" none (Schema.nullable Schema.address)
    <*> Schema.optional members "port" none (Schema.nullable Schema.port)
    <*> folder
    <*> Schema.optional members "max_depth" none (Schema.nullable Schema.depth)

/-- A number as data. -/
def numberData : Option Nat → Json.Value
  | some n => .int n
  | none => .null

/-- The overlay as members of an object. -/
def toData (o : Overlay) : Json.Members :=
  [("host", match o.host with
      | some a => .text a.text
      | none => .null),
    ("port", numberData o.port), ("static_dir", Settings.folderData o.staticFolder),
    ("max_depth", numberData o.depth)]

/-- The overlay laid over settings. -/
def merge (o : Overlay) (base : Settings) : Settings :=
  { base with
    host := (o.host.map .address).getD base.host
    port := o.port.getD base.port
    staticFolder := o.staticFolder.or base.staticFolder
    depth := o.depth.getD base.depth }

/-- The overlay laid over settings, checked again. -/
def apply (files : Files) (o : Overlay) (base : Settings) :
    Except AccessError (Checked Settings) :=
  (o.merge base).recheck files

end Overlay

/-- What a run over a file of expressions needs: the file and a port. -/
structure RunOptions where
  input : Path
  port : Nat
  deriving DecidableEq

namespace RunOptions

/-- The shape of options. -/
def shape : Schema.Shape := ⟨"RunArgs", ["file_path", "port"], false⟩

/-- The options that the members of an object give. -/
def ofData (files : Files) (members : Json.Members) :
    Except AccessError (Checked RunOptions) := do
  let input ← Schema.requiredBy members "file_path" (Schema.file files)
  return RunOptions.mk
    <$> input
    <*> Schema.optional members "port" Settings.standard.port Schema.port

/-- The options as members of an object. -/
def toData (o : RunOptions) : Json.Members :=
  [("file_path", .text o.input.text), ("port", .int o.port)]

end RunOptions

end Abacus
