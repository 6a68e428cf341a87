import Abacus.Address
import Abacus.Expression.Validation
import Abacus.Schema.Assignment
import Abacus.Schema.Location
import Abacus.Schema.Scalar

/-!
# Settings of the service

Where the service listens, which directory it serves besides, how deep expressions may be nested
and from which level on it logs. A default is taken as it stands: the default host is a text until
it is checked.

* `Settings.Interface`: where a service listens, checked or not.
* `Settings`, `Settings.standard`: the settings and their defaults.
* `Settings.ofData`, `Settings.toData`: reading settings from data and writing them.
* `Settings.recheck`: the checks of settings that were put together from others.
-/

namespace Abacus

/-- Where a service listens. -/
inductive Settings.Interface
  /-- A text that nothing has checked. -/
  | unchecked (t : Text)
  | address (a : Address)
  deriving DecidableEq

namespace Settings.Interface

/-- The text of an interface. -/
def text : Interface → Text
  | unchecked t => t
  | address a => a.text

/-- The interface that data give. -/
def ofData (v : Json.Value) : Checked Interface := (Schema.address v).map address

/-- Checks an interface, by its text. -/
def recheck (i : Interface) : Checked Interface := ofData (.text i.text)

end Settings.Interface

/-- The settings of the service. -/
structure Settings where
  host : Settings.Interface
  port : Nat
  /-- The directory whose files are served. -/
  staticFolder : Option Path
  /-- How many operations may stand inside one another. -/
  depth : Nat
  /-- The name of a log level. -/
  logLevel : Text
  deriving DecidableEq

namespace Schema

/-- The number of a port. -/
def portNumber (n : Int) : Checked Nat := between 1 65535 n

/-- A port. -/
def port (v : Json.Value) : Checked Nat := (integer v).andThen portNumber

/-- A limit on nesting. -/
def depth (v : Json.Value) : Checked Nat := (integer v).andThen (atLeast 1)

end Schema

namespace Settings

open Schema (Step)

/-- The settings when nothing else is said. -/
def standard : Settings :=
  ⟨.unchecked "127.0.0.1", 3000, none, Expression.defaultDepth, "INFO"⟩

/-- The shape of settings. -/
def shape : Schema.Shape :=
  ⟨"ServerConfig", ["host", "port", "static_dir", "max_depth", "log_level"], true⟩

/-- The settings that the members of an object give. -/
def ofData (files : Files) (members : Json.Members) : Except AccessError (Checked Settings) := do
  let folder ←
    Schema.optionalBy members "static_dir" standard.staticFolder (Schema.directory files)
  return Settings.mk
    <$> Schema.optional members "host" standard.host Interface.ofData
    <*> Schema.optional members "port" standard.port Schema.port
    <*> folder
    <*> Schema.optional members "max_depth" standard.depth Schema.depth
    <*> Schema.optional members "log_level" standard.logLevel Schema.text

/-- The path of a folder as data. -/
def folderData : Option Path → Json.Value
  | some p => .text p.text
  | none => .null

/-- The settings as members of an object. -/
def toData (s : Settings) : Json.Members :=
  [("host", .text s.host.text), ("port", .int s.port), ("static_dir", folderData s.staticFolder),
    ("max_depth", .int s.depth), ("log_level", .text s.logLevel)]

/-- Checks that a folder, if there is one, is still there. -/
def recheckFolder (files : Files) : Option Path → Except AccessError (Checked (Option Path))
  | none => .ok (.valid none)
  | some p => return (← Schema.existingDirectory files p).map some

/-- Checks settings that were put together from others. -/
def recheck (files : Files) (s : Settings) : Except AccessError (Checked Settings) := do
  let folder ← recheckFolder files s.staticFolder
  return Settings.mk
    <$> s.host.recheck.within (.name "host")
    <*> (Schema.portNumber s.port).within (.name "port")
    <*> folder.within (.name "static_dir")
    <*> (Schema.atLeast 1 s.depth).within (.name "max_depth")
    <*> .valid s.logLevel

end Settings

end Abacus
