import Abacus.Session

/-!
# The server

Starting a server sets the level of the log, announces the server and listens until it is stopped.

* `Server.ofData`: a server's settings as part of a larger record.
* `Server.start`: what starting does to a session.
-/

namespace Abacus.Server

/-- The shape of a server. -/
def shape : Schema.Shape := ⟨"ArithmeticServer", ["config"], true⟩

/-- The settings of a server in a record that has them as one of its members. -/
def ofData (files : Files) (members : Json.Members) : Except AccessError (Checked Settings) :=
  Schema.optionalBy members "config" Settings.standard
    (Schema.membersBy Settings.shape.record (Settings.ofData files))

/-- The record of a server as members of an object. -/
def toData (settings : Settings) : Json.Members := [("config", .object settings.toData)]

/-- The address of a server as its log shows it. -/
def address (settings : Settings) : Text :=
  ("http://" : Text) ++ settings.host.text ++ (":" : Text) ++ Text.ofNat settings.port

/-- The record at the start of a server. -/
def starting (settings : Settings) : Log.Record :=
  Log.info (("🖥️ Starting server on " : Text) ++ address settings)

/-- The record at the end of a server. -/
def stopped : Log.Record := Log.info ("🖥️ Server stopped" : Text)

/-- Listens: from now on the calls of a session reach a service with these settings. -/
def listen (settings : Settings) (s : Session) : Session :=
  { s.note (.listen settings) with peer := .service settings }

/-- Starts a server and has it listen until it is stopped. -/
def start (settings : Settings) (s : Session) : Except UnknownLevel Unit × Session :=
  match s.logger.configure settings.logLevel with
  | .error e => (.error e, s)
  | .ok logger =>
    let s := { s with logger := logger }
    let s := listen settings (s.record (starting settings :: Service.startRecords settings))
    (.ok (), s.record [stopped])

end Abacus.Server
