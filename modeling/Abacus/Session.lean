import Abacus.Service

/-!
# Sessions

A session is what the calls of a client act on: files, a log, the far end of its connections, and
the clock that takes its pauses. All that is done in it is kept as a list of events in order; they
stand for the sockets, the processes and the time that they would use.

* `Session`, `Session.Event`, `Session.Peer`: a session, what happens in it, and the far end.
* `Session.Clock`, `PauseError`: the clock of a session, and why it refuses a pause.
* `Call`, `Call.request`: a request as a client sends it and as a service receives it.
* `Session.exchange`: sends a call; the first connections of a session may be refused.
* `Session.pause`: pauses.
-/

namespace Abacus

/-- A request as it is sent: method, encoded target and body. -/
structure Call where
  method : Text
  target : Text
  body : Bytes
  deriving DecidableEq

/-- The request that a service receives. -/
def Call.request (c : Call) : Request :=
  let (path, query) := Text.cutAt '?' c.target
  ⟨c.method, Percent.decode path, Utf8.encodeLone (query.getD []), c.body⟩

/-- Why a pause is refused. -/
inductive PauseError
  | notANumber
  /-- The pause has more nanoseconds than a clock counts. -/
  | tooLong
  | negative
  deriving DecidableEq

namespace PauseError

/-- The wording of a refused pause. -/
def message : PauseError → Text
  | notANumber => "Invalid value NaN (not a number)"
  | tooLong => "timestamp out of range for platform time_t"
  | negative => "sleep length must be non-negative"

end PauseError

namespace Session

/-- What happens in a session. -/
inductive Event
  /-- A process for a service is started. -/
  | start
  /-- A service begins to listen. -/
  | listen (settings : Settings)
  /-- A client opens its connections to an address. -/
  | connect (address : Text)
  /-- A call is sent; `reached` says whether the far end took it. -/
  | call (c : Call) (reached : Bool)
  /-- A pause of some seconds. -/
  | sleep (seconds : Float)
  /-- The process is told to stop. -/
  | terminate
  /-- The process has ended. -/
  | join

/-- The far end of a connection. -/
inductive Peer
  /-- A service that answers. -/
  | service (settings : Settings)
  /-- Bodies that are sent back one after another. -/
  | replies (bodies : List Bytes)

/-- What takes the pauses. -/
inductive Clock
  /-- A clock that waits. It counts nanoseconds in a signed word of 64 bits. -/
  | waiting
  /-- One that lets the time pass at once. -/
  | immediate

/-- Why a clock refuses a pause of some seconds, if it does. -/
def Clock.refusal? : Clock → Float → Option PauseError
  | immediate, _ => none
  | waiting, seconds =>
    if seconds.isNaN then some .notANumber
    else if !(-9223372036854775808 ≤ seconds * 1e9 && seconds * 1e9 < 9223372036854775808) then
      some .tooLong
    else if seconds < 0 then some .negative
    else none

end Session

open Session (Clock Event Peer)

/-- Files, log, far end, clock and events of the calls of a client. -/
structure Session where
  files : Files
  logger : Logger
  peer : Peer
  clock : Clock
  /-- How many connections will still be refused. -/
  refusals : Nat
  events : List Event
  log : List Log.Record

namespace Session

/-- A session with nothing in its past, in which no time is lost. -/
def fresh (files : Files) (peer : Peer) (refusals : Nat) : Session :=
  ⟨files, Logger.standard, peer, .immediate, refusals, [], []⟩

/-- The session after an event. -/
def note (s : Session) (e : Event) : Session := { s with events := s.events ++ [e] }

/-- The session after records were made; those that the logger lets pass are kept. -/
def record (s : Session) (records : List Log.Record) : Session :=
  { s with log := s.log ++ s.logger.filter records }

/-- A reply with a body and nothing said about it. -/
def reply (body : Bytes) : Response := ⟨200, .json, body, none⟩

/-- The response of the far end, and the session afterwards. -/
def exchange (s : Session) (c : Call) : Option Response × Session :=
  if 0 < s.refusals then
    (none, { s.note (.call c false) with refusals := s.refusals - 1 })
  else
    match s.peer with
    | .service settings =>
      let (response, records) := (Service.ofSettings settings s.files).answer c.request
      (some response, (s.note (.call c true)).record records)
    | .replies [] => (none, s.note (.call c false))
    | .replies (body :: rest) =>
      (some (reply body), { s.note (.call c true) with peer := .replies rest })

/-- The session after a pause, if the clock takes it. -/
def pause (s : Session) (seconds : Float) : Except PauseError Session :=
  match s.clock.refusal? seconds with
  | some e => .error e
  | none => .ok (s.note (.sleep seconds))

end Session

end Abacus
