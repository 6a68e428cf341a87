import Abacus.Archive.Unpacking
import Abacus.Http.Url
import Abacus.Session

/-!
# Clients

A client knows the host and the port of a service and how long to wait for it.

* `Client`, `Client.ofData`, `Client.toData`: clients, read from data and written.
* `Client.address`: the address of the service.
* `ClientError`, `ClientError.message`: why a call of a client fails.
* `Client.connect`, `Client.send`: opening connections and sending a call.
-/

namespace Abacus

/-- A client of the service. -/
structure Client where
  host : Address
  port : Nat
  /-- Seconds to wait for an answer. -/
  timeout : Float

/-- Why a call of a client fails. -/
inductive ClientError
  /-- The address cannot be used. -/
  | invalidAddress
  /-- A text with a lone surrogate cannot be encoded. -/
  | unencodable
  /-- An expression holds a number that JSON cannot represent. -/
  | nonFiniteNumber
  /-- Nobody answers. -/
  | unreachable
  /-- A reply is not JSON. -/
  | undecodable (e : Json.DecodeError)
  /-- A reply has neither a result nor an error. -/
  | noError
  /-- A reply is not an object. -/
  | notAnObject (reply : Json.Value)
  | access (e : AccessError)
  | unpacking (e : UnpackingError)
  /-- A pause between two calls is refused. -/
  | pause (e : PauseError)
  /-- The service that was started does not answer at its port. -/
  | notStarted (port : Nat)

namespace ClientError

/-- The wording for a reply that is not an object. -/
def notAnObjectMessage : Json.Value → Text
  | .text _ => "string indices must be integers, not 'str'"
  | .array _ => "list indices must be integers or slices, not str"
  | v => ("argument of type '" : Text) ++ Text.ofString v.typeName ++ ("' is not iterable" : Text)

/-- The wording of an error, where it has one. -/
def message : ClientError → Text
  | nonFiniteNumber => "Out of range float values are not JSON compliant"
  | undecodable e => e.message
  | noError => "'error'"
  | notAnObject v => notAnObjectMessage v
  | unpacking e => e.message
  | pause e => e.message
  | notStarted port => ("Server did not start on port " : Text) ++ Text.ofNat port
  | _ => []

/-- The error of a call that has no target. -/
def ofTargetError : TargetError → ClientError
  | .invalid => invalidAddress
  | .unencodable => unencodable

end ClientError

namespace Client

/-- A client when nothing else is said. -/
def standard : Client := ⟨.loopback, 3000, 10⟩

/-- The check of a custom way to send requests, of which data can only give none. -/
def transport : Json.Value → Checked Unit
  | .null => .valid ()
  | _ => .issue (.instanceOf "BaseTransport")

/-- The shape of a client. -/
def shape : Schema.Shape :=
  ⟨"ArithmeticClient", ["host", "port", "timeout", "transport"], true⟩

/-- The client that the members of an object give. -/
def ofData (members : Json.Members) : Checked Client :=
  (fun host port timeout _ => Client.mk host port timeout)
    <$> Schema.optional members "host" standard.host Schema.address
    <*> Schema.optional members "port" standard.port Schema.port
    <*> Schema.optional members "timeout" standard.timeout Schema.aboveZero
    <*> Schema.optional members "transport" () transport

/-- The client as members of an object. -/
def toData (c : Client) : Json.Members :=
  [("host", .text c.host.text), ("port", .int c.port), ("timeout", .float c.timeout)]

/-- The address of the service. -/
def address (c : Client) : Text :=
  ("http://" : Text) ++ c.host.text ++ (":" : Text) ++ Text.ofNat c.port

/-- Opens connections. The host stands in the address without brackets, so that a long one makes
it unusable unless its zone holds an at sign. -/
def connect (c : Client) (s : Session) : Except ClientError (Url × Session) :=
  match Url.ofText c.address with
  | .error e => .error (.ofTargetError e)
  | .ok url => .ok (url, s.note (.connect c.address))

/-- Sends a call and decodes the body of the reply. -/
def send (call : Call) (s : Session) : Except ClientError Json.Value × Session :=
  match s.exchange call with
  | (none, s) => (.error .unreachable, s)
  | (some response, s) => ((Json.ofBytes response.body).mapError .undecodable, s)

end Client

end Abacus
