import Abacus.Client

/-!
# Readiness

A client can wait until the service answers. It asks for the index a number of times and pauses
after each time that nobody answers. A pause that the clock refuses ends the wait.

* `Client.poll`: asks and pauses.
* `Client.waitUntilReady`: the same with connections opened first.
-/

namespace Abacus.Client

/-- How often a client asks when nothing else is said. -/
def usualRetries : Nat := 20

/-- The pause in seconds when nothing else is said. -/
def usualDelay : Float := 0.25

/-- The call for the index. -/
def indexCall (url : Url) : Call := ⟨"GET", url.target Endpoint.index.path, []⟩

/-- Asks up to `retries` times, with a pause after each time that nobody answers. -/
def poll (url : Url) (delay : Float) :
    (retries : Nat) → Session → Except PauseError Bool × Session
  | 0, s => (.ok false, s)
  | retries + 1, s =>
    match s.exchange (indexCall url) with
    | (some _, s) => (.ok true, s)
    | (none, s) =>
      match s.pause delay with
      | .error e => (.error e, s)
      | .ok s => poll url delay retries s

/-- Waits until the service answers; says whether it did. -/
def waitUntilReady (c : Client) (retries : Int) (delay : Float) (s : Session) :
    Except ClientError Bool × Session :=
  match c.connect s with
  | .error e => (.error e, s)
  | .ok (url, s) =>
    let (ready, s) := poll url delay retries.toNat s
    (ready.mapError .pause, s)

end Abacus.Client
