import Abacus.Json.Printer
import Abacus.Text.Utf8

/-!
# Requests and responses

Headers are left out, but for the place that a redirect leads to.

* `Request`: method, decoded path, raw query and body.
* `Response`: status, body, whether the body is JSON, and where a redirect leads.
* `Response.json`, `Response.redirect`: the usual responses.
-/

namespace Abacus

/-- A request. -/
structure Request where
  method : Text
  path : Text
  query : Bytes
  body : Bytes
  deriving DecidableEq

/-- What a body is. -/
inductive Media
  | json
  | other
  deriving DecidableEq, Repr

/-- A response. -/
structure Response where
  status : Nat
  media : Media
  body : Bytes
  location : Option Text
  deriving DecidableEq

namespace Request

/-- The host that requests are addressed to. -/
def host : String := "testserver"

/-- The path as the log shows it: line breaks and tabs are left out, and so is what follows a
question mark or a number sign. -/
def shownPath (r : Request) : Text :=
  (r.path.filter fun (c : CodePoint) => !(c = '\t' || c = '\n' || c = '\r')).takeWhile
    fun (c : CodePoint) => !(c = '?' || c = '#')

end Request

namespace Response

/-- A response with a JSON body. -/
def json (status : Nat) (value : Json.Value) : Response :=
  ⟨status, .json, Utf8.encodeLone (value.write Json.compact), none⟩

/-- A temporary redirect. -/
def redirect (location : Text) : Response := ⟨307, .other, [], some location⟩

end Response

end Abacus
