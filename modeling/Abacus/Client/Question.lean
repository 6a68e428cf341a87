import Abacus.Client

/-!
# Questions

A client asks a direct question by putting the operands into the query, and has an expression
evaluated by sending it as the body.

* `Question.fields`, `Question.call`: the call for a direct question.
* `Client.compute`: asks a direct question.
* `Client.calculate`: sends an expression.
-/

namespace Abacus

namespace Question

/-- The text of an operand: nothing for null, and small words for truth values. -/
def operandText : Json.Value → Text
  | .null => []
  | .bool b => if b then "true" else "false"
  | v => v.plainText

/-- The fields for an operand: one, or one for each item of a list. -/
def operandFields (name : Text) : Json.Value → Form.Fields
  | .array items => items.map fun v => (name, operandText v)
  | v => [(name, operandText v)]

/-- The fields for two operands. -/
def fields (v1 v2 : Json.Value) : Form.Fields := operandFields "v1" v1 ++ operandFields "v2" v2

/-- The call for a direct question. -/
def call (url : Url) (action : Text) (v1 v2 : Json.Value) : Except TargetError Call := do
  let path ← Target.path (Endpoint.root ++ action)
  let target ← Target.withQuery (url.resource path) (fields v1 v2)
  return ⟨"GET", target, []⟩

/-- The body for an expression; there is none for null. -/
def body (expression : Json.Value) : Except ClientError Bytes :=
  match expression with
  | .null => .ok []
  | v =>
    if !v.floatsFinite then .error .nonFiniteNumber
    else
      match Utf8.encode? (v.write Json.compact) with
      | some bytes => .ok bytes
      | none => .error .unencodable

/-- The call for an expression with a given body. -/
def calculation (url : Url) (body : Bytes) : Call :=
  ⟨"POST", url.target Endpoint.calculate.path, body⟩

end Question

namespace Client

/-- Asks a direct question. -/
def compute (c : Client) (action : Text) (v1 v2 : Json.Value) (s : Session) :
    Except ClientError Json.Value × Session :=
  match c.connect s with
  | .error e => (.error e, s)
  | .ok (url, s) =>
    match Question.call url action v1 v2 with
    | .error e => (.error (.ofTargetError e), s)
    | .ok call => send call s

/-- Sends an expression. -/
def calculate (c : Client) (expression : Json.Value) (s : Session) :
    Except ClientError Json.Value × Session :=
  match c.connect s with
  | .error e => (.error e, s)
  | .ok (url, s) =>
    match Question.body expression with
    | .error e => (.error e, s)
    | .ok body => send (Question.calculation url body) s

end Client

end Abacus
