import Abacus.Operator
import Abacus.Http.Message

/-!
# Endpoints

The service answers direct questions, one path for each operator, expressions, and requests for
its index. A path also fits with a line feed at its end.

* `Endpoint`, `Endpoint.all`: the endpoints in the order in which they are tried.
* `Endpoint.hasPath`, `Endpoint.fits`: whether a request is for an endpoint by its path alone, and
  by its method too.
-/

namespace Abacus

/-- What the service can be asked. -/
inductive Endpoint
  /-- An operator over two operands from the query. -/
  | direct (op : Operator)
  /-- An expression in the body. -/
  | calculate
  /-- The list of endpoints. -/
  | index
  deriving DecidableEq, Repr

namespace Endpoint

/-- The endpoints in the order in which they are tried. -/
def all : List Endpoint := Operator.all.map direct ++ [calculate, index]

/-- What all paths of endpoints begin with. -/
def root : Text := "/api/"

/-- The path of an endpoint. -/
def path : Endpoint → Text
  | direct op => root ++ Text.ofString op.name
  | calculate => root ++ ("calculate" : Text)
  | index => root

/-- The method of an endpoint. -/
def method : Endpoint → Text
  | calculate => "POST"
  | _ => "GET"

/-- Whether a path is that of an endpoint, perhaps with a line feed at its end. -/
def hasPath (e : Endpoint) (path : Text) : Bool :=
  path = e.path || path = e.path ++ ("\n" : Text)

/-- Whether a request has the path and the method of an endpoint. -/
def fits (e : Endpoint) (r : Request) : Bool := e.hasPath r.path && r.method = e.method

end Endpoint

end Abacus
