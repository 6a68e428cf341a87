import Abacus.Schema.Assignment
import Abacus.Schema.Scalar

/-!
# Answers

The bodies that the service answers with: the outcome of a direct question, the outcome of an
expression, a failure, and the index of the service.

* `DirectAnswer`, `CalculationAnswer`, `Failure`, `Index`: the four bodies.
* `toData`, `ofData` in the namespace of each: writing and reading.
-/

namespace Abacus

/-- The answer to a direct question. -/
structure DirectAnswer where
  action : Text
  left : Float
  right : Float
  result : Float

namespace DirectAnswer

/-- The shape of the answer. -/
def shape : Schema.Shape :=
  ⟨"BinaryOperationResult", ["action", "v1", "v2", "result"], false⟩

/-- The answer as members of an object. -/
def toData (a : DirectAnswer) : Json.Members :=
  [("action", .text a.action), ("v1", .float a.left), ("v2", .float a.right),
    ("result", .float a.result)]

/-- The answer that the members of an object give. -/
def ofData (members : Json.Members) : Checked DirectAnswer :=
  DirectAnswer.mk
    <$> Schema.required members "action" Schema.text
    <*> Schema.required members "v1" Schema.double
    <*> Schema.required members "v2" Schema.double
    <*> Schema.required members "result" Schema.double

end DirectAnswer

/-- The answer to an expression. -/
structure CalculationAnswer where
  action : Text
  result : Float

namespace CalculationAnswer

/-- The shape of the answer. -/
def shape : Schema.Shape :=
  ⟨"CalculationResult", ["action", "result"], false⟩

/-- The action that every such answer names. -/
def usualAction : Text := "calculate"

/-- The answer with a given result. -/
def ofResult (x : Float) : CalculationAnswer := ⟨usualAction, x⟩

/-- The answer as members of an object. -/
def toData (a : CalculationAnswer) : Json.Members :=
  [("action", .text a.action), ("result", .float a.result)]

/-- The answer that the members of an object give. -/
def ofData (members : Json.Members) : Checked CalculationAnswer :=
  CalculationAnswer.mk
    <$> Schema.optional members "action" usualAction Schema.text
    <*> Schema.required members "result" Schema.double

end CalculationAnswer

/-- The answer to a request that failed. -/
structure Failure where
  error : Text
  deriving DecidableEq

namespace Failure

/-- The shape of the answer. -/
def shape : Schema.Shape :=
  ⟨"ErrorResponse", ["error"], false⟩

/-- The answer as members of an object. -/
def toData (a : Failure) : Json.Members := [("error", .text a.error)]

/-- The answer that the members of an object give. -/
def ofData (members : Json.Members) : Checked Failure :=
  Failure.mk <$> Schema.required members "error" Schema.text

end Failure

/-- The index of the service: a message, the endpoints and an example of an expression. -/
structure Index where
  message : Text
  endpoints : List Text
  sample : Json.Members

namespace Index

/-- The shape of the answer. -/
def shape : Schema.Shape :=
  ⟨"ApiIndex", ["message", "endpoints", "example_expression"], false⟩

/-- The index as members of an object. -/
def toData (a : Index) : Json.Members :=
  [("message", .text a.message), ("endpoints", .array (a.endpoints.map .text)),
    ("example_expression", .object a.sample)]

/-- A value that has to be a dictionary. -/
def dictionary : Json.Value → Checked Json.Members
  | .object members => .valid members
  | _ => .issue .dictionaryType

/-- The index that the members of an object give. -/
def ofData (members : Json.Members) : Checked Index :=
  Index.mk
    <$> Schema.required members "message" Schema.text
    <*> Schema.required members "endpoints" (Schema.items Schema.text)
    <*> Schema.required members "example_expression" dictionary

end Index

end Abacus
