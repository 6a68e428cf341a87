import Abacus.Http.Form
import Abacus.Json.Encoding
import Abacus.Service.Endpoint
import Abacus.Service.Interruption

/-!
# Questions and expressions

The two ways to have something computed. A direct question has its operands in the query. An
expression stands in the body; it goes through stages, and the first one that fails decides the
answer: the body is there, it is JSON, it is an expression, it has a value, the value is finite.

* `Direct.answer`: the answer to a direct question.
* `Calculation.decode`, `Calculation.answer`: the answer to an expression.
* `Evaluator`, `Calculation.evaluator`: how expressions are evaluated.
* `Index.answer`: the index.
-/

namespace Abacus

namespace Direct

/-- The answer to a direct question. -/
def answer (op : Operator) (query : Bytes) : Except Interruption Response := do
  let fields := Form.decode query
  let operands ←
    (Operand.parse (Form.value? fields "v1") (Form.value? fields "v2")).mapError
      Interruption.ofOperandError
  let result ←
    ((op.apply operands.1 [operands.2]).bind ensureFinite).mapError
      Interruption.ofEvaluationError
  return .json 200 (.object (DirectAnswer.mk op.name operands.1 operands.2 result).toData)

end Direct

/-- A way to evaluate expressions. -/
abbrev Evaluator := Expression → Except Interruption Float

namespace Calculation

/-- The usual way to evaluate expressions. -/
def evaluator : Evaluator := fun e => e.evaluate.mapError Interruption.ofEvaluationError

/-- Whether a body consists of blanks. -/
def isBlank (body : Bytes) : Bool := body.all fun b => (Percent.ofByte b).isAsciiBlank

/-- The interruption by a body that is no JSON; one that is nested too deep breaks the limit. -/
def ofDecodeError (limit : Int) : Json.DecodeError → Interruption
  | .tooDeep _ => Interruption.ofValidationError (.depthLimitExceeded limit)
  | _ => .rejected (Rejection.plain .invalidBody)

/-- The value in a body. -/
def decode (limit : Int) (body : Bytes) : Except Interruption Json.Value :=
  if isBlank body then .error (.rejected (Rejection.plain .missingExpression))
  else (Json.ofBytes body).mapError (ofDecodeError limit)

/-- The answer to an expression. -/
def answer (limit : Int) (evaluate : Evaluator) (body : Bytes) : Except Interruption Response := do
  let value ← decode limit body
  let e ← (Expression.validate limit value).mapError Interruption.ofValidationError
  let x ← evaluate e
  let x ← (ensureFinite x).mapError Interruption.ofEvaluationError
  return .json 200 (.object (CalculationAnswer.ofResult x).toData)

end Calculation

namespace Index

/-- The line of the index about an operator. -/
def line (op : Operator) : Text :=
  ("GET " : Text) ++ (Endpoint.direct op).path ++ ("?v1=<number>&v2=<" : Text) ++
    (if op = .root then ("degree" : Text) else "number") ++ (">" : Text)

/-- An operation with the operands as JSON. -/
def operation (op : Operator) (arguments : List Json.Value) : Json.Value :=
  .object [("op", .text op.name), ("args", .array arguments)]

/-- The example of an expression: an addition of a number, a power and a product. -/
def example? : Json.Members :=
  [("op", .text Operator.add.name),
    ("args", .array [.int 1, operation .power [.int 2, .int 3],
      operation .multiply [.int 4, .int 5, .int 6]])]

/-- The index of the service. -/
def standard : Index :=
  ⟨"Math Operations API",
    Operator.all.map line ++
      [("POST " : Text) ++ Endpoint.calculate.path ++
        ("  (JSON: \x7b <expression tree> \x7d)" : Text)],
    example?⟩

/-- The answer to a request for the index. -/
def answer : Response := .json 200 (.object standard.toData)

end Index

end Abacus
