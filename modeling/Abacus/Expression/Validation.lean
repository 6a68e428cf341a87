import Abacus.Expression
import Abacus.Json.Display
import Abacus.Rejection

/-!
# Validation

A JSON value is an expression if it is a finite number, or an object whose member `op` names an
operator and whose member `args` is a list, not empty, of expressions. The walk goes depth first
and from left to right and reports the first defect.

* `ValidationError`, `ValidationError.rejection`: the defects and their wording.
* `Json.Value.finite?`: the finite number that a value is.
* `Expression.validate`: the expression that a value is, with a limit on the nesting.
-/

namespace Abacus

/-- The first defect of a value that is no expression. -/
inductive ValidationError
  | notANodeOrNumber
  | unsupportedOperator (op : Json.Value)
  | emptyArguments (op : Operator)
  | argumentsNotASequence (op : Operator)
  | depthLimitExceeded (limit : Int)

namespace ValidationError

/-- The rejection that a defect leads to. -/
def rejection : ValidationError → Rejection
  | notANodeOrNumber => Rejection.plain .notANodeOrNumber
  | unsupportedOperator op => Rejection.unsupportedOperator op.display
  | emptyArguments op => Rejection.emptyArguments op
  | argumentsNotASequence op => Rejection.argumentsNotASequence op
  | depthLimitExceeded limit => Rejection.depthLimitExceeded (Text.ofInt limit)

end ValidationError

namespace Json.Value

/-- The finite number that a value is. An integer counts by the double nearest to it. -/
def finite? : Value → Option Float
  | .int n => Number.ofInt? n
  | .float x => if x.isFinite then some x else none
  | _ => none

end Json.Value

namespace Expression

/-- The largest nesting accepted when nothing else is asked for. -/
def defaultDepth : Nat := 64

/-- The operator that the value of a member `op` names. -/
def operatorOf (value : Json.Value) : Except ValidationError Operator :=
  match value with
  | .text name =>
    match Operator.ofName? name with
    | some op => .ok op
    | none => .error (.unsupportedOperator value)
  | _ => .error (.unsupportedOperator value)

/-- The arguments that the value of a member `args` lists. -/
def argumentsOf (op : Operator) :
    Option Json.Value → Except ValidationError (Json.Value × List Json.Value)
  | some (.array (first :: rest)) => .ok (first, rest)
  | some (.array []) => .error (.emptyArguments op)
  | _ => .error (.argumentsNotASequence op)

/-- Walks a value that may still hold `levels` nested operations of the `limit` allowed. -/
def walk (limit : Int) : (levels : Nat) → Json.Value → Except ValidationError Expression
  | levels, value =>
    match value.finite? with
    | some x => .ok (.literal x)
    | none =>
      match value with
      | .object members =>
        if !(Json.Members.has members "op" || Json.Members.has members "args") then
          .error .notANodeOrNumber
        else
          match levels with
          | 0 => .error (.depthLimitExceeded limit)
          | below + 1 => do
            let op ← operatorOf ((Json.Members.get? members "op").getD .null)
            let (first, rest) ← argumentsOf op (Json.Members.get? members "args")
            let first ← walk limit below first
            let rest ← rest.mapM (walk limit below)
            return .operation op first rest
      | _ => .error .notANodeOrNumber

/-- The expression that a value is, with at most `limit` operations inside one another. -/
def validate (limit : Int) (value : Json.Value) : Except ValidationError Expression :=
  walk limit limit.toNat value

end Expression

end Abacus
