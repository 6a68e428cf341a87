import Abacus.Expression
import Abacus.Rejection

/-!
# Evaluation

An operation evaluates its arguments from left to right and folds its operator over their values.
Before folding it looks at all values: each must be finite, and none after the first may be zero
where a quotient would be taken. The first failure ends the evaluation.

* `EvaluationError`, `EvaluationError.rejection?`: why an expression has no value.
* `Operator.apply`: an operator over the values of its arguments.
* `Expression.evaluate`: the value of an expression.
* `ensureFinite`: the check that an answer makes of its value.
-/

namespace Abacus

/-- Why an expression has no value. -/
inductive EvaluationError
  | divisionByZero
  | zeroDegreeRoot
  | nonFiniteValue
  /-- A quotient by zero was taken in the fold itself. The checks before the fold exclude it. -/
  | undefinedQuotient
  deriving DecidableEq, Repr

namespace EvaluationError

/-- The rejection that an error leads to, if it is one of those foreseen. -/
def rejection? : EvaluationError → Option Rejection
  | divisionByZero => some (Rejection.plain .divisionByZero)
  | zeroDegreeRoot => some (Rejection.plain .zeroDegreeRoot)
  | nonFiniteValue => some (Rejection.plain .nonFiniteValue)
  | undefinedQuotient => none

end EvaluationError

namespace Operator

/-- The accumulator after all operands; none if a quotient by zero is taken. -/
def fold? (op : Operator) (acc : Float) : List Float → Option Float
  | [] => some acc
  | x :: rest => (op.step? acc x).bind fun acc => fold? op acc rest

/-- The value of an operator over a single operand. -/
def single (op : Operator) (x : Float) : Float :=
  match op with
  | root => Arithmetic.squareRoot x
  | _ => x

/-- The value of an operator over a first operand and the others. -/
def apply (op : Operator) (first : Float) (rest : List Float) : Except EvaluationError Float :=
  if !((first :: rest).all Float.isFinite) then .error .nonFiniteValue
  else if rest.isEmpty then .ok (op.single first)
  else if op = divide && rest.any (· == 0) then .error .divisionByZero
  else if op = root && rest.any (· == 0) then .error .zeroDegreeRoot
  else
    match op.fold? first rest with
    | some x => .ok x
    | none => .error .undefinedQuotient

/-- The value of an operator over a list of operands, which has none for the empty list. -/
def applyList? (op : Operator) : List Float → Option (Except EvaluationError Float)
  | [] => none
  | first :: rest => some (op.apply first rest)

end Operator

namespace Expression

mutual

/-- The value of an expression. -/
def evaluate : Expression → Except EvaluationError Float
  | literal x => .ok x
  | operation op first rest => do
    let x ← evaluate first
    let xs ← evaluateAll rest
    op.apply x xs

/-- The values of expressions, from left to right up to the first failure. -/
def evaluateAll : List Expression → Except EvaluationError (List Float)
  | [] => .ok []
  | e :: rest => do
    let x ← evaluate e
    let xs ← evaluateAll rest
    return x :: xs

end

end Expression

/-- An answer must be a finite number. -/
def ensureFinite (x : Float) : Except EvaluationError Float :=
  if x.isFinite then .ok x else .error .nonFiniteValue

end Abacus
