import Abacus.Operator

/-!
# Rejections

A request that cannot be answered is rejected. The kinds of rejections form a tree, each kind with
a code that callers can rely on and, where nothing better is to be said, a message.

* `Rejection.Kind`, `Kind.code`, `Kind.parent?`, `Kind.ancestry`: the tree of kinds.
* `Rejection`, `Rejection.ofKind`: a kind and a message.
* `Rejection.unsupportedOperator` and its companions: the rejections whose message names something.
-/

namespace Abacus

namespace Rejection

/-- The kinds of rejections. -/
inductive Kind
  /-- Any rejection. -/
  | calculator
  /-- The expression is not well-formed. -/
  | validation
  | notANodeOrNumber
  | unsupportedOperator
  | emptyArguments
  | argumentsNotASequence
  | depthLimitExceeded
  /-- The expression has no value. -/
  | evaluation
  | divisionByZero
  | zeroDegreeRoot
  | nonFiniteValue
  /-- The operands of a direct question are not numbers. -/
  | invalidParameters
  | missingExpression
  | invalidBody
  deriving DecidableEq, Repr

namespace Kind

/-- The kind that a kind is a case of. -/
def parent? : Kind → Option Kind
  | calculator => none
  | validation => some calculator
  | notANodeOrNumber => some validation
  | unsupportedOperator => some validation
  | emptyArguments => some validation
  | argumentsNotASequence => some emptyArguments
  | depthLimitExceeded => some validation
  | evaluation => some calculator
  | divisionByZero => some evaluation
  | zeroDegreeRoot => some evaluation
  | nonFiniteValue => some evaluation
  | invalidParameters => some calculator
  | missingExpression => some calculator
  | invalidBody => some calculator

/-- A kind and those it is a case of, up to `height` steps up. -/
def climb : (height : Nat) → Kind → List Kind
  | 0, k => [k]
  | height + 1, k =>
    match k.parent? with
    | none => [k]
    | some p => k :: climb height p

/-- A kind and all those it is a case of; the tree is three steps high. -/
def ancestry (k : Kind) : List Kind := climb 3 k

/-- The code of a kind. -/
def code : Kind → String
  | calculator => "calculator_error"
  | validation => "validation_error"
  | notANodeOrNumber => "not_a_node_or_number"
  | unsupportedOperator => "unsupported_operator"
  | emptyArguments => "empty_args"
  | argumentsNotASequence => "args_not_a_sequence"
  | depthLimitExceeded => "depth_limit_exceeded"
  | evaluation => "evaluation_error"
  | divisionByZero => "division_by_zero"
  | zeroDegreeRoot => "zero_degree_root"
  | nonFiniteValue => "non_finite_value"
  | invalidParameters => "invalid_parameters"
  | missingExpression => "missing_expression"
  | invalidBody => "invalid_json_body"

/-- The message of a kind when there is nothing better to say. -/
def defaultMessage : Kind → String
  | calculator => "Calculation failed."
  | validation => "Invalid expression."
  | notANodeOrNumber => "Invalid node: must be a number or \x7b op, args \x7d."
  | unsupportedOperator => "Invalid expression."
  | emptyArguments => "Invalid expression."
  | argumentsNotASequence => "Invalid expression."
  | depthLimitExceeded => "Invalid expression."
  | evaluation => "Expression could not be evaluated."
  | divisionByZero => "Cannot divide by zero."
  | zeroDegreeRoot => "Cannot extract root with degree zero."
  | nonFiniteValue => "Non-numeric value encountered."
  | invalidParameters => "Invalid parameters. Both v1 and v2 must be valid numbers."
  | missingExpression => "Missing the expression in POST body."
  | invalidBody => "Invalid JSON in POST body."

end Kind

end Rejection

/-- A rejected request: the kind of the rejection, and its words. -/
structure Rejection where
  kind : Rejection.Kind
  message : Text
  deriving DecidableEq

namespace Rejection

/-- The rejection with a given message, or with the message of its kind if that one is empty. -/
def ofKind (kind : Kind) (message : Text) : Rejection :=
  ⟨kind, if message.isEmpty then Text.ofString kind.defaultMessage else message⟩

/-- The rejection with the message of its kind. -/
def plain (kind : Kind) : Rejection := ofKind kind []

/-- The operator is none of the six; `shown` is the form in which a message shows it. -/
def unsupportedOperator (shown : Text) : Rejection :=
  ofKind .unsupportedOperator
    (("Unsupported \"op\" " : Text) ++ shown ++ (". Supported: " : Text) ++ Operator.listing)

/-- An operation has no arguments. -/
def emptyArguments (op : Operator) : Rejection :=
  ofKind .emptyArguments
    (("\"" : Text) ++ Text.ofString op.name ++ ("\" requires at least one argument." : Text))

/-- The arguments of an operation are not a list. -/
def argumentsNotASequence (op : Operator) : Rejection :=
  ofKind .argumentsNotASequence
    (("\"" : Text) ++ Text.ofString op.name ++
      ("\" requires \"args\" to be a list of arguments." : Text))

/-- Operations stand inside one another more than `limit` times. -/
def depthLimitExceeded (limit : Text) : Rejection :=
  ofKind .depthLimitExceeded
    (("Expression is nested deeper than " : Text) ++ limit ++ (" levels." : Text))

end Rejection

end Abacus
