import Abacus.Expression
import Abacus.Schema.Assignment
import Abacus.Schema.Scalar

/-!
# Expressions as data

An expression has a second written form besides the one that requests use: a literal is an object
with the member `value`, an operation one with the members `op` and `args`. The checks are lenient
about numbers and list all issues.

* `Expression.toData`: the written form.
* `Expression.deepest`: how many operations may stand inside one another. What stands further in is
  not read as an operation, whatever it is.
* `Expression.literalOfData`, `Expression.operationOfData`: reading the two kinds of objects.
* `Expression.nodeOfData`: reading either. An object that is both counts as an operation.
-/

namespace Abacus.Expression

/-! ## Writing -/

mutual

/-- The written form of an expression. -/
def toData : Expression → Json.Value
  | literal x => .object [("value", .float x)]
  | operation op first rest =>
    .object [("op", .text op.name), ("args", .array (toData first :: allToData rest))]

/-- The written forms of expressions. -/
def allToData : List Expression → List Json.Value
  | [] => []
  | e :: rest => toData e :: allToData rest

end

/-- The shape of a literal. -/
def literalShape : Schema.Shape := ⟨"Literal", ["value"], true⟩

/-- The shape of an operation. -/
def operationShape : Schema.Shape := ⟨"Operation", ["op", "args"], true⟩

/-! ## Reading -/

/-- The names of the operators as the wording of an issue lists them. -/
def operatorChoice : Text :=
  Text.joinWith ", " (Operator.all.dropLast.map fun op => quoted op) ++ (" or " : Text) ++
    quoted .root
where
  /-- A name between quotes. -/
  quoted (op : Operator) : Text := ("'" : Text) ++ Text.ofString op.name ++ ("'" : Text)

/-- An operator by its name. -/
def operatorOfData : Json.Value → Checked Operator
  | .text name =>
    match Operator.ofName? name with
    | some op => .valid op
    | none =>
      if name.any CodePoint.isSurrogate then .issue .textUnicode
      else .issue (.choice operatorChoice)
  | _ => .issue (.choice operatorChoice)

/-- The literal that the members of an object give. -/
def literalOfData (members : Json.Members) : Checked Expression :=
  literal <$> Schema.required members "value" Schema.finite

/-- The outcome for an object that is read both ways, or the issues of both. -/
def choose (asLiteral asOperation : Checked Expression) : Checked Expression :=
  match asOperation, asLiteral with
  | .valid e, _ => .valid e
  | _, .valid e => .valid e
  | .invalid second, .invalid first =>
    .invalid (((.invalid first : Checked Expression).within (.name "Literal")).issues ++
      ((.invalid second : Checked Expression).within (.name "Operation")).issues)

/-- The expressions among outcomes. -/
def accepted (outcomes : List (Checked Expression)) : List Expression :=
  outcomes.filterMap Checked.value?

/-- The issues of outcomes, each below its index. -/
def issuesFrom (index : Nat) : List (Checked Expression) → List Issue
  | [] => []
  | o :: rest => (o.within (.index index)).issues ++ issuesFrom (index + 1) rest

/-- At least one argument: a list without a valid one is too short besides. -/
def atLeastOne (outcomes : List (Checked Expression)) : Checked (Expression × List Expression) :=
  match issuesFrom 0 outcomes, accepted outcomes with
  | [], first :: rest => .valid (first, rest)
  | issues, [] => .invalid (issues ++ [⟨[], .tooShort⟩])
  | issues, _ => .invalid issues

/-- How many operations may stand inside one another. -/
def deepest : Nat := 255

/-- An operation that is read with room for operations, itself among them. -/
def inside (room : Nat) (read : Nat → Checked Expression) : Checked Expression :=
  match room with
  | 0 => .issue .recursion
  | room + 1 => read room

/-- The operation that the members of an object give, with what comes of its arguments. -/
def operationWith (members : Json.Members) (arguments : Checked (Expression × List Expression)) :
    Checked Expression :=
  (fun op args => operation op args.1 args.2)
    <$> Schema.required members "op" operatorOfData
    <*> arguments.within (.name "args")

mutual

/-- The expression that a value gives, as a literal or as an operation. -/
def nodeOfData (room : Nat) : Json.Value → Checked Expression
  | .object members =>
    choose (literalOfData members)
      (inside room fun room => operationWith members (memberArguments room members))
  | _ =>
    choose (.issue (.recordType "Literal")) (inside room fun _ => .issue (.recordType "Operation"))

/-- The arguments that the first member named for them gives. -/
def memberArguments (room : Nat) :
    List (Text × Json.Value) → Checked (Expression × List Expression)
  | [] => .issue .missing
  | (name, v) :: rest => if name = "args" then listArguments room v else memberArguments room rest

/-- The arguments that a value gives. -/
def listArguments (room : Nat) : Json.Value → Checked (Expression × List Expression)
  | .array values => atLeastOne (nodesOfData room values)
  | _ => .issue .tupleType

/-- The outcomes for the items of a list. -/
def nodesOfData (room : Nat) : List Json.Value → List (Checked Expression)
  | [] => []
  | v :: rest => nodeOfData room v :: nodesOfData room rest

end

/-- The operation that the members of an object give, with room for operations. -/
def operationIn (room : Nat) (members : Json.Members) : Checked Expression :=
  inside room fun room => operationWith members (memberArguments room members)

/-- The operation that the members of an object give. -/
def operationOfData (members : Json.Members) : Checked Expression := operationIn deepest members

end Abacus.Expression
