import Abacus.Text.Quoted
import Abacus.Number.Notation

/-!
# Operators

The six operators, their names and the step by which each folds one more operand into an
accumulator. The steps follow IEEE arithmetic; a quotient by zero, and with it a root of degree
zero, has no value.

* `Operator`, `Operator.all`, `Operator.ofName?`: the operators in the order they are listed.
* `Arithmetic.checkedBy`, `Arithmetic.powerBy`: a power, which is refused where finite operands
  give none, and what stands in its place then; `Arithmetic.power`: the one of the machine.
* `Arithmetic.squareRoot`, `Arithmetic.quotient?`, `Arithmetic.nthRoot?`: the other functions.
* `Operator.step?`: the step.
-/

namespace Abacus

/-- An operator folded over the operands of an operation. -/
inductive Operator
  | add
  | subtract
  | multiply
  | divide
  | power
  | root
  deriving DecidableEq, Repr

namespace Operator

/-- The operators in the order they are listed. -/
def all : List Operator := [add, subtract, multiply, divide, power, root]

/-- The name of an operator. -/
def name : Operator → String
  | add => "add"
  | subtract => "subtract"
  | multiply => "multiply"
  | divide => "divide"
  | power => "power"
  | root => "root"

/-- The operator with a given name. -/
def ofName? (t : Text) : Option Operator := all.find? fun op => Text.ofString op.name = t

/-- The names of all operators as a message lists them. -/
def listing : Text := Text.joinWith ", " (all.map fun op => Text.ofString op.name)

/-- How a message shows an operator that stands where data is expected. -/
def display (op : Operator) : Text :=
  let name := Text.ofString op.name
  ("<OperatorKind." : Text) ++ name.map CodePoint.asciiUpper ++ (": " : Text) ++
    Quoted.quote name ++ (">" : Text)

end Operator

namespace Arithmetic

/-- Why a power of finite doubles is refused. -/
inductive PowerFault
  /-- It is beyond the range of the doubles. -/
  | range
  /-- It is not defined: a zero to a negative exponent, a negative base to a fractional one. -/
  | domain
  deriving DecidableEq, Repr

/-- The power of two doubles by a power of IEEE arithmetic, refused where finite operands give none
that is finite. -/
def checkedBy (pow : Float → Float → Float) (base exponent : Float) : Except PowerFault Float :=
  let r := pow base exponent
  if !(base.isFinite && exponent.isFinite) || r.isFinite then .ok r
  else if r.isNaN || base == 0 then .error .domain
  else .error .range

/--
The power of two doubles by a power of IEEE arithmetic. Where it is refused the base and the
exponent tell what stands in its place: an infinity with the sign of the power beyond the range,
positive infinity for a zero base, whatever the sign of the zero, and NaN for any other.
-/
def powerBy (pow : Float → Float → Float) (base exponent : Float) : Float :=
  match checkedBy pow base exponent with
  | .ok r => r
  | .error .range =>
    if base < 0 && Number.isOdd exponent then Number.negativeInfinity else Number.infinity
  | .error .domain => if base == 0 then Number.infinity else Number.nan

/-- The power of two doubles by that of the machine. -/
def power : Float → Float → Float := powerBy Float.pow

/-- The square root, which is NaN for a negative number. -/
def squareRoot (x : Float) : Float := if x ≥ 0 then x.sqrt else Number.nan

/-- The quotient, unless the divisor is a zero. -/
def quotient? (x y : Float) : Option Float := if y == 0 then none else some (x / y)

/-- The root of a given degree: the power with the reciprocal of the degree. -/
def nthRoot? (x degree : Float) : Option Float := (quotient? 1 degree).map (power x)

end Arithmetic

namespace Operator

/-- The accumulator after one more operand. -/
def step? (op : Operator) (acc x : Float) : Option Float :=
  match op with
  | add => some (acc + x)
  | subtract => some (acc - x)
  | multiply => some (acc * x)
  | divide => Arithmetic.quotient? acc x
  | power => some (Arithmetic.power acc x)
  | root => Arithmetic.nthRoot? acc x

end Operator

end Abacus
