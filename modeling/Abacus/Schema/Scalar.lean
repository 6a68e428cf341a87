import Abacus.Schema.Checked
import Abacus.Number.Reading

/-!
# Numbers and texts in data

A number may be given as a number, as a truth value, or as a text. A text for a number may have
blanks about it and single underscores between its digits. An integer may be given with a
fraction of zeros.

* `Schema.double`, `Schema.finite`: floating-point numbers.
* `Schema.integer`, `Schema.atLeast`, `Schema.between`: integers and their bounds.
* `Schema.text`: texts.
-/

namespace Abacus.Schema

/-! ## Texts -/

/-- A text. -/
def text : Json.Value → Checked Text
  | .text t => .valid t
  | _ => .issue .textType

/-- Whether no underscore stands at an end or beside another. -/
def underscoresStandAlone (t : Text) : Bool := (t.splitOn '_').all fun piece => !piece.isEmpty

/-- The text without its underscores, if they are all single and inside. -/
def dropUnderscores? (t : Text) : Option Text :=
  if t.contains '_' && underscoresStandAlone t then some (Text.replace '_' [] t) else none

/-! ## Floating-point numbers -/

/-- The double that a text writes; underscores are dropped where there are no blanks. -/
def doubleOfText (t : Text) : Checked Float :=
  if t.any CodePoint.isSurrogate then .issue .textUnicode
  else
    match Number.ofText? t.trimPadding with
    | some x => .valid x
    | none =>
      match (dropUnderscores? t).bind Number.ofText? with
      | some x => .valid x
      | none => .issue .floatParsing

/-- A floating-point number. -/
def double : Json.Value → Checked Float
  | .float x => .valid x
  | .int n =>
    match Number.ofInt? n with
    | some x => .valid x
    | none => .issue .floatType
  | .bool b => .valid (if b then 1 else 0)
  | .text t => doubleOfText t
  | _ => .issue .floatType

/-- A finite floating-point number. -/
def finite (v : Json.Value) : Checked Float :=
  (double v).andThen fun x => if x.isFinite then .valid x else .issue .finiteNumber

/-- A floating-point number above zero. -/
def aboveZero (v : Json.Value) : Checked Float :=
  (double v).andThen fun x => if 0 < x then .valid x else .issue (.greaterThan 0)

/-! ## Integers -/

/-- The most places that a text for an integer may have, its minus sign included. -/
def placeLimit : Nat := 4300

/-- How a text can fail to be an integer. -/
inductive IntegerFault
  | malformed
  | tooLong

/-- The integer of a text in its plain form: a minus sign perhaps, and digits without a zero in
front. The digits are counted before what follows them is looked at. -/
def plainInteger (t : Text) : Except IntegerFault Int :=
  let negative := t.startsWith "-"
  let places := if negative then t.tail else t
  let digits := places.takeWhile CodePoint.isDigit
  if digits.isEmpty || (Text.startsWith digits "0" && 1 < places.length) then .error .malformed
  else if placeLimit < digits.length + (if negative then 1 else 0) then .error .tooLong
  else if digits.length < places.length then .error .malformed
  else .ok (if negative then -(Text.digitsValue digits : Int) else Text.digitsValue digits)

/-- The rest of a number after leading zeros and the underscores among them; `last` is the code
point before. A minus sign may follow them like a digit. -/
def skipZeros (last : CodePoint) : Text → Option Text
  | [] => some [last]
  | c :: rest =>
    if c = '0' || c = '_' then skipZeros c rest
    else if c.isDigit || c = '-' then some (c :: rest)
    else if c = '.' then some (last :: c :: rest)
    else none

/-- The number without leading zeros; one zero stays if nothing else does. -/
def dropLeadingZeros? : Text → Option Text
  | [] => none
  | c :: rest =>
    if c = '0' then skipZeros c rest
    else if c.isDigit || c = '-' then some (c :: rest)
    else none

/-- The number without a fraction of zeros; a point alone makes no fraction. -/
def dropZeroFraction (t : Text) : Text :=
  match Text.cutAt '.' t with
  | (whole, some fraction) =>
    if !fraction.isEmpty && fraction.all fun c => c = '0' then whole else t
  | (_, none) => t

/-- The plain form of an integer that is given with blanks, a plus sign, leading zeros, a fraction
of zeros or underscores. -/
def plainForm? (t : Text) : Option Text := do
  let t := t.trimPadding
  let t ←
    if Text.startsWith t "+-" then none
    else some (if Text.startsWith t "+" then t.tail else t)
  let t ←
    if Text.startsWith t "-" then (dropLeadingZeros? t.tail).map (CodePoint.ofChar '-' :: ·)
    else dropLeadingZeros? t
  let t := dropZeroFraction t
  return (dropUnderscores? t).getD t

/-- The integer of a text that is not in its plain form but may have one. -/
def indirectInteger (t : Text) : Checked Int :=
  match (plainForm? t).map plainInteger with
  | some (.ok n) => .valid n
  | _ => .issue .integerParsing

/-- The integer that a text writes. -/
def integerOfText (t : Text) : Checked Int :=
  if t.any CodePoint.isSurrogate then .issue .textUnicode
  else
    match plainInteger t with
    | .ok n => .valid n
    | .error .tooLong => .issue .integerSize
    | .error .malformed => indirectInteger t

/-- The integer that a double is. -/
def integerOfDouble (x : Float) : Checked Int :=
  if !x.isFinite then .issue .finiteNumber
  else
    let (num, den) := Number.Nearest.value (Number.magnitude x)
    if num % den ≠ 0 then .issue .integerFromFloat
    else if Nat.pow 2 63 ≤ num / den then .issue .integerSize
    else .valid (if Number.isNegative x then -(num / den : Nat) else (num / den : Nat))

/-- An integer. -/
def integer : Json.Value → Checked Int
  | .int n => .valid n
  | .bool b => .valid (if b then 1 else 0)
  | .float x => integerOfDouble x
  | .text t => integerOfText t
  | _ => .issue .integerType

/-- An integer that is not below a bound. -/
def atLeast (low : Int) (n : Int) : Checked Nat :=
  if low ≤ n then .valid n.toNat else .issue (.greaterThanEqual low)

/-- An integer between two bounds. -/
def between (low high : Int) (n : Int) : Checked Nat :=
  if high < n then .issue (.lessThanEqual high) else atLeast low n

end Abacus.Schema
