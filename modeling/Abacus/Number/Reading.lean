import Abacus.Number.Notation
import Abacus.Text.Blank

/-!
# Reading doubles

A double is written as a number or as a word for infinity or NaN, in any case, after a sign.

* `Number.isNumeral`: whether a text is a number and nothing else.
* `Number.ofText?`: the double that a text writes.
-/

namespace Abacus.Number

/-- Whether a text is a number in decimal or exponent notation and nothing else. -/
def isNumeral (t : Text) : Bool :=
  match Numeral.scan t with
  | some (_, []) => true
  | _ => false

/-- The double that a word after a sign stands for. -/
def ofWord? (t : Text) : Option Float :=
  let (sign, word) := Numeral.scanSign t
  let negative := sign = some (CodePoint.ofChar '-')
  let word := word.asciiLower
  if word = "inf" || word = "infinity" then some (ofParts negative Nearest.infinity)
  else if word = "nan" then some nan
  else none

/-- The double that a text writes. -/
def ofText? (t : Text) : Option Float :=
  match Numeral.scan t with
  | some (n, []) => some n.value
  | _ => ofWord? t

end Abacus.Number
