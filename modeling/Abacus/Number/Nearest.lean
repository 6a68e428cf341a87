/-!
# The nearest double

A finite double that is not negative has its bits as a natural number below `Nearest.infinity`,
and the order of the bits is the order of the values: the double with bits `b` is a multiple of a
power of two, the *unit* of its binade, and the next double is one unit further.

* `Nearest.ofRatio`: the bits of the double nearest to a fraction, a tie going to even bits.
* `Nearest.value`: the fraction that given bits stand for.
* `Number.ofParts`, `Number.magnitude`: a double from its sign and bits, and the bits without sign.
* `Number.isOdd`: whether a double is an odd integer.
* `Number.ofScaled`: the double nearest to a decimal `digits · 10 ^ exponent`.
* `Number.ofInt?`: the double nearest to an integer, unless it is out of range.
-/

namespace Abacus.Number

namespace Nearest

/-- The quotient of two natural numbers rounded to the nearest one, a half to the even one. -/
def divide (num den : Nat) : Nat :=
  let q := num / den
  let r := num % den
  if 2 * r < den then q
  else if 2 * r = den then q + q % 2
  else q + 1

/-- The bits of positive infinity, the first pattern that is not finite. -/
def infinity : Nat := 0x7FF * Nat.pow 2 52

/-- The exponent of the power of two at or below `num / den`, for positive `num` and `den`. -/
def binade (num den : Nat) : Int :=
  let k : Int := (num.log2 : Int) - (den.log2 : Int)
  if (den * Nat.pow 2 k.toNat ≤ num * Nat.pow 2 (-k).toNat) then k else k - 1

/-- The exponent of the unit in the last place at `num / den`, which never falls below -1074. -/
def unit (num den : Nat) : Int := max (binade num den - 52) (-1074)

/--
The bits of the double nearest to `num / den`. Counting units from the start of the binade and
adding `2 ^ 52` for every binade passed gives the bits at once, also when rounding reaches the
next binade; from the largest binade on the result is infinity.
-/
def ofRatio (num den : Nat) : Nat :=
  if num = 0 then 0
  else
    let u := unit num den
    let q := divide (num * Nat.pow 2 (-u).toNat) (den * Nat.pow 2 u.toNat)
    min ((u + 1074).toNat * Nat.pow 2 52 + q) infinity

/-- The fraction that finite bits stand for: bits below `2 ^ 53` count units of `2 ^ (-1074)`. -/
def value (bits : Nat) : Nat × Nat :=
  let e := bits / Nat.pow 2 52
  let m := if e = 0 then bits % Nat.pow 2 52 else Nat.pow 2 52 + bits % Nat.pow 2 52
  let u : Int := (max e 1 : Nat) - 1075
  (m * Nat.pow 2 u.toNat, Nat.pow 2 (-u).toNat)

end Nearest

/-- The double with a given sign and the bits `magnitude` below the sign bit. -/
def ofParts (negative : Bool) (magnitude : Nat) : Float :=
  Float.ofBits (UInt64.ofNat (if negative then Nat.pow 2 63 + magnitude else magnitude))

/-- The bits of a double below its sign bit. -/
def magnitude (x : Float) : Nat := x.toBits.toNat % Nat.pow 2 63

/-- Whether the sign bit of a double is set. -/
def isNegative (x : Float) : Bool := Nat.pow 2 63 ≤ x.toBits.toNat

/-- Whether a double is an odd integer. -/
def isOdd (x : Float) : Bool :=
  let (num, den) := Nearest.value (magnitude x)
  num % den = 0 && num / den % 2 = 1

/-- How many decimal digits a number has; none for zero. -/
def digitCount (n : Nat) : Nat := if n = 0 then 0 else (Nat.toDigits 10 n).length

/--
The double nearest to `± mantissa · 10 ^ exponent`. Outside the decimal range of the doubles the
answer is infinity or zero without computing the power.
-/
def ofScaled (negative : Bool) (mantissa : Nat) (exponent : Int) : Float :=
  let size : Int := digitCount mantissa + exponent
  let bits :=
    if mantissa = 0 || size < -323 then 0
    else if 310 < size then Nearest.infinity
    else Nearest.ofRatio (mantissa * Nat.pow 10 exponent.toNat) (Nat.pow 10 (-exponent).toNat)
  ofParts negative bits

/-- The double nearest to an integer; none if that is infinite. -/
def ofInt? (n : Int) : Option Float :=
  let bits := Nearest.ofRatio n.natAbs 1
  if bits < Nearest.infinity then some (ofParts (n < 0) bits) else none

/-- Positive infinity. -/
def infinity : Float := ofParts false Nearest.infinity

/-- Negative infinity. -/
def negativeInfinity : Float := ofParts true Nearest.infinity

/-- The default NaN. -/
def nan : Float := ofParts false (Nearest.infinity + Nat.pow 2 51)

end Abacus.Number
