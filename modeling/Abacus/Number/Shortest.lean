import Abacus.Number.Nearest

/-!
# The shortest decimal of a double

Of the decimals that round to a given positive double, `shortest` takes one with the fewest
digits, and of these the one nearest to the double, a tie going to an even last digit.

For each digit count the decimal grid has two points around the value, and only these two can be
the nearest that rounds back. Each is tried by rounding it. Seventeen digits always suffice; the
fallback, the exact decimal expansion, keeps the result right without that fact.

-/

namespace Abacus.Number

/-- The decimal `digits · 10 ^ exponent`. -/
structure Decimal where
  digits : Nat
  exponent : Int
  deriving DecidableEq, Repr

namespace Decimal

/-- The decimal as a fraction. -/
def ratio (d : Decimal) : Nat × Nat :=
  (d.digits * Nat.pow 10 d.exponent.toNat, Nat.pow 10 (-d.exponent).toNat)

/-- The bits of the double nearest to the decimal. -/
def nearest (d : Decimal) : Nat := Nearest.ofRatio d.ratio.1 d.ratio.2

/-- The same decimal without the zeros at its end, by at most `fuel` steps. -/
def trimZeros : Nat → Decimal → Decimal
  | 0, d => d
  | fuel + 1, d =>
    if d.digits ≠ 0 && d.digits % 10 = 0 then trimZeros fuel ⟨d.digits / 10, d.exponent + 1⟩ else d

end Decimal

namespace Shortest

/-- The number `k` with `10 ^ (k - 1) ≤ num / den < 10 ^ k`, for positive `num` and `den`. -/
def pointPosition (num den : Nat) : Int :=
  if den ≤ num then digitCount (num / den)
  else 1 - (digitCount ((den - 1) / num) : Int)

/-- The fraction `num / den` in units of `10 ^ exponent`. -/
def inUnits (num den : Nat) (exponent : Int) : Nat × Nat :=
  (num * Nat.pow 10 (-exponent).toNat, den * Nat.pow 10 exponent.toNat)

/-- The nearer of the two grid points around `num / den` among those that round to `bits`. -/
def candidate? (bits num den : Nat) (exponent : Int) : Option Decimal :=
  let (n, d) := inUnits num den exponent
  let low : Decimal := ⟨n / d, exponent⟩
  let high : Decimal := ⟨n / d + 1, exponent⟩
  let r := n % d
  let lowFirst := 2 * r < d || (2 * r = d && n / d % 2 = 0)
  if low.nearest = bits && (lowFirst || high.nearest ≠ bits) then some low
  else if high.nearest = bits then some high
  else none

/-- The exact decimal expansion of the value of `bits`. -/
def exact (bits : Nat) : Decimal :=
  let (num, den) := Nearest.value bits
  ⟨num * Nat.pow 5 den.log2, -(den.log2 : Int)⟩

/-- The first candidate with `count` or more digits, `left` counts being tried. -/
def search (bits num den : Nat) (position : Int) : (left count : Nat) → Decimal
  | 0, _ => exact bits
  | left + 1, count =>
    match candidate? bits num den (position - count) with
    | some d => d
    | none => search bits num den position left (count + 1)

end Shortest

open Shortest in
/-- The shortest decimal that rounds to the double with the positive finite `bits`. -/
def shortest (bits : Nat) : Decimal :=
  let (num, den) := Nearest.value bits
  (search bits num den (pointPosition num den) 17 1).trimZeros 400

end Abacus.Number
