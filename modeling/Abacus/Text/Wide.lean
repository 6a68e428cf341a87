import Abacus.Text.Utf8

/-!
# Wide encodings

Texts in units of two or four bytes, in either byte order, lone surrogates passing.

* `Wide.units16?`, `Wide.units32?`: the numbers that groups of bytes stand for; none if a group is
  incomplete.
* `Wide.decode16?`, `Wide.decode32?`: the text of the units.
-/

namespace Abacus.Wide

/-- The order of the bytes in a unit. -/
inductive Order
  | big
  | little
  deriving DecidableEq, Repr

/-- The number that the bytes of a unit stand for. -/
def unitValue (order : Order) (unit : Bytes) : Nat :=
  let bytes := match order with
    | .big => unit
    | .little => unit.reverse
  bytes.foldl (fun n b => n * 256 + b.toNat) 0

/-- The units of two bytes. -/
def units16? (order : Order) : Bytes → Option (List Nat)
  | [] => some []
  | [_] => none
  | a :: b :: rest => (units16? order rest).map (unitValue order [a, b] :: ·)

/-- The units of four bytes. -/
def units32? (order : Order) : Bytes → Option (List Nat)
  | [] => some []
  | a :: b :: c :: d :: rest => (units32? order rest).map (unitValue order [a, b, c, d] :: ·)
  | _ => none

/-- The code points of two-byte units: a high surrogate joins a low one that follows it. -/
def joinPairs : List Nat → Text
  | [] => []
  | [a] => [CodePoint.ofNat a]
  | a :: b :: rest =>
    let high := CodePoint.ofNat a
    let low := CodePoint.ofNat b
    if high.isHighSurrogate && low.isLowSurrogate then
      CodePoint.ofSurrogatePair high low :: joinPairs rest
    else high :: joinPairs (b :: rest)

/-- The text of two-byte units. -/
def decode16? (order : Order) (bytes : Bytes) : Option Text := (units16? order bytes).map joinPairs

/-- The text of four-byte units, each of which must be a code point. -/
def decode32? (order : Order) (bytes : Bytes) : Option Text := do
  let units ← units32? order bytes
  if units.all (· < 0x110000) then some (units.map CodePoint.ofNat) else none

end Abacus.Wide
