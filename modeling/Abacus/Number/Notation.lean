import Abacus.Number.Shortest
import Abacus.Text.Numeral

/-!
# Decimal notation of doubles

How a double is written and how a written number is taken apart.

* `Notation`: the choices of a way to write doubles; `Number.plain` is the one used everywhere.
* `Number.write`: the text of a double in a notation.
* `Numeral`, `Numeral.scan`: sign, digits, point and exponent of a number at the front of a text.
-/

namespace Abacus.Number

/-- The choices that fix the text of a double once its shortest digits are known. -/
structure Notation where
  /-- The least exponent of the first digit that is written without an exponent part. -/
  least : Int
  /-- The first exponent that is written with an exponent part. -/
  bound : Int
  /-- The least number of digits of an exponent part. -/
  exponentWidth : Nat
  deriving Repr

/-- Positional from `1e-04` up to below `1e+16`, always with a point; else two exponent digits. -/
def plain : Notation := ⟨-4, 16, 2⟩

namespace Notation

/-- The exponent part: a sign always, and zeros up to the least width. -/
def exponentText (f : Notation) (e : Int) : Text :=
  let digits := Text.ofNat e.natAbs
  let sign : Text := if e < 0 then "e-" else "e+"
  sign ++ List.replicate (f.exponentWidth - digits.length) (CodePoint.ofChar '0') ++ digits

/-- The text of a positive decimal. -/
def decimalText (f : Notation) (d : Decimal) : Text :=
  let digits := Text.ofNat d.digits
  let first : Int := d.exponent + digits.length - 1
  let zero := CodePoint.ofChar '0'
  if f.least ≤ first && first < f.bound then
    if first < 0 then ("0." : Text) ++ List.replicate (-first - 1).toNat zero ++ digits
    else
      let whole := digits.take (first.toNat + 1)
      let rest := digits.drop (first.toNat + 1)
      whole ++ List.replicate (first.toNat + 1 - whole.length) zero ++ ("." : Text) ++
        (if rest.isEmpty then ("0" : Text) else rest)
  else
    digits.take 1 ++ (if digits.length ≤ 1 then [] else ("." : Text) ++ digits.drop 1) ++
      f.exponentText first

end Notation

/-- The text of a double: its shortest digits, the sign also of zero, and words for the rest. -/
def write (f : Notation) (x : Float) : Text :=
  let bits := magnitude x
  if Nearest.infinity < bits then "nan"
  else
    let sign : Text := if isNegative x then "-" else ""
    if bits = Nearest.infinity then sign ++ ("inf" : Text)
    else if bits = 0 then sign ++ ("0.0" : Text)
    else sign ++ f.decimalText (shortest bits)

/-- The text of a double in the notation used everywhere. -/
def text (x : Float) : Text := write plain x

/-- A number as written: sign, digits before and after the point, and the exponent part. -/
structure Numeral where
  /-- The sign code point, if there is one. -/
  sign : Option CodePoint
  whole : Text
  /-- The digits after the point, if there is a point. -/
  fraction : Option Text
  /-- Sign and digits of the exponent part, if there is one. -/
  exponent : Option (Option CodePoint × Text)

namespace Numeral

/-- A sign at the front of a text, and what follows. -/
def scanSign : Text → Option CodePoint × Text
  | [] => (none, [])
  | c :: rest => if c = '+' || c = '-' then (some c, rest) else (none, c :: rest)

/-- An exponent part at the front of a text: a letter e, perhaps a sign, and digits. -/
def scanExponent (t : Text) : Option (Option CodePoint × Text) × Text :=
  match t with
  | [] => (none, [])
  | c :: rest =>
    if c = 'e' || c = 'E' then
      let (sign, tail) := scanSign rest
      let (digits, tail) := Text.spanDigits tail
      if digits.isEmpty then (none, t) else (some (sign, digits), tail)
    else (none, t)

/-- A point and the digits after it at the front of a text. -/
def scanFraction (t : Text) : Option Text × Text :=
  match t with
  | [] => (none, [])
  | c :: rest =>
    if c = '.' then
      let (digits, tail) := Text.spanDigits rest
      (some digits, tail)
    else (none, t)

/-- The number at the front of a text, with at least one digit about the point, and the rest. -/
def scan (t : Text) : Option (Numeral × Text) :=
  let (sign, t) := scanSign t
  let (whole, t) := Text.spanDigits t
  let (fraction, t) := scanFraction t
  if whole.isEmpty && (fraction.getD []).isEmpty then none
  else
    let (exponent, t) := scanExponent t
    some (⟨sign, whole, fraction, exponent⟩, t)

/-- The power of ten that the exponent part asks for. -/
def power (n : Numeral) : Int :=
  match n.exponent with
  | none => 0
  | some (sign, digits) =>
    if sign = some (CodePoint.ofChar '-') then -(Text.digitsValue digits : Int)
    else Text.digitsValue digits

/-- The double nearest to the number. -/
def value (n : Numeral) : Float :=
  let fraction := n.fraction.getD []
  ofScaled (n.sign = some (CodePoint.ofChar '-')) (Text.digitsValue (n.whole ++ fraction))
    (n.power - fraction.length)

end Numeral

end Abacus.Number
