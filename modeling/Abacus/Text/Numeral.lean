import Abacus.Text

/-!
# Numerals

Natural numbers and integers in decimal and hexadecimal digits, and the way back from digits.

* `Text.ofNat`, `Text.ofInt`: decimal digits, a minus sign for negative numbers.
* `Text.ofHex`: hexadecimal digits with a least width.
* `Text.digitsValue`: the number that a list of decimal digits writes.
-/

namespace Abacus

namespace CodePoint

/-- The digit of `n` below sixteen, with small letters from ten on. -/
def ofDigit (n : Nat) : CodePoint := if n < 10 then ofNat (0x30 + n) else ofNat (0x57 + n)

/-- The digit of `n` below sixteen, with capitals from ten on. -/
def ofCapitalDigit (n : Nat) : CodePoint := if n < 10 then ofNat (0x30 + n) else ofNat (0x37 + n)

end CodePoint

namespace Text

/-- The decimal digits of a natural number. -/
def ofNat (n : Nat) : Text := ofString (toString n)

/-- The decimal digits of an integer, after a minus sign if it is negative. -/
def ofInt : Int → Text
  | .ofNat n => ofNat n
  | .negSucc n => (CodePoint.ofChar '-') :: ofNat (n + 1)

/-- The last `width` hexadecimal digits of `n`. -/
def ofHex (width n : Nat) : Text :=
  (List.range width).reverse.map fun i => CodePoint.ofDigit (n / Nat.pow 16 i % 16)

/-- The number that decimal digits write, the most significant digit first. -/
def digitsValue (digits : Text) : Nat :=
  digits.foldl (fun n c => n * 10 + c.digitValue) 0

/-- The digits at the front of a text, and what follows them. -/
def spanDigits (t : Text) : Text × Text := (t.takeWhile (·.isDigit), t.dropWhile (·.isDigit))

end Text

end Abacus
