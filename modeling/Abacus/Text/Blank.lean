import Abacus.Text

/-!
# Blanks

Which code points count as blank. The Unicode blanks together with the four separators U+001C to
U+001F are trimmed from lines and from operands; a number may be surrounded by all of these but
the four separators; the blanks of JSON and of ASCII are smaller sets.

* `CodePoint.isBlank`, `Text.trim`: the largest set.
* `CodePoint.isPadding`: what may stand around a number.
* `CodePoint.isAsciiBlank`: the six blanks of ASCII.
-/

namespace Abacus

namespace CodePoint

/-- The ranges of the blank code points. -/
def blanks : List (Nat × Nat) :=
  [(0x9, 0xD), (0x1C, 0x20), (0x85, 0x85), (0xA0, 0xA0), (0x1680, 0x1680), (0x2000, 0x200A),
    (0x2028, 0x2029), (0x202F, 0x202F), (0x205F, 0x205F), (0x3000, 0x3000)]

/-- A Unicode blank or one of the four separators U+001C to U+001F. -/
def isBlank (c : CodePoint) : Bool := blanks.any fun r => r.1 ≤ c.val && c.val ≤ r.2

/-- A blank that may stand around a number. -/
def isPadding (c : CodePoint) : Bool := c.isBlank && !(0x1C ≤ c.val && c.val ≤ 0x1F)

/-- Tab, line feed, vertical tab, form feed, carriage return or space. -/
def isAsciiBlank (c : CodePoint) : Bool := c.val = 0x20 || (0x9 ≤ c.val && c.val ≤ 0xD)

end CodePoint

namespace Text

/-- The text without the blanks at its ends. -/
def trim (t : Text) : Text := t.trimWith CodePoint.isBlank

/-- The text without the blanks at its ends that may stand around a number. -/
def trimPadding (t : Text) : Text := t.trimWith CodePoint.isPadding

end Text

end Abacus
