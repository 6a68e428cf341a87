import Abacus.Number.Reading
import Abacus.Text.Quoted

/-!
# Operands

The two operands of a direct question come as texts, each a number in decimal or exponent notation
with blanks about it. The check trims every blank, while the conversion accepts only the blanks
that may stand around a number: between the two lie the four separators U+001C to U+001F.

* `OperandError`: what can go wrong.
* `Operand.isWellFormed`: the check of one operand.
* `Operand.parse`: the two operands as finite doubles.
-/

namespace Abacus

/-- Why two texts are no operands. -/
inductive OperandError
  /-- One is missing, is not in number notation, or is out of range. -/
  | invalid
  /-- The text passed the check and cannot be converted. -/
  | unreadable (t : Text)
  deriving DecidableEq

namespace Operand

/-- Whether an operand is there and, trimmed, in number notation. -/
def isWellFormed (operand : Option Text) : Bool :=
  match operand with
  | some t => Number.isNumeral t.trim
  | none => false

/-- The double that an operand writes. -/
def convert (t : Text) : Except OperandError Float :=
  match Number.ofText? t.trimPadding with
  | some x => .ok x
  | none => .error (.unreadable t)

/-- The operands that two texts write: both are checked, then both converted, then both bounded. -/
def parse (v1 v2 : Option Text) : Except OperandError (Float × Float) := do
  if isWellFormed v1 && isWellFormed v2 then
    let x ← convert (v1.getD [])
    let y ← convert (v2.getD [])
    if x.isFinite && y.isFinite then return (x, y) else throw .invalid
  else throw .invalid

end Operand

end Abacus
