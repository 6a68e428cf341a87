import Abacus.Text.Blank
import Abacus.Text.Digit

/-!
# Integers in words

An integer may have blanks about it, a sign, decimal digits of any script, and single underscores
between them.

* `Text.natural?`: the number that digits write.
* `Text.integer?`: the integer that a text writes.
-/

namespace Abacus.Text

/-- The most digits that an integer may have. -/
def digitLimit : Nat := 4300

/-- The number that digits write, with underscores that stand alone between them. -/
def natural? (t : Text) : Option Nat := do
  let groups := t.splitOn '_'
  if groups.any List.isEmpty then none
  let digits ← groups.flatten.mapM CodePoint.decimal?
  if digitLimit < digits.length then none
  return digits.foldl (fun n d => n * 10 + d) 0

/-- The integer that a text writes. -/
def integer? (t : Text) : Option Int :=
  match t.trimPadding with
  | [] => none
  | c :: rest =>
    if c = '-' then (natural? rest).map fun n => -(n : Int)
    else if c = '+' then (natural? rest).map fun n => (n : Int)
    else (natural? (c :: rest)).map fun n => (n : Int)

end Abacus.Text
