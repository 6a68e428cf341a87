import Abacus.Text.Digit

/-!
# Negative numbers on the command line

A word with a dash in front may be a negative number and then is no flag.

* `CommandLine.isNegativeNumber`: the words that look like a negative number.
-/

namespace Abacus.CommandLine

/-- Whether a text consists of digits. -/
def isDigits (t : Text) : Bool := t.all fun c => c.decimal?.isSome

/-- Whether a word looks like a negative number: a minus sign and digits, perhaps with a point. A
line feed at the end does not count. -/
def isNegativeNumber (t : Text) : Bool :=
  match t with
  | [] => false
  | c :: rest =>
    let rest := if Text.endsWith rest "\n" then rest.dropLast else rest
    c = '-' &&
      match Text.cutAt '.' rest with
      | (whole, none) => !whole.isEmpty && isDigits whole
      | (whole, some fraction) => isDigits whole && !fraction.isEmpty && isDigits fraction

end Abacus.CommandLine
