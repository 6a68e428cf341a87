import Abacus.Text.Numeral
import Abacus.Text.Printable

/-!
# Quoted texts

How a message shows a text: between quotes, on one line, with an escape for everything that is not
printable. The quotes are single unless the text has a single quote and no double one.

* `Quoted.quote`: the quoted form.
-/

namespace Abacus.Quoted

/-- The quote that encloses a text. -/
def delimiter (t : Text) : CodePoint :=
  if t.contains '\'' && !t.contains '"' then '"' else '\''

/-- The form of one code point between quotes `q`. -/
def escape (q c : CodePoint) : Text :=
  if c = q || c = '\\' then [CodePoint.ofChar '\\', c]
  else if c = '\n' then "\\n"
  else if c = '\r' then "\\r"
  else if c = '\t' then "\\t"
  else if c.isPrintable then [c]
  else if c.val < 0x100 then ("\\x" : Text) ++ Text.ofHex 2 c.val
  else if c.val < 0x10000 then ("\\u" : Text) ++ Text.ofHex 4 c.val
  else ("\\U" : Text) ++ Text.ofHex 8 c.val

/-- The quoted form of a text. -/
def quote (t : Text) : Text :=
  let q := delimiter t
  q :: t.flatMap (escape q) ++ [q]

end Abacus.Quoted
