import Abacus.Json.Value
import Abacus.Number.Notation

/-!
# Writing JSON

The compact form of a value: no blanks, members in their order. Strings escape the quote, the
backslash and control characters; a style may escape all that is not printable ASCII besides.

* `Style`, `compact`, `ascii`: what is escaped.
* `Value.write`: the text of a value.
-/

namespace Abacus.Json

/-- The choices of a way to write JSON. -/
structure Style where
  /-- Whether code points outside printable ASCII are escaped. -/
  asciiOnly : Bool

/-- Text outside ASCII is written as it is. -/
def compact : Style := ⟨false⟩

/-- Only printable ASCII is written. -/
def ascii : Style := ⟨true⟩

namespace Style

/-- The escape of a sixteen-bit unit. -/
def unit (n : Nat) : Text := ("\\u" : Text) ++ Text.ofHex 4 n

/-- The escape of a code point by its number, a surrogate pair above U+FFFF. -/
def numbered (c : CodePoint) : Text :=
  if c.val < 0x10000 then unit c.val
  else unit (0xD800 + (c.val - 0x10000) / 0x400) ++ unit (0xDC00 + (c.val - 0x10000) % 0x400)

/-- The form of a code point inside a string. -/
def escape (s : Style) (c : CodePoint) : Text :=
  if c = '"' then "\\\""
  else if c = '\\' then "\\\\"
  else if c = '\n' then "\\n"
  else if c = '\r' then "\\r"
  else if c = '\t' then "\\t"
  else if c.val = 0x8 then "\\b"
  else if c.val = 0xC then "\\f"
  else if c.val < 0x20 then numbered c
  else if s.asciiOnly && 0x7E < c.val then numbered c
  else [c]

/-- A string between its quotes. -/
def quote (s : Style) (t : Text) : Text :=
  CodePoint.ofChar '"' :: t.flatMap s.escape ++ [CodePoint.ofChar '"']

end Style

/-- The text of a double; infinities and NaN have words of their own. -/
def floatText (x : Float) : Text :=
  if x.isNaN then "NaN"
  else if x.isInf then (if x < 0 then "-Infinity" else "Infinity")
  else Number.text x

namespace Value

mutual

/-- The compact text of a value. -/
def write (s : Style) : Value → Text
  | .null => "null"
  | .bool b => if b then "true" else "false"
  | .int n => Text.ofInt n
  | .float x => floatText x
  | .text t => s.quote t
  | .array items => ("[" : Text) ++ writeItems s items ++ ("]" : Text)
  | .object members => ("\x7b" : Text) ++ writeMembers s members ++ ("\x7d" : Text)

/-- The items of an array with commas between them. -/
def writeItems (s : Style) : List Value → Text
  | [] => []
  | [v] => write s v
  | v :: rest => write s v ++ ("," : Text) ++ writeItems s rest

/-- The members of an object with commas between them. -/
def writeMembers (s : Style) : List (Text × Value) → Text
  | [] => []
  | [(name, v)] => s.quote name ++ (":" : Text) ++ write s v
  | (name, v) :: rest =>
    s.quote name ++ (":" : Text) ++ write s v ++ ("," : Text) ++ writeMembers s rest

end

end Value

end Abacus.Json
