/-!
# Text

A text is a list of Unicode code points. Surrogates count as code points here: an escape in a
JSON string can name a lone one, and such a string is compared, shown and counted like any other.

* `Text.ofString`: the text of a string, also as a coercion.
* `Text.splitOn`, `Text.replace`, `Text.joinWith`: cutting at one code point and putting together.
* `Text.startsWith`, `Text.endsWith`, `Text.trimWith`: the two ends of a text.
-/

namespace Abacus

/-- A Unicode code point, surrogates included. -/
abbrev CodePoint := Fin 0x110000

/-- A list of code points. -/
abbrev Text := List CodePoint

namespace CodePoint

/-- The code point of a character. -/
def ofChar (c : Char) : CodePoint :=
  ⟨c.toNat, by
    have h := c.valid
    simp only [UInt32.isValidChar, Nat.isValidChar] at h
    simp only [Char.toNat]
    omega⟩

instance : Coe Char CodePoint := ⟨ofChar⟩

/-- The code point of a number, reduced into the range. -/
def ofNat (n : Nat) : CodePoint := Fin.ofNat 0x110000 n

/-- A code point from U+D800 to U+DFFF, which stands for no character. -/
def isSurrogate (c : CodePoint) : Bool := 0xD800 ≤ c.val && c.val < 0xE000

/-- The first half of a surrogate pair. -/
def isHighSurrogate (c : CodePoint) : Bool := 0xD800 ≤ c.val && c.val < 0xDC00

/-- The second half of a surrogate pair. -/
def isLowSurrogate (c : CodePoint) : Bool := 0xDC00 ≤ c.val && c.val < 0xE000

/-- The code point above U+FFFF that a surrogate pair stands for. -/
def ofSurrogatePair (high low : CodePoint) : CodePoint :=
  ofNat (0x10000 + (high.val - 0xD800) * 0x400 + (low.val - 0xDC00))

/-- The decimal digits of ASCII. -/
def isDigit (c : CodePoint) : Bool := 0x30 ≤ c.val && c.val ≤ 0x39

/-- The value of a decimal digit of ASCII. -/
def digitValue (c : CodePoint) : Nat := c.val - 0x30

/-- The value of a hexadecimal digit of either case. -/
def hexValue? (c : CodePoint) : Option Nat :=
  if c.isDigit then some (c.val - 0x30)
  else if 0x41 ≤ c.val && c.val ≤ 0x46 then some (c.val - 0x37)
  else if 0x61 ≤ c.val && c.val ≤ 0x66 then some (c.val - 0x57)
  else none

/-- The small letters of ASCII become capitals. -/
def asciiUpper (c : CodePoint) : CodePoint :=
  if 0x61 ≤ c.val && c.val ≤ 0x7A then ofNat (c.val - 0x20) else c

/-- The capitals of ASCII become small letters. -/
def asciiLower (c : CodePoint) : CodePoint :=
  if 0x41 ≤ c.val && c.val ≤ 0x5A then ofNat (c.val + 0x20) else c

end CodePoint

namespace Text

/-- The code points of a string. -/
def ofString (s : String) : Text := s.toList.map CodePoint.ofChar

instance : Coe String Text := ⟨ofString⟩

/-- Whether `p` is the beginning of the text. -/
def startsWith (t p : Text) : Bool := p.isPrefixOf t

/-- Whether `p` is the end of the text. -/
def endsWith (t p : Text) : Bool := p.isSuffixOf t

/-- Drops the code points with property `p` at both ends. -/
def trimWith (p : CodePoint → Bool) (t : Text) : Text :=
  ((t.dropWhile p).reverse.dropWhile p).reverse

/-- Drops the code points with property `p` at the end. -/
def trimEndWith (p : CodePoint → Bool) (t : Text) : Text :=
  (t.reverse.dropWhile p).reverse

/-- The pieces between the occurrences of `c`: one more than there are occurrences. -/
def splitOn (c : CodePoint) : Text → List Text
  | [] => [[]]
  | x :: rest =>
    if x = c then [] :: splitOn c rest
    else
      match splitOn c rest with
      | [] => [[x]]
      | piece :: pieces => (x :: piece) :: pieces

/-- The text before the first `c` and, if there is one, the text after it. -/
def cutAt (c : CodePoint) : Text → Text × Option Text
  | [] => ([], none)
  | x :: rest =>
    if x = c then ([], some rest)
    else (x :: (cutAt c rest).1, (cutAt c rest).2)

/-- The texts one after another with `sep` between them. -/
def joinWith (sep : Text) : List Text → Text
  | [] => []
  | [t] => t
  | t :: ts => t ++ sep ++ joinWith sep ts

/-- Every `c` becomes the text `new`. -/
def replace (c : CodePoint) (new : Text) (t : Text) : Text :=
  t.flatMap fun x => if x = c then new else [x]

/-- How often `c` occurs. -/
def occurrences (c : CodePoint) (t : Text) : Nat := (t.filter (· = c)).length

/-- The capitals of ASCII become small letters. -/
def asciiLower (t : Text) : Text := t.map CodePoint.asciiLower

/-- Whether `c` occurs. -/
def contains (t : Text) (c : CodePoint) : Bool := t.any (· = c)

end Text

end Abacus
