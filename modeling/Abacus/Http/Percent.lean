import Abacus.Text.Numeral
import Abacus.Text.Utf8

/-!
# Percent encoding

A byte is written as a percent sign and two hexadecimal digits. Bytes that stand for themselves
are chosen by a predicate. Decoding takes the bytes of each run of ASCII as UTF-8; a percent sign
without two digits stands for itself, and so do code points outside ASCII.

* `Percent.encode`: a text, through the bytes of UTF-8.
* `Percent.decode`: the text that is encoded.
-/

namespace Abacus.Percent

/-- A byte as a percent sign and two digits. -/
def escape (b : UInt8) : Text :=
  [CodePoint.ofChar '%', CodePoint.ofCapitalDigit (b.toNat / 16),
    CodePoint.ofCapitalDigit (b.toNat % 16)]

/-- The code point that a byte of ASCII stands for. -/
def ofByte (b : UInt8) : CodePoint := CodePoint.ofNat b.toNat

/-- Bytes, where those that `safe` admits stand for themselves. -/
def encodeBytes (safe : CodePoint → Bool) (bytes : Bytes) : Text :=
  bytes.flatMap fun b => if b < 0x80 && safe (ofByte b) then [ofByte b] else escape b

/-- A text, where the code points of ASCII that `safe` admits stand for themselves. -/
def encode (safe : CodePoint → Bool) (t : Text) : Text := encodeBytes safe (Utf8.encodeLone t)

/-- The letters and digits of ASCII and four marks, which are never encoded. -/
def isUnreserved (c : CodePoint) : Bool :=
  c.isDigit || (0x41 ≤ c.val && c.val ≤ 0x5A) || (0x61 ≤ c.val && c.val ≤ 0x7A) || c = '_' ||
    c = '.' || c = '-' || c = '~'

/-- A piece of an encoded text: a byte, or a code point that stands for itself. -/
inductive Piece
  | byte (b : UInt8)
  | point (c : CodePoint)

/-- The piece that a code point by itself is. -/
def single (c : CodePoint) : Piece :=
  if c.val < 0x80 then .byte (UInt8.ofNat c.val) else .point c

/-- The pieces of an encoded text. -/
def pieces : Text → List Piece
  | [] => []
  | [c] => [single c]
  | [c, d] => [single c, single d]
  | c :: high :: low :: rest =>
    if c = '%' then
      match high.hexValue?, low.hexValue? with
      | some h, some l => .byte (UInt8.ofNat (h * 16 + l)) :: pieces rest
      | _, _ => single c :: pieces (high :: low :: rest)
    else single c :: pieces (high :: low :: rest)

/-- The bytes at the front of pieces and the text of what follows them. -/
def assemble : List Piece → Bytes × Text
  | [] => ([], [])
  | .byte b :: rest => (b :: (assemble rest).1, (assemble rest).2)
  | .point c :: rest => ([], c :: (Utf8.decodeReplacing (assemble rest).1 ++ (assemble rest).2))

/-- The text that is encoded, with U+FFFD for bytes that are not well-formed. -/
def decode (t : Text) : Text :=
  let (bytes, rest) := assemble (pieces t)
  Utf8.decodeReplacing bytes ++ rest

end Abacus.Percent
