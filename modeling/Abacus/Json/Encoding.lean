import Abacus.Json.Reader
import Abacus.Text.Wide

/-!
# The encoding of a JSON body

The bytes of a JSON text announce their encoding: by a byte order mark, else by where zero bytes
stand among the first four, since a JSON text begins with two ASCII code points or is one.

* `Encoding.detect`: the encoding of bytes.
* `Encoding.decode?`: the text of bytes in an encoding, lone surrogates passing.
* `ofBytes`: the value of bytes.
-/

namespace Abacus.Json

open Wide (Order)

/-- An encoding; `marked` says that a byte order mark stands in front. -/
inductive Encoding
  | utf8 (marked : Bool)
  | utf16 (order : Order) (marked : Bool)
  | utf32 (order : Order) (marked : Bool)
  deriving DecidableEq, Repr

namespace Encoding

/-- The encoding that zero bytes among the first four give away. -/
def ofZeros : Bytes → Encoding
  | a :: b :: c :: d :: _ =>
    if a = 0 then (if b = 0 then .utf32 .big false else .utf16 .big false)
    else if b = 0 then (if c = 0 && d = 0 then .utf32 .little false else .utf16 .little false)
    else .utf8 false
  | [a, b] =>
    if a = 0 then .utf16 .big false
    else if b = 0 then .utf16 .little false
    else .utf8 false
  | _ => .utf8 false

/-- The encoding of bytes. The mark of four bytes is looked for before its first two bytes. -/
def detect (bytes : Bytes) : Encoding :=
  if [0, 0, 0xFE, 0xFF].isPrefixOf bytes then .utf32 .big true
  else if [0xFF, 0xFE, 0, 0].isPrefixOf bytes then .utf32 .little true
  else if [0xFE, 0xFF].isPrefixOf bytes then .utf16 .big true
  else if [0xFF, 0xFE].isPrefixOf bytes then .utf16 .little true
  else if [0xEF, 0xBB, 0xBF].isPrefixOf bytes then .utf8 true
  else ofZeros bytes

/-- How many bytes the byte order mark takes. -/
def markSize : Encoding → Nat
  | .utf8 marked => if marked then 3 else 0
  | .utf16 _ marked => if marked then 2 else 0
  | .utf32 _ marked => if marked then 4 else 0

/-- The text of the bytes after the byte order mark. -/
def decode? (e : Encoding) (bytes : Bytes) : Option Text :=
  let bytes := bytes.drop e.markSize
  match e with
  | .utf8 _ => Utf8.decodeLone? bytes
  | .utf16 order _ => Wide.decode16? order bytes
  | .utf32 order _ => Wide.decode32? order bytes

end Encoding

/-- The value of bytes in the encoding that they announce. -/
def ofBytes (bytes : Bytes) : Except DecodeError Value :=
  match (Encoding.detect bytes).decode? bytes with
  | some t => ofDecoded t
  | none => .error .undecodable

end Abacus.Json
