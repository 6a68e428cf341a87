import Abacus.Text

/-!
# UTF-8

Bytes and texts. Encoding fails on a surrogate unless it may pass. Decoding runs a machine over
the bytes; between code points it owes nothing, and inside one it knows how many bytes are still
owed, the bits so far and the range of the next byte.

* `Utf8.encode?`, `Utf8.encodeLone`: the bytes of a text, without and with lone surrogates.
* `Utf8.encodeStray?`: the bytes of a text in which some surrogates stand for bytes out of place.
* `Utf8.read`: the code points of bytes, with `none` for each longest ill-formed piece.
* `Utf8.decode?`, `Utf8.decodeReplacing`: all or nothing, and with a replacement for such pieces.
-/

namespace Abacus

/-- A sequence of bytes. -/
abbrev Bytes := List UInt8

namespace Utf8

/-- The bytes of a code point; those of a surrogate follow the pattern of its range. -/
def encodePoint (c : CodePoint) : Bytes :=
  let n := c.val
  let tail (k : Nat) : UInt8 := UInt8.ofNat (0x80 + n / Nat.pow 64 k % 64)
  if n < 0x80 then [UInt8.ofNat n]
  else if n < 0x800 then [UInt8.ofNat (0xC0 + n / 64), tail 0]
  else if n < 0x10000 then [UInt8.ofNat (0xE0 + n / Nat.pow 64 2), tail 1, tail 0]
  else [UInt8.ofNat (0xF0 + n / Nat.pow 64 3), tail 2, tail 1, tail 0]

/-- The bytes of a text, lone surrogates included. -/
def encodeLone (t : Text) : Bytes := t.flatMap encodePoint

/-- The bytes of a text that holds no surrogate. -/
def encode? (t : Text) : Option Bytes :=
  if t.any CodePoint.isSurrogate then none else some (encodeLone t)

/-- Whether a code point is one of the surrogates that stand for a byte from 0x80 up which is no
part of a code point. -/
def isStray (c : CodePoint) : Bool := 0xDC80 ≤ c.val && c.val < 0xDD00

/-- The bytes of a text in which surrogates may stand for stray bytes; none if it holds any other
surrogate. -/
def encodeStray? (t : Text) : Option Bytes :=
  if t.any fun c => c.isSurrogate && !isStray c then none
  else
    some (t.flatMap fun c => if isStray c then [UInt8.ofNat (c.val - 0xDC00)] else encodePoint c)

/-- What is owed inside a code point: the bytes still to come, the bits so far, the next range. -/
structure Owed where
  left : Nat
  bits : Nat
  low : Nat
  high : Nat

/-- What a first byte begins. -/
inductive Lead
  | point (c : CodePoint)
  | more (owed : Owed)
  | bad

/-- What a byte begins between two code points; `lone` admits surrogates. -/
def lead (lone : Bool) (b : UInt8) : Lead :=
  let n := b.toNat
  if n < 0x80 then .point (CodePoint.ofNat n)
  else if n < 0xC2 then .bad
  else if n < 0xE0 then .more ⟨1, n - 0xC0, 0x80, 0xBF⟩
  else if n = 0xE0 then .more ⟨2, 0, 0xA0, 0xBF⟩
  else if n = 0xED then .more ⟨2, 0xD, 0x80, if lone then 0xBF else 0x9F⟩
  else if n < 0xF0 then .more ⟨2, n - 0xE0, 0x80, 0xBF⟩
  else if n = 0xF0 then .more ⟨3, 0, 0x90, 0xBF⟩
  else if n < 0xF4 then .more ⟨3, n - 0xF0, 0x80, 0xBF⟩
  else if n = 0xF4 then .more ⟨3, 4, 0x80, 0x8F⟩
  else .bad

/-- The code points of bytes, from inside a code point if something is owed. -/
def readFrom (lone : Bool) : Option Owed → Bytes → List (Option CodePoint)
  | none, [] => []
  | some _, [] => [none]
  | none, b :: rest =>
    match lead lone b with
    | .point c => some c :: readFrom lone none rest
    | .more owed => readFrom lone (some owed) rest
    | .bad => none :: readFrom lone none rest
  | some owed, b :: rest =>
    if owed.low ≤ b.toNat && b.toNat ≤ owed.high then
      let bits := owed.bits * 64 + b.toNat % 64
      if owed.left ≤ 1 then some (CodePoint.ofNat bits) :: readFrom lone none rest
      else readFrom lone (some ⟨owed.left - 1, bits, 0x80, 0xBF⟩) rest
    else
      match lead lone b with
      | .point c => none :: some c :: readFrom lone none rest
      | .more next => none :: readFrom lone (some next) rest
      | .bad => none :: none :: readFrom lone none rest

/-- The code points of bytes, with `none` for each longest ill-formed piece. -/
def read (lone : Bool) (bytes : Bytes) : List (Option CodePoint) := readFrom lone none bytes

/-- The text that the bytes encode, if they are well-formed. -/
def decode? (bytes : Bytes) : Option Text := (read false bytes).mapM id

/-- The text that the bytes encode when lone surrogates may pass. -/
def decodeLone? (bytes : Bytes) : Option Text := (read true bytes).mapM id

/-- The text of the bytes with U+FFFD for each longest ill-formed piece. -/
def decodeReplacing (bytes : Bytes) : Text :=
  (read false bytes).map fun c => c.getD (CodePoint.ofNat 0xFFFD)

end Utf8

end Abacus
