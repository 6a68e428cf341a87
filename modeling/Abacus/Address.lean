import Abacus.Json.Value
import Abacus.Schema.Checked
import Abacus.Text.Numeral

/-!
# Network addresses

An address has 32 bits, written as four numbers with dots, or 128 bits, written as eight groups of
hexadecimal digits with colons. Two colons stand for one run of zero groups; a zone may follow a
percent sign.

* `Address`, `Address.text`: addresses and how they are written.
* `Address.ofText?`: reading an address.
* `Schema.address`: the address that a piece of data gives, also as a number.
-/

namespace Abacus

/-- A network address. -/
inductive Address
  | v4 (bits : BitVec 32)
  | v6 (bits : BitVec 128) (zone : Option Text)
  deriving DecidableEq

namespace Address

/-- The address of the machine itself. -/
def loopback : Address := v4 0x7F000001

/-! ## Writing -/

/-- The bytes of a short address, the first one first. -/
def octets (bits : BitVec 32) : List Nat :=
  [3, 2, 1, 0].map fun i => bits.toNat / Nat.pow 256 i % 256

/-- The groups of a long address, the first one first. -/
def groups (bits : BitVec 128) : List Nat :=
  [7, 6, 5, 4, 3, 2, 1, 0].map fun i => bits.toNat / Nat.pow 65536 i % 65536

/-- The hexadecimal digits of a group without leading zeros. -/
def groupText (n : Nat) : Text :=
  let digits := (Text.ofHex 4 n).dropWhile fun (c : CodePoint) => c = '0'
  if digits.isEmpty then "0" else digits

/-- The length of the run of zeros at the front. -/
def zeroRun (groups : List Nat) : Nat := (groups.takeWhile (· = 0)).length

/-- Start and length of the longest run of zeros, the first one of its length. -/
def longestRun (groups : List Nat) : Nat × Nat :=
  (List.range groups.length).foldl
    (fun best i =>
      let run := zeroRun (groups.drop i)
      if best.2 < run then (i, run) else best)
    (0, 0)

/-- The text of eight groups: two colons for the longest run of zeros if it is longer than one. -/
def groupsText (groups : List Nat) : Text :=
  let (start, run) := longestRun groups
  if run ≤ 1 then Text.joinWith ":" (groups.map groupText)
  else
    Text.joinWith ":" ((groups.take start).map groupText) ++ ("::" : Text) ++
      Text.joinWith ":" ((groups.drop (start + run)).map groupText)

/-- The text of an address. -/
def text : Address → Text
  | v4 bits => Text.joinWith "." ((octets bits).map Text.ofNat)
  | v6 bits zone =>
    groupsText (groups bits) ++
      (match zone with
       | some z => ("%" : Text) ++ z
       | none => [])

/-- Whether an address has 128 bits. -/
def isLong : Address → Bool
  | v4 _ => false
  | v6 _ _ => true

/-! ## Reading -/

/-- A number below 256 in one to three digits, without a zero in front. -/
def octet? (t : Text) : Option Nat :=
  if t.isEmpty || 3 < t.length || !t.all CodePoint.isDigit then none
  else if 1 < t.length && t.startsWith "0" then none
  else
    let n := Text.digitsValue t
    if n < 256 then some n else none

/-- The number of the bytes of a short address. -/
def short? (t : Text) : Option Nat :=
  let pieces := t.splitOn '.'
  if pieces.length ≠ 4 then none
  else (pieces.mapM octet?).map fun bytes => bytes.foldl (fun n b => n * 256 + b) 0

/-- The number of one to four hexadecimal digits. -/
def group? (t : Text) : Option Nat :=
  if t.isEmpty || 4 < t.length then none
  else (t.mapM CodePoint.hexValue?).map fun digits => digits.foldl (fun n d => n * 16 + d) 0

/-- The groups that pieces between colons write; the last piece may be a short address. -/
def groupsOf? (pieces : List Text) : Option (List Nat) :=
  match pieces.getLast? with
  | none => some []
  | some last =>
    if last.contains '.' then do
      let front ← pieces.dropLast.mapM group?
      let n ← short? last
      return front ++ [n / 65536, n % 65536]
    else pieces.mapM group?

/-- The text before the first two colons in a row and, if there are such, the text after. -/
def cutAtColons : Text → Text × Option Text
  | [] => ([], none)
  | [c] => ([c], none)
  | c :: d :: rest =>
    if c = ':' && d = ':' then ([], some rest)
    else (c :: (cutAtColons (d :: rest)).1, (cutAtColons (d :: rest)).2)

/-- The groups of one side of two colons; an empty side has none. -/
def side? (t : Text) : Option (List Nat) := if t.isEmpty then some [] else groupsOf? (t.splitOn ':')

/-- The eight groups of a long address without its zone. -/
def long? (t : Text) : Option (List Nat) :=
  match cutAtColons t with
  | (_, none) =>
    (groupsOf? (t.splitOn ':')).bind fun groups => if groups.length = 8 then some groups else none
  | (before, some after) => do
    if before.contains '.' then none
    let front ← side? before
    let back ← side? after
    if 8 ≤ front.length + back.length then none
    return front ++ List.replicate (8 - front.length - back.length) 0 ++ back

/-- The number of groups. -/
def ofGroups (groups : List Nat) : BitVec 128 :=
  BitVec.ofNat 128 (groups.foldl (fun n g => n * 65536 + g) 0)

/-- The long address that a text writes. -/
def longOfText? (t : Text) : Option Address := do
  let (groups, zone) := Text.cutAt '%' t
  let bits ← long? groups
  match zone with
  | none => some (v6 (ofGroups bits) none)
  | some z => if z.isEmpty || z.contains '%' then none else some (v6 (ofGroups bits) (some z))

/-- The address that a text writes. -/
def ofText? (t : Text) : Option Address :=
  if t.contains '/' then none
  else
    match short? t with
    | some n => some (v4 (BitVec.ofNat 32 n))
    | none => longOfText? t

/-- The address with a given number: a short one as far as it goes. -/
def ofInt? (n : Int) : Option Address :=
  if n < 0 then none
  else if n.toNat < Nat.pow 2 32 then some (v4 (BitVec.ofInt 32 n))
  else if n.toNat < Nat.pow 2 128 then some (v6 (BitVec.ofInt 128 n) none)
  else none

end Address

namespace Schema

/-- The address that an optional one is, or an issue. -/
def addressOr : Option Address → Checked Address
  | some a => .valid a
  | none => .issue .address

/-- An address, as a text or as a number. -/
def address : Json.Value → Checked Address
  | .text t => addressOr (Address.ofText? t)
  | .int n => addressOr (Address.ofInt? n)
  | .bool b => addressOr (Address.ofInt? (if b then 1 else 0))
  | _ => .issue .address

end Schema

end Abacus
