import Abacus.Address
import Abacus.Http.Target
import Abacus.Text.HostLetter
import Abacus.Text.Integer

/-!
# Addresses of services

The address of a service has a user, a host, a port, a path, a query and a fragment, most of which
may be missing. The user ends at the last at sign. A host is a network address, in brackets if it
is a long one, or a name.

* `Host`, `Host.ofText?`: the host that a text writes.
* `Url`, `Url.ofText`: the parts of an address.
* `Url.target`, `Url.resource`: what requests to a path below an address ask for.
-/

namespace Abacus

/-- What an address leads to. -/
inductive Host
  | address (a : Address)
  | name (t : Text)
  deriving DecidableEq

namespace Host

/-- Whether one stage of a short address follows another over a code point. The odd stages are
inside its four numbers, the even ones between them. -/
def follows (c : CodePoint) (stage next : Nat) : Bool :=
  if next % 2 = 1 then c.isDigit && (next = stage || next = stage + 1)
  else next = stage + 1

/-- Whether a name has the look of a short address: four numbers with any one code point between
them. -/
def isShortLike (t : Text) : Bool :=
  (t.foldl
    (fun (stages : List Nat) c => (List.range 8).filter fun next => stages.any (follows c · next))
    [0]).contains 7

/-- The labels of a name; the last one may end with a dot. -/
def labels (t : Text) : List Text :=
  let isDot (c : CodePoint) : Bool := c.val ∈ [0x2E, 0x3002, 0xFF0E, 0xFF61]
  let pieces := Text.splitOn '.' (t.map fun c => if isDot c then CodePoint.ofChar '.' else c)
  if pieces.getLast? = some [] then pieces.dropLast else pieces

/-- Whether all code points are in ASCII. -/
def isAscii (t : Text) : Bool := t.all fun c => c.val < 0x80

/-- The most code points that a label may have; outside ASCII its coded form takes four more. -/
def labelLimit (t : Text) : Nat := if isAscii t then 63 else 59

/-- Whether a label may stand in a name outside ASCII: it has letters only, and no hyphen at
either end. Hyphens at both its third and fourth place are for labels in coded form. -/
def isLabel (t : Text) : Bool :=
  !t.isEmpty && t.length ≤ labelLimit t && t.all CodePoint.isHostLetter &&
    !t.startsWith "-" && !t.endsWith "-" &&
    (!Text.startsWith (t.drop 2) "--" || (isAscii t && Text.startsWith t.asciiLower "xn"))

/-- Whether a text is the name of a host. In ASCII every text is. -/
def isName (t : Text) : Bool :=
  isAscii t || (!(labels t).isEmpty && (labels t).all isLabel)

/-- A text between brackets. -/
def bracketed? (t : Text) : Option Text :=
  if t.startsWith "[" && t.endsWith "]" then some t.tail.dropLast else none

/-- The host that a text writes. -/
def ofText? (t : Text) : Option Host :=
  match bracketed? t with
  | some inner => (Address.longOfText? inner).map address
  | none =>
    if isShortLike t then (Address.short? t).map fun n => address (.v4 (BitVec.ofNat 32 n))
    else if isName t then some (name t)
    else none

/-- Whether requests can name the host: the zone of an address has to be in ASCII for that. -/
def isWritable : Host → Bool
  | address (.v6 _ (some zone)) => isAscii zone
  | _ => true

end Host

/-- The parts of the address of a service. -/
structure Url where
  user : Option Text
  host : Host
  port : Option Int
  path : Text
  query : Option Text
  fragment : Option Text
  deriving DecidableEq

namespace Url

/-- What every address begins with. -/
def scheme : Text := "http://"

/-- The text before the last at sign, if there is one, and the text after it. -/
def cutUser (t : Text) : Option Text × Text :=
  let rest := (t.reverse.takeWhile fun (c : CodePoint) => c ≠ '@').reverse
  if rest.length = t.length then (none, t)
  else (some (t.take (t.length - rest.length - 1)), rest)

/-- The length of a host at the front of a text: up to its last closing bracket if it begins with
an opening one, else up to its first colon. -/
def hostLength (t : Text) : Nat :=
  if t.startsWith "[" && t.contains ']' then
    t.length - (t.reverse.takeWhile fun (c : CodePoint) => c ≠ ']').length
  else (t.takeWhile fun (c : CodePoint) => c ≠ ':').length

/-- The port that a text writes; an empty text writes none. -/
def portOfText (t : Text) : Except TargetError (Option Int) :=
  if t.isEmpty then .ok none
  else
    match Text.integer? t with
    | some n => .ok (some n)
    | none => .error .invalid

/-- Refuses a text that cannot be encoded. -/
def encodable (t : Text) : Except TargetError Unit :=
  if t.any CodePoint.isSurrogate then .error .unencodable else .ok ()

/-- A text behind a mark at its front, if it is there. -/
def behind? (mark : CodePoint) : Text → Option Text
  | [] => none
  | c :: rest => if c = mark then some rest else none

/-- The parts of an address. -/
def ofText (t : Text) : Except TargetError Url := do
  if Target.limit < t.length || t.any Target.isControl || !t.startsWith scheme then throw .invalid
  let isEnd (c : CodePoint) : Bool := c = '/' || c = '?' || c = '#'
  let rest := t.drop scheme.length
  let (user, place) := cutUser (rest.takeWhile fun c => !isEnd c)
  let rest := rest.dropWhile fun c => !isEnd c
  encodable (user.getD [])
  let hostText := place.take (hostLength place)
  let some host := Host.ofText? hostText | throw .invalid
  let portText := place.drop hostText.length
  let port ← portOfText ((behind? ':' portText).getD portText)
  encodable rest
  if !host.isWritable then throw .unencodable
  let (beforeFragment, fragment) := Text.cutAt '#' rest
  let (path, query) := Text.cutAt '?' beforeFragment
  return ⟨user, host, port, path, query, fragment⟩

/-- The code points that a query holds as they are. -/
def isQuerySafe (c : CodePoint) : Bool :=
  0x21 ≤ c.val && c.val ≤ 0x7E && !(Text.contains "\"#<>" c)

/-- What stands before the paths that are asked for below an address without a path. A query of
the address goes before them. -/
def base (u : Url) : Text :=
  match u.query with
  | none => []
  | some query => ("/?" : Text) ++ Percent.encode isQuerySafe query

/-- The target of a request to a path below an address. -/
def target (u : Url) (path : Text) : Text := u.base ++ path

/-- The path of a request with a query of its own, which takes the place of all that the query of
the address holds. -/
def resource (u : Url) (path : Text) : Text := if u.query.isSome then "/" else path

end Url

end Abacus
