import Abacus.Http.Form

/-!
# Request targets

The target of a request is a path and a query. A path is encoded, its dots are resolved, and what
stands after a question mark or a number sign is no part of it.

* `Target.path`: the path that a client asks for.
* `Target.withQuery`: the path with the fields of a form.
-/

namespace Abacus

/-- Why there is no target. -/
inductive TargetError
  /-- The address is too long or has control characters. -/
  | invalid
  /-- A text with a lone surrogate cannot be encoded. -/
  | unencodable
  deriving DecidableEq, Repr

namespace Target

/-- The most code points that an address or a part of it may have. -/
def limit : Nat := 65536

/-- The code points that a path holds as they are. -/
def isPathSafe (c : CodePoint) : Bool :=
  0x21 ≤ c.val && c.val ≤ 0x7E && !(Text.contains "\"#<>?`\x7b\x7d" c)

/-- The control characters of ASCII. -/
def isControl (c : CodePoint) : Bool := c.val < 0x20 || c.val = 0x7F

/-- The path with parts that are one or two dots resolved. -/
def resolveDots (path : Text) : Text :=
  Text.joinWith "/"
    ((path.splitOn '/').foldl
      (fun (parts : List Text) (part : Text) =>
        if part = "." then parts
        else if part = ".." then (if parts = [[]] then parts else parts.dropLast)
        else parts ++ [part])
      [])

/-- The path that a client asks for. -/
def path (address : Text) : Except TargetError Text :=
  if limit < address.length || address.any isControl then .error .invalid
  else if address.any CodePoint.isSurrogate then .error .unencodable
  else
    let encoded := Percent.encode isPathSafe
      (address.takeWhile fun (c : CodePoint) => !(c = '?' || c = '#'))
    if limit < encoded.length then .error .invalid
    else
      let resolved := resolveDots encoded
      .ok (if resolved.isEmpty then "/" else resolved)

/-- The path with the fields of a form. -/
def withQuery (path : Text) (fields : Form.Fields) : Except TargetError Text :=
  if fields.any fun f => f.2.any CodePoint.isSurrogate then .error .unencodable
  else
    let query := Form.encode fields
    if limit < query.length then .error .invalid else .ok (path ++ ("?" : Text) ++ query)

end Target

end Abacus
