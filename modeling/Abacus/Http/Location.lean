import Abacus.Http.Message
import Abacus.Http.Percent

/-!
# Locations

A redirect names its location: the address of this service with another path. A question mark or
a number sign in the path is written as a code, so that what follows stays a part of the path.

* `Location.ofPath`: the location of a path with the query that was received.
* `Location.tidied`: the same without line breaks and tabs, and without an empty query.
-/

namespace Abacus.Location

/-- The marks that a location holds as they are. -/
def marks : Text := ":/%#?=@[]!$&'()*+,;"

/-- A path in which the two marks that would end it are written as codes. -/
def guarded (path : Text) : Text := Text.replace '#' "%23" (Text.replace '?' "%3F" path)

/-- Whether a code point is a line break or a tab. -/
def isBreak (c : CodePoint) : Bool := c = '\t' || c = '\n' || c = '\r'

/-- A text without line breaks and tabs. -/
def unbroken (t : Text) : Text := t.filter fun c => !isBreak c

/-- A text behind a mark, or nothing if it is empty. -/
def after (mark : Text) (t : Text) : Text := if t.isEmpty then [] else mark ++ t

/-- The location with a given path and what follows the path. -/
def write (path rest : Text) : Text :=
  Percent.encode (fun c => Percent.isUnreserved c || marks.contains c)
    (("http://" : Text) ++ Text.ofString Request.host ++ guarded path ++ rest)

/-- The location of a path with a query as it was received. -/
def ofPath (path : Text) (query : Bytes) : Text :=
  write path (after "?" (Utf8.decodeReplacing query))

/-- The location of a path with a query, without line breaks and tabs; what follows a number sign
in the query is a fragment. -/
def tidied (path : Text) (query : Bytes) : Text :=
  let (query, fragment) := Text.cutAt '#' (unbroken (Utf8.decodeReplacing query))
  write (unbroken path) (after "?" query ++ after "#" (fragment.getD []))

end Abacus.Location
