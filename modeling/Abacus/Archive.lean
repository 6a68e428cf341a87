import Abacus.Text.Utf8

/-!
# Archives

An archive holds members in an order. Three formats are told apart; the format of a file need not
be the one that its name announces.

* `Archive`: an archive by its format and members.
* `Content`: what a file holds, and the text that it holds if it is one.
-/

namespace Abacus

namespace Archive

/-- What a member of a tape archive is. -/
inductive TapeKind
  | file (data : Bytes)
  | directory
  | symbolicLink (target : Text)
  | hardLink (target : Text)
  deriving DecidableEq

/-- A member of a tape archive. -/
structure TapeMember where
  name : Text
  kind : TapeKind
  deriving DecidableEq

end Archive

/-- An archive. -/
inductive Archive
  | zip (members : List (Text × Bytes))
  | tarXz (members : List Archive.TapeMember)
  | sevenZip (members : List (Text × Bytes))
  deriving DecidableEq

/-- What a file holds. -/
inductive Content
  | bytes (data : Bytes)
  | archive (archive : Archive)
  deriving DecidableEq

namespace Content

/-- The bytes of an archive without members in the first format: one end record. -/
def emptyZip : Bytes := [0x50, 0x4B, 5, 6] ++ List.replicate 18 0

/-- Whether bytes are an archive without members in the first format: whatever stands before it,
the end record counts. -/
def isEmptyZip (data : Bytes) : Bool := emptyZip.isSuffixOf data

/-- The bytes of a file, as far as they matter: those of an archive with members are not a text. -/
def raw? : Content → Option Bytes
  | bytes data => some data
  | archive (.zip []) => some emptyZip
  | archive _ => none

/-- The text of a file; none if its bytes are not well-formed. -/
def text? (c : Content) : Option Text := c.raw?.bind Utf8.decode?

end Content

end Abacus
