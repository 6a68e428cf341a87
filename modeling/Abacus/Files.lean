import Abacus.Archive
import Abacus.Path
import Abacus.Text.Line

/-!
# Files

A tree of directories and files in memory, kept as the list of what stands at each place. A place
is the list of names from the root down; the root is a directory without being listed. Links are
left out: no two places stand for the same file. So are permissions: whatever is there can be read
and written.

* `Files.entry?`, `Files.isDirectory`: what stands at a place.
* `Files.resolve`, `Files.find`: the place that a path leads to, and what stands there.
* `Files.content`, `Files.readText`: what a file holds.
* `Files.put`, `Files.remove`, `Files.write`: changing one file.
-/

namespace Abacus

/-- The names from the root down to a file or directory. -/
abbrev Place := List Text

/-- What stands at a place. -/
inductive Entry
  | directory
  | file (content : Content)
  deriving DecidableEq

/-- Why a file cannot be used. -/
inductive AccessError
  | notFound
  | notADirectory
  | isADirectory
  /-- A path or a name in it is longer than the file system admits. -/
  | nameTooLong
  /-- A path holds a surrogate that stands for no byte. -/
  | unencodable
  /-- A path holds the code point zero. -/
  | zeroCodePoint
  /-- The bytes of a file read as text are not well-formed. -/
  | undecodable
  deriving DecidableEq, Repr

/-- Directories and files, and the directory from which relative paths start. -/
structure Files where
  home : Place
  entries : List (Place × Entry)
  deriving DecidableEq

namespace Files

/-- No files at all. -/
def empty : Files := ⟨[], []⟩

/-- What stands at a place. -/
def entry? (f : Files) (place : Place) : Option Entry :=
  if place.isEmpty then some .directory else f.entries.lookup place

/-- Whether a directory stands at a place. -/
def isDirectory (f : Files) (place : Place) : Bool := f.entry? place = some .directory

/-- What the file at a place holds. -/
def content? (f : Files) (place : Place) : Option Content :=
  match f.entry? place with
  | some (.file c) => some c
  | _ => none

/-- Puts an entry at a place, over what stood there. -/
def put (f : Files) (place : Place) (entry : Entry) : Files :=
  { f with entries := (place, entry) :: f.entries.filter fun e => e.1 ≠ place }

/-- Takes away what stands at a place. -/
def remove (f : Files) (place : Place) : Files :=
  { f with entries := f.entries.filter fun e => e.1 ≠ place }

/-- Puts an entry at a place and directories at the places above it where nothing stands. -/
def add (f : Files) (place : Place) (entry : Entry) : Files :=
  let above := (List.range place.length).tail.map place.take
  let f := above.foldl (fun f p => if (f.entry? p).isNone then f.put p .directory else f) f
  f.put place entry

/-- The most bytes that a name may have. -/
def nameLimit : Nat := 255

/-- The most bytes that a path may have. -/
def pathLimit : Nat := 4095

/-- The number of bytes of a path or a name. -/
def size (t : Text) : Nat := ((Utf8.encodeStray? t).getD []).length

/-- The place that parts lead to from a directory; the last of them need not exist. -/
def walk (f : Files) (place : Place) : List Text → Except AccessError Place
  | [] => .ok place
  | part :: rest =>
    match f.entry? place with
    | none => .error .notFound
    | some (.file _) => .error .notADirectory
    | some .directory =>
      if part = Path.up then walk f place.dropLast rest
      else if nameLimit < size part then .error .nameTooLong
      else walk f (place ++ [part]) rest

/-- The place that a path leads to. -/
def resolve (f : Files) (p : Path) : Except AccessError Place :=
  if (Utf8.encodeStray? p.text).isNone then .error .unencodable
  else if p.parts.any fun part => part.any fun c => c.val = 0 then .error .zeroCodePoint
  else if pathLimit < size p.text then .error .nameTooLong
  else f.walk (if p.isAbsolute then [] else f.home) p.parts

/-- What a path leads to, if it leads anywhere. That cannot be found out if the path is too
long. -/
def find (f : Files) (p : Path) : Except AccessError (Option Entry) :=
  match f.resolve p with
  | .ok place => .ok (f.entry? place)
  | .error .nameTooLong => .error .nameTooLong
  | .error _ => .ok none

/-- What the file at a path holds. -/
def content (f : Files) (p : Path) : Except AccessError Content := do
  let place ← f.resolve p
  match f.entry? place with
  | none => throw .notFound
  | some .directory => throw .isADirectory
  | some (.file c) => return c

/-- The text of the file at a path, with every newline a line feed. -/
def readText (f : Files) (p : Path) : Except AccessError Text := do
  let c ← f.content p
  match c.text? with
  | some t => return Text.normalizeNewlines t
  | none => throw .undecodable

/-- The place of a file that is opened for writing; the file need not be there yet. -/
def target (f : Files) (p : Path) : Except AccessError Place := do
  let place ← f.resolve p
  if f.isDirectory place then throw .isADirectory else return place

/-- Writes a file anew. -/
def write (f : Files) (place : Place) (text : Text) : Files :=
  f.put place (.file (.bytes (Utf8.encodeLone text)))

end Files

end Abacus
