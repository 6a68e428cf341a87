import Abacus.Files

/-!
# Unpacking

The expressions in an archive are the text of its first member whose name ends like that of an
expression file. The member is unpacked into a directory of its own and read from there by its
name, so that a name which leads elsewhere is not found.

* `Unpacking.isExpressionFile`: the names of expression files.
* `Unpacking.ofZip`, `Unpacking.ofTape`, `Unpacking.ofSevenZip`: the text in each format.
* `Unpacking.unpack`: the text in the archive at a path.
-/

namespace Abacus

/-- The formats of archives. -/
inductive ArchiveFormat
  | zip
  | tarXz
  | sevenZip
  deriving DecidableEq, Repr

/-- Why an archive gives no text. -/
inductive UnpackingError
  /-- The file is not an archive of the format that its name announces. -/
  | malformed (format : ArchiveFormat)
  /-- A member would be unpacked outside the directory. -/
  | outside
  /-- No member is an expression file. -/
  | noExpressionFile (format : ArchiveFormat)
  /-- The name announces no format that can be unpacked. -/
  | unsupported (suffix : Text)
  | access (e : AccessError)
  deriving DecidableEq

namespace ArchiveFormat

/-- The name of a format. -/
def name : ArchiveFormat → String
  | zip => "zip"
  | tarXz => "tar.xz"
  | sevenZip => "7z"

end ArchiveFormat

namespace UnpackingError

/-- The wording of an error, where it has one. -/
def message : UnpackingError → Text
  | noExpressionFile format =>
    ("📄❌ No expression file found in " : Text) ++ Text.ofString format.name ++
      (" archive" : Text)
  | unsupported suffix => ("📄❌ Unsupported archive format: " : Text) ++ suffix
  | _ => []

end UnpackingError

namespace Unpacking

/-- The suffixes of files that hold an expression on each line. -/
def expressionSuffixes : List Text := [(".txt" : Text), (".jsonl" : Text)]

/-- Whether a name is that of an expression file. -/
def isExpressionFile (name : Text) : Bool := expressionSuffixes.any fun s => name.endsWith s

/-- The directory into which members are unpacked. The length of its own path is not counted. -/
def folder : Place := [("unpacked" : Text)]

/-- The files before anything is unpacked. -/
def start : Files := { Files.empty.add folder .directory with home := folder }

/-- The text of a member that was unpacked. -/
def readBack (files : Files) (name : Text) : Except UnpackingError Text :=
  (files.readText (Path.ofText name)).mapError .access

/-- The text of a member that is unpacked by the parts of its name, leaving out those that lead
up. -/
def plainly (name : Text) (data : Bytes) : Except UnpackingError Text :=
  let parts := (Path.partsOf name).filter fun part => part ≠ Path.up
  readBack (start.add (folder ++ parts) (.file (.bytes data))) name

/-- A name up to its first code point zero, at which the field that holds it ends. -/
def fieldName (name : Text) : Text := name.takeWhile fun c => c.val ≠ 0

/-- The text of the first expression file; of members with its name, the last one counts. -/
def ofZip (members : List (Text × Bytes)) : Except UnpackingError Text :=
  let members := members.map fun m => (fieldName m.1, m.2)
  match members.find? fun m => isExpressionFile m.1 with
  | none => .error (.noExpressionFile .zip)
  | some (name, data) => plainly name ((members.reverse.lookup name).getD data)

/-- Whether a name begins with a letter and a colon, as a drive does. -/
def hasDrive : Text → Bool
  | c :: d :: _ => 0x61 ≤ c.asciiLower.val && c.asciiLower.val ≤ 0x7A && d = ':'
  | _ => false

/-- Whether a name could lead out of a folder: it begins at the root or with a drive, or one of
its parts leads up. A backslash counts like a slash. -/
def leadsOut (name : Text) : Bool :=
  let parts := name.splitOn '/' |>.flatMap (Text.splitOn '\\')
  parts.head? = some [] || hasDrive name || parts.contains Path.up

/-- The text of the first expression file. The names in this format are paths, and an archive is
malformed if the name that is asked for could lead out of the folder. -/
def ofSevenZip (members : List (Text × Bytes)) : Except UnpackingError Text :=
  let members := members.map fun m => ((Path.ofText m.1).text, m.2)
  match members.find? fun m => isExpressionFile m.1 with
  | none => .error (.noExpressionFile .sevenZip)
  | some (name, data) =>
    if leadsOut name then .error (.malformed .sevenZip) else plainly name data

/-- The places that the parts of a name lead through, the last one first; none if they lead out of
the folder. -/
def trail (trail : List Place) : List Text → Option (List Place)
  | [] => some trail
  | part :: rest =>
    let place := trail.headD folder
    if part = Path.up then
      if place = folder then none else Unpacking.trail (place.dropLast :: trail) rest
    else Unpacking.trail ((place ++ [part]) :: trail) rest

/-- The text of a member of a tape archive, with the directories that its name leads through. -/
def along (name : Text) (data : Bytes) : Except UnpackingError Text :=
  match trail [] (Path.partsOf name) with
  | none => .error .outside
  | some [] => .error (.access .isADirectory)
  | some (place :: above) =>
    let files := above.foldr (fun p files => files.put p .directory) start
    if files.isDirectory place then .error (.access .isADirectory)
    else readBack (files.put place (.file (.bytes data))) name

/-- The most code points that the field for a name in a tape archive has room for. -/
def tapeFieldLimit : Nat := 100

/-- The name of a member of a tape archive as it is read. A name that does not fit the field for
names stands in a record of its own, which leaves out slashes at the end. -/
def tapeName (name : Text) : Text :=
  if name.length ≤ tapeFieldLimit && name.all fun c => c.val < 0x80 then fieldName name
  else name.trimEndWith fun c => c = Path.separator

/-- The name and the data of a member that is a file and has the name of an expression file. -/
def tapeFile? (m : Archive.TapeMember) : Option (Text × Bytes) :=
  let name := tapeName m.name
  match m.kind with
  | .file data => if isExpressionFile name then some (name, data) else none
  | _ => none

/-- The text of the first expression file; only plain files count. -/
def ofTape (members : List Archive.TapeMember) : Except UnpackingError Text :=
  match members.findSome? tapeFile? with
  | none => .error (.noExpressionFile .tarXz)
  | some (name, data) => along name data

/-- The format that a path announces. -/
def format? (p : Path) : Option ArchiveFormat :=
  if p.suffix = ".zip" then some .zip
  else if [(".xz" : Text), (".tar" : Text)].isPrefixOf p.suffixes.reverse then some .tarXz
  else if p.suffix = ".7z" then some .sevenZip
  else none

/-- The text in a file that should be an archive of a given format. -/
def ofContent (format : ArchiveFormat) (content : Content) : Except UnpackingError Text :=
  match format, content with
  | .zip, .archive (.zip members) => ofZip members
  | .zip, .bytes data => if Content.isEmptyZip data then ofZip [] else .error (.malformed .zip)
  | .tarXz, .archive (.tarXz members) => ofTape members
  | .sevenZip, .archive (.sevenZip members) => ofSevenZip members
  | _, _ => .error (.malformed format)

/-- The text in the archive at a path. -/
def unpack (files : Files) (p : Path) : Except UnpackingError Text :=
  match format? p with
  | none => .error (.unsupported p.suffix)
  | some format => do
    let content ← (files.content p).mapError .access
    ofContent format content

end Unpacking

end Abacus
