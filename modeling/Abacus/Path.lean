import Abacus.Text.Quoted

/-!
# Paths

A path has a root, which is empty for a relative path, and parts. Repeated slashes, a slash at the
end and parts that are a single dot leave no trace; two dots are a part like any other.

* `Path.ofText`, `Path.text`: reading and writing a path.
* `Path.name`, `Path.suffix`, `Path.suffixes`: the last part and its extensions.
* `Path.blend`, `Path.results?`: where the results for a file go.
-/

namespace Abacus

/-- A path: `root` is empty, one slash, or two slashes. -/
structure Path where
  root : Text
  parts : List Text
  deriving DecidableEq

namespace Path

/-- The code point between parts. -/
def separator : CodePoint := '/'

/-- The code point before an extension. -/
def dot : CodePoint := '.'

/-- The part that leads up. -/
def up : Text := ".."

/-- The parts of a text. -/
def partsOf (t : Text) : List Text :=
  (t.splitOn separator).filter fun part => !(part.isEmpty || part = "." )

/-- The root of a text: exactly two slashes in front stay two, any other number is one. -/
def rootOf (t : Text) : Text :=
  match (t.takeWhile (· = separator)).length with
  | 0 => []
  | 2 => [separator, separator]
  | _ => [separator]

/-- The path that a text writes. -/
def ofText (t : Text) : Path := ⟨rootOf t, partsOf t⟩

/-- The text of a path; a single dot stands for no part at all. -/
def text (p : Path) : Text :=
  if p.root.isEmpty && p.parts.isEmpty then "."
  else p.root ++ Text.joinWith [separator] p.parts

/-- Whether a path begins at the root. -/
def isAbsolute (p : Path) : Bool := !p.root.isEmpty

/-- The last part, empty if there is none. -/
def name (p : Path) : Text := p.parts.getLast?.getD []

/-- A path followed by another one; an absolute one stands for itself. -/
def join (p q : Path) : Path := if q.isAbsolute then q else ⟨p.root, p.parts ++ q.parts⟩

/-- The extensions of a name, each with its dot: none after a dot at the end, and none from the
dots at the front. -/
def suffixesOf (name : Text) : List Text :=
  if name.endsWith [dot] then []
  else ((name.dropWhile (· = dot)).splitOn dot).tail.map (dot :: ·)

/-- The last extension of a name: what follows its last dot, unless that is at either end. -/
def suffixOf (name : Text) : Text :=
  let tail := (name.reverse.takeWhile (· ≠ dot)).reverse
  if tail.isEmpty || name.length ≤ tail.length + 1 then [] else dot :: tail

/-- All extensions of the last part. -/
def suffixes (p : Path) : List Text := suffixesOf p.name

/-- The last extension of the last part. -/
def suffix (p : Path) : Text := suffixOf p.name

/-- A dot becomes an underscore, and every other code point stays. -/
def blend (c : CodePoint) : CodePoint := if c = dot then '_' else c

/-- The name of the results for a file name: the dots of its extensions become underscores. -/
def resultsName (name : Text) : Text :=
  let extensions := (suffixesOf name).flatten
  name.take (name.length - extensions.length) ++ extensions.map blend ++ ("_results.txt" : Text)

/-- The path of the results for a file, in the same folder; none for a path without a name. -/
def results? (p : Path) : Option Path :=
  if p.parts.isEmpty then none
  else some ⟨p.root, p.parts.dropLast ++ [resultsName p.name]⟩

/-- The wording of a path without a name where one is needed. -/
def namelessMessage (p : Path) : Text :=
  ("PosixPath(" : Text) ++ Quoted.quote p.text ++ (") has an empty name" : Text)

end Path

end Abacus
