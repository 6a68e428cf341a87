import Abacus.Files
import Abacus.Http.Location
import Abacus.Service.Interruption

/-!
# The static site

Files of a directory are served below the endpoints. A path is read from the directory, its dots
resolved; what lies outside the directory is not there. A directory stands for the file
`index.html` in it, at a path that ends with a slash, and the file `404.html` of the top answers
for what is not there.

* `Site.locate`: the place that a path asks for, unless it lies outside.
* `Site.media`: what a file is by its name.
* `Site.answer`: the response to a request.
-/

namespace Abacus.Site

/-- Whether a path belongs to the site: it begins with a slash, and its line feeds, if any, are
one at the end. -/
def owns (path : Text) : Bool :=
  path.startsWith "/" && !(path.dropLast.any fun (c : CodePoint) => c = '\n')

/-- The parts of a path with its dots resolved; two dots may be left at the front. -/
def normalize (parts : List Text) : List Text :=
  (parts.foldl
    (fun (reversed : List Text) part =>
      if part = Path.up then
        match reversed with
        | last :: rest => if last = Path.up then part :: reversed else rest
        | [] => [part]
      else part :: reversed)
    []).reverse

/-- The place of parts read from a place, two dots leading up. -/
def descend (place : Place) (parts : List Text) : Place :=
  parts.foldl
    (fun (place : Place) part => if part = Path.up then place.dropLast else place ++ [part]) place

/-- The place that a path asks for, unless it lies outside the folder. -/
def locate (folder : Place) (parts : List Text) : Option Place :=
  let place := descend folder parts
  if folder.isPrefixOf place then some place else none

/-- Whether a path cannot be that of a file: it cannot be encoded, or holds the code point
zero. -/
def isImpossible (parts : List Text) : Bool :=
  parts.any fun part => (Utf8.encodeStray? part).isNone || part.any fun c => c.val = 0

/-- Whether parts begin with a backslash, which is taken for the beginning of another root. -/
def isRooted (parts : List Text) : Bool := (parts.headD []).startsWith "\\"

/-- The number of bytes of a place as an absolute path. -/
def size (place : Place) : Nat := place.foldl (fun n part => n + 1 + Files.size part) 0

/-- What stands at the place that parts ask for. -/
def lookup (files : Files) (folder : Place) (parts : List Text) :
    Except Interruption (Option (Place × Entry)) :=
  if isRooted parts then .ok none
  else if isImpossible parts then .error .notFound
  else
    match locate folder parts with
    | none => .ok none
    | some place =>
      if Files.pathLimit < size place then .error .notFound
      else
        match files.walk [] place with
        | .error .nameTooLong => .error .notFound
        | .error _ => .ok none
        | .ok place => .ok ((files.entry? place).map fun entry => (place, entry))

/-- A name without its extension, and the extension with its dot. A name that has nothing but
dots before its last dot has no extension. -/
def cutExtension (name : Text) : Text × Text :=
  let extension := (name.reverse.takeWhile (· ≠ Path.dot)).reverse
  let start := name.take (name.length - extension.length - 1)
  if start.all (· = Path.dot) then (name, []) else (start, Path.dot :: extension)

/-- The extensions of packed files. -/
def packings : List Text :=
  [(".gz" : Text), (".Z" : Text), (".bz2" : Text), (".xz" : Text), (".br" : Text)]

/-- What a file is by its name. The name of a packed file is that of the file before it was
packed, with one more extension. -/
def media (name : Text) : Media :=
  let (start, last) := cutExtension name
  let extension := if packings.contains last then (cutExtension start).2 else last
  if extension.asciiLower = ".json" then .json else .other

/-- The response that holds a file; a request for the head has no body. -/
def fileResponse (status : Nat) (request : Request) (place : Place) (content : Content) :
    Response :=
  ⟨status, media (place.getLast?.getD []),
    if request.method = "HEAD" then [] else content.raw?.getD [], none⟩

/-- The response for what is not there. -/
def missing (files : Files) (folder : Place) (request : Request) :
    Except Interruption Response := do
  match ← lookup files folder [("404.html" : Text)] with
  | some (place, .file content) => return fileResponse 404 request place content
  | _ => throw .notFound

/-- The response to a request that the site owns. -/
def answer (files : Files) (folder : Place) (request : Request) :
    Except Interruption Response := do
  if request.method ≠ "GET" && request.method ≠ "HEAD" then
    throw (.refused 405 "Method Not Allowed" [])
  let parts := normalize (Path.partsOf request.path)
  match ← lookup files folder parts with
  | some (place, .file content) => return fileResponse 200 request place content
  | some (_, .directory) =>
    match ← lookup files folder (parts ++ [("index.html" : Text)]) with
    | some (place, .file content) =>
      if request.path.endsWith "/" then return fileResponse 200 request place content
      else return .redirect (Location.tidied (request.path ++ ("/" : Text)) request.query)
    | _ => missing files folder request
  | none => missing files folder request

end Abacus.Site
