import Abacus.Program.Report

/-!
# The command line

Runs the program on the words of its command line. The files and directories that the words and
the environment name are read before the run, and the files that the run has made or changed are
written after it. A run answers its own calls and opens no connections to others.

* `Console.gather`: the files that a run can look at.
* `Console.store`: writes what a run has made or changed.
* `Console.report`: prints why a run ended early.
* `Console.run`: a run from its words to its status.
-/

namespace Abacus.Console

/-- The string of a text. -/
def string (t : Text) : String := String.ofList (t.map fun c => Char.ofNat c.val)

/-- A place as an absolute path. -/
def placeString (place : Place) : String := string (Path.mk [Path.separator] place).text

/-- The names that a word may hold: the word and what follows an equals sign in it. -/
def names (word : Text) : List Text := word :: (Text.cutAt '=' word).2.toList

/-- Files with what stands at a place added, if anything does. -/
def load (files : Files) (place : Place) : IO Files := do
  if ← ((← IO.currentDir) / placeString place).isDir then
    return files.add place .directory
  else
    try
      let data ← IO.FS.readBinFile (placeString place)
      return files.add place (.file (.bytes data.toList))
    catch _ => return files

/-- The places that a path leads through, and the one that it leads to. -/
def places (start : Place) (p : Path) : List Place :=
  (p.parts.foldl
    (fun (trail : List Place) (part : Text) =>
      let place := trail.headD start
      (if part = Path.up then place.dropLast else place ++ [part]) :: trail)
    []).reverse

/-- The files that a run can look at: those that some words name. -/
def gather (words : List Text) : IO Files := do
  let home := (Path.ofText (Text.ofString (← IO.currentDir).toString)).parts
  let start := { Files.empty.add home .directory with home := home }
  (words.flatMap names).foldlM
    (fun files name =>
      let p := Path.ofText name
      (places (if p.isAbsolute then [] else home) p).foldlM load files)
    start

/-- Writes the files that a run has made or changed. -/
def store (before after : Files) : IO Unit :=
  after.entries.forM fun (place, entry) =>
    match entry with
    | .file (.bytes data) =>
      if before.entry? place = some entry then pure ()
      else IO.FS.writeBinFile (placeString place) ⟨data.toArray⟩
    | _ => pure ()

/-- The variables of the environment that the program knows. -/
def environment : IO Environment :=
  Environment.known.filterMapM fun (_, name) => do
    return (← IO.getEnv name).map fun value => (Text.ofString name, Text.ofString value)

/-- Prints why a run ended early. -/
def report (e : ProgramError) : IO Unit := do
  IO.print (string (e.page?.getD []))
  e.lines.forM fun line => IO.eprintln (string line)

/-- Runs the program on the words of the command line; the status it ends with. -/
def run (args : List String) : IO UInt32 := do
  let words := args.map Text.ofString
  let env ← environment
  let files ← gather (words ++ env.map (·.2))
  let (outcome, s) := Program.run words env (Session.fresh files (.replies []) 0)
  store files s.files
  s.log.forM fun r => IO.eprintln (string r.text)
  match outcome with
  | .ok () => return 0
  | .error e =>
    report e
    return UInt32.ofNat e.status

end Abacus.Console

/-- Runs the program. -/
def main (args : List String) : IO UInt32 := Abacus.Console.run args
