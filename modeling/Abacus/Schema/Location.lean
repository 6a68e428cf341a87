import Abacus.Files
import Abacus.Schema.Checked

/-!
# Paths in data

A path is given as a text. Where a directory or a file is asked for, it has to be there. A path
that is too long to be looked up is no issue of the data: it keeps the check from being made.

* `Schema.path`: the check of a path.
* `Schema.existingDirectory`, `Schema.existingFile`: the checks of what a path leads to.
* `Schema.directory`, `Schema.file`: both in one.
-/

namespace Abacus.Schema

/-- A path. -/
def path : Json.Value → Checked Path
  | .text t => .valid (Path.ofText t)
  | _ => .issue .pathType

/-- A path that leads to a directory. -/
def existingDirectory (files : Files) (p : Path) : Except AccessError (Checked Path) :=
  return match ← files.find p with
    | some .directory => .valid p
    | _ => .issue .pathNotDirectory

/-- A path that leads to a file. -/
def existingFile (files : Files) (p : Path) : Except AccessError (Checked Path) :=
  return match ← files.find p with
    | some (.file _) => .valid p
    | _ => .issue .pathNotFile

/-- The path of a directory, or null. -/
def directory (files : Files) : Json.Value → Except AccessError (Checked (Option Path))
  | .null => .ok (.valid none)
  | v =>
    match path v with
    | .valid p => return (← existingDirectory files p).map some
    | .invalid issues => .ok (.invalid issues)

/-- The path of a file. -/
def file (files : Files) (v : Json.Value) : Except AccessError (Checked Path) :=
  match path v with
  | .valid p => existingFile files p
  | .invalid issues => .ok (.invalid issues)

end Abacus.Schema
