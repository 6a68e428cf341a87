import Abacus.CommandLine.Grammar
import Abacus.Settings.Overlay

/-!
# Commands

The program has two commands: one serves, the other runs a file of expressions. Their values are
checked like any other data.

* `Command`: a command with its checked values.
* `CommandLine.serve`, `CommandLine.run`: the grammars of the two.
* `CommandLine.parse`: the command that words give.
-/

namespace Abacus

/-- A command with its checked values. -/
inductive Command
  | serve (overlay : Overlay)
  | run (options : RunOptions)
  deriving DecidableEq

namespace CommandLine

/-- The flag that shows a help text. -/
def helpFlag : Flag := ⟨[("-h" : Text), ("--help" : Text)], .help, "help"⟩

/-- The name of the program. -/
def program : Text := "arithmetic-api"

/-- The page that lines make. -/
def page (lines : List Text) : Text := lines.flatMap fun line => line ++ ("\n" : Text)

/-- The words that stand in front of a command. -/
def top : Grammar :=
  ⟨program,
    page [
      "usage: arithmetic-api [-h] \x7bserve,run\x7d ...",
      "",
      "Arithmetic HTTP API",
      "",
      "positional arguments:",
      "  \x7bserve,run\x7d",
      "    serve      Run the HTTP API",
      "    run        Evaluate a file of JSON expressions end to end",
      "",
      "options:",
      "  -h, --help   show this help message and exit"],
    [helpFlag], ["command"]⟩

/-- The command that serves. -/
def serve : Grammar :=
  ⟨program ++ (" serve" : Text),
    page [
      "usage: arithmetic-api serve [-h] [--host HOST] [--port PORT]",
      "                            [--static-dir STATIC_DIR] [--max-depth MAX_DEPTH]",
      "",
      "options:",
      "  -h, --help            show this help message and exit",
      "  --host HOST           Interface to bind (default: 127.0.0.1)",
      "  --port PORT           TCP port to listen on (default: $PORT or 3000)",
      "  --static-dir STATIC_DIR",
      "                        Directory served at '/'",
      "  --max-depth MAX_DEPTH",
      "                        Maximum expression nesting (default: 64)"],
    [helpFlag, ⟨[("--host" : Text)], .text, "host"⟩, ⟨[("--port" : Text)], .integer, "port"⟩,
      ⟨[("--static-dir" : Text)], .text, "static_dir"⟩,
      ⟨[("--max-depth" : Text)], .integer, "max_depth"⟩],
    []⟩

/-- The command that runs a file of expressions. -/
def run : Grammar :=
  ⟨program ++ (" run" : Text),
    page [
      "usage: arithmetic-api run [-h] [--port PORT] file_path",
      "",
      "positional arguments:",
      "  file_path    Path to the file containing JSON expressions",
      "",
      "options:",
      "  -h, --help   show this help message and exit",
      "  --port PORT  TCP port of the temporary server"],
    [helpFlag, ⟨[("--port" : Text)], .integer, "port"⟩],
    ["file_path"]⟩

/-- The words up to a command: those left over, the name of the command, and its words. -/
def lead : List (Text × Word) → Except Exit (List Text × Text × List Text)
  | [] => .error (top.lacking top.operands)
  | (_, .unknown t) :: rest => do
    let (extras, name, words) ← lead rest
    return (t :: extras, name, words)
  | (_, .flag f written attached) :: _ => .error (top.helpExit f written attached)
  | (_, .separator) :: [] => .error (top.lacking top.operands)
  | (w, _) :: rest => .ok ([], w, rest.map (·.1))

/-- The exit after a name that is no command. -/
def unknownCommand (name : Text) : Exit :=
  top.misuse (("argument command: invalid choice: " : Text) ++ Quoted.quote name ++
    (" (choose from 'serve', 'run')" : Text))

/-- The value of a field as data. -/
def valueData : Value → Json.Value
  | .text t => .text t
  | .integer n => .int n
  | .nothing => .array []

/-- The value of a field as a member of an object; null if there is none. -/
def member (r : Grammar.Reading) (field : String) : Text × Json.Value :=
  (Text.ofString field, ((r.value? field).map valueData).getD .null)

/-- The members that are set. -/
def setMembers (r : Grammar.Reading) (fields : List String) : Json.Members :=
  fields.filterMap fun field => (r.value? field).map fun v => (Text.ofString field, valueData v)

/-- The outcome of a check, or the exit after one that failed or could not be made. -/
def checked {α : Type} (c : Except AccessError (Checked α)) : Except Exit α :=
  match c with
  | .ok (.valid a) => .ok a
  | .ok (.invalid issues) => .error (.invalid issues)
  | .error e => .error (.inaccessible e)

/-- Words that nobody took are a misuse. -/
def noExtras (extras : List Text) : Except Exit Unit :=
  if extras.isEmpty then .ok ()
  else
    .error (top.misuse (("unrecognized arguments: " : Text) ++ Text.joinWith " " extras))

/-- The command that words give. -/
def parse (files : Files) (words : List Text) : Except Exit Command := do
  let classes ← top.classify words
  let (extras, name, rest) ← lead (words.zip classes)
  if name = "serve" then
    let r ← serve.parse rest
    noExtras (extras ++ r.extras)
    let members := ["host", "port", "static_dir", "max_depth"].map (member r)
    return .serve (← checked (Overlay.ofData files members))
  else if name = "run" then
    let r ← run.parse rest
    noExtras (extras ++ r.extras)
    return .run (← checked (RunOptions.ofData files (setMembers r ["file_path", "port"])))
  else throw (unknownCommand name)

end CommandLine

end Abacus
