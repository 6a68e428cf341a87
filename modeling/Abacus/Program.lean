import Abacus.Client.Batch
import Abacus.Client.Readiness
import Abacus.CommandLine.Command
import Abacus.Server
import Abacus.Settings.Environment

/-!
# The program

The command that serves lays its values over the settings of the environment and starts a server.
The command that runs a file starts a server of its own in a process, waits for it, sends the file,
and stops the process, whatever happened before.

* `ProgramError`: what the program can end with.
* `Program.serve`, `Program.runFile`: the two commands.
* `Program.run`: the program on the words of a command line.
-/

namespace Abacus

/-- What the program can end with instead of doing its work. -/
inductive ProgramError
  | exit (e : CommandLine.Exit)
  /-- The environment gives no valid settings. -/
  | settings (issues : List Issue)
  /-- A path that the environment gives cannot be looked up. -/
  | inaccessible (e : AccessError)
  | level (e : UnknownLevel)
  | client (e : ClientError)
  /-- The input has no name from which the name of its results could be made. -/
  | nameless (input : Path)

namespace Program

/-- The settings of the environment under an overlay. -/
def settings (overlay : Overlay) (env : Environment) (files : Files) :
    Except AccessError (Checked Settings) := do
  match ← Settings.ofEnvironment files env with
  | .valid base => overlay.apply files base
  | .invalid issues => return .invalid issues

/-- Starts a server with the settings of the environment under an overlay. -/
def serve (overlay : Overlay) (env : Environment) (s : Session) :
    Except ProgramError Unit × Session :=
  match settings overlay env s.files with
  | .error e => (.error (.inaccessible e), s)
  | .ok (.invalid issues) => (.error (.settings issues), s)
  | .ok (.valid settings) =>
    let (outcome, s) := Server.start settings s
    (outcome.mapError .level, s)

/-- Waits for the server and sends a file. -/
def sendWhenReady (client : Client) (input output : Path) (s : Session) :
    Except ClientError Nat × Session :=
  match client.waitUntilReady Client.usualRetries Client.usualDelay s with
  | (.error e, s) => (.error e, s)
  | (.ok false, s) => (.error (.notStarted client.port), s)
  | (.ok true, s) => client.sendFile input output s

/-- Starts a process with a server at a port. -/
def startProcess (port : Nat) (s : Session) : Session :=
  (Server.start { Settings.standard with port := port } (s.note .start)).2

/-- Stops the process. -/
def stopProcess (s : Session) : Session := (s.note .terminate).note .join

/-- The record about results that were written. -/
def written (output : Path) : Log.Record :=
  Log.info (("✅ Results written to " : Text) ++ output.text)

/-- Runs a file of expressions against a server of its own. -/
def runFile (options : RunOptions) (s : Session) : Except ProgramError Unit × Session :=
  match options.input.results? with
  | none => (.error (.nameless options.input), s)
  | some output =>
    let client := { Client.standard with port := options.port }
    let (outcome, s) := sendWhenReady client options.input output (startProcess options.port s)
    let s := stopProcess s
    match outcome with
    | .error e => (.error (.client e), s)
    | .ok _ => (.ok (), s.record [written output])

/-- The program on the words of a command line. -/
def run (words : List Text) (env : Environment) (s : Session) :
    Except ProgramError Unit × Session :=
  match CommandLine.parse s.files words with
  | .error e => (.error (.exit e), s)
  | .ok (.serve overlay) => serve overlay env s
  | .ok (.run options) => runFile options s

end Program

end Abacus
