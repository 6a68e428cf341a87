import Abacus.Text.Capital
import Abacus.Text.Quoted

/-!
# The log

Records have a severity and a message. A logger lets a record pass when its severity reaches the
logger's threshold, which is set by the name of a level.

* `Log.Record`, `Log.Record.text`: one record and its line.
* `Log.level?`: the number of a level name.
* `Logger.configure`: sets the threshold of a logger.
* `Logger.admits`: which records pass.
-/

namespace Abacus

namespace Log

/-- How severe a record is. -/
inductive Severity
  | info
  | warning
  | error
  deriving DecidableEq, Repr

namespace Severity

/-- The word of a severity. -/
def word : Severity → String
  | info => "INFO"
  | warning => "WARNING"
  | error => "ERROR"

/-- The number by which a severity is compared with a threshold. -/
def rank : Severity → Nat
  | info => 20
  | warning => 30
  | error => 40

end Severity

/-- A record of the log. -/
structure Record where
  severity : Severity
  message : Text
  deriving DecidableEq

/-- The line of a record. -/
def Record.text (r : Record) : Text :=
  Text.ofString r.severity.word ++ (" " : Text) ++ r.message

/-- A record for information. -/
def info (message : Text) : Record := ⟨.info, message⟩

/-- A record of a warning. -/
def warning (message : Text) : Record := ⟨.warning, message⟩

/-- A record of an error. -/
def error (message : Text) : Record := ⟨.error, message⟩

/-- The names of the levels and their numbers. -/
def levels : List (String × Nat) :=
  [("CRITICAL", 50), ("FATAL", 50), ("ERROR", 40), ("WARN", 30), ("WARNING", 30), ("INFO", 20),
    ("DEBUG", 10), ("NOTSET", 0)]

/-- The number of a level whose name is given in capitals. -/
def level? (name : Text) : Option Nat :=
  (levels.find? fun l => Text.ofString l.1 = name).map (·.2)

/-- The threshold that holds when none is set. -/
def inheritedThreshold : Nat := 30

end Log

/-- No level has this name. -/
structure UnknownLevel where
  name : Text
  deriving DecidableEq

/-- The wording of an unknown level. -/
def UnknownLevel.message (e : UnknownLevel) : Text :=
  ("Unknown level: " : Text) ++ Quoted.quote e.name

/-- A logger: how many handlers write its records, and the number of its level. -/
structure Logger where
  handlers : Nat
  level : Nat
  deriving DecidableEq, Repr

namespace Logger

/-- The name of the logger. -/
def name : String := "arithmetic_api"

/-- The logger before it is configured. -/
def fresh : Logger := ⟨0, 0⟩

/-- A logger with at least one handler. -/
def attached (l : Logger) : Logger := { l with handlers := max l.handlers 1 }

/-- Attaches a handler if there is none and sets the level with a given name, in any case. -/
def configure (l : Logger) (level : Text) : Except UnknownLevel Logger :=
  match Log.level? level.capitals with
  | some n => .ok { l.attached with level := n }
  | none => .error ⟨level.capitals⟩

/-- The logger as the program starts with it. -/
def standard : Logger := ⟨1, 20⟩

/-- The least severity that passes; a logger without a level of its own inherits one. -/
def threshold (l : Logger) : Nat := if l.level = 0 then Log.inheritedThreshold else l.level

/-- Whether a record passes. -/
def admits (l : Logger) (r : Log.Record) : Bool := l.threshold ≤ r.severity.rank

/-- The records that pass. -/
def filter (l : Logger) (records : List Log.Record) : List Log.Record := records.filter l.admits

end Logger

end Abacus
