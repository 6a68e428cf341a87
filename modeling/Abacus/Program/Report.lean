import Abacus.Program

/-!
# Reports

What the program prints when it ends without doing its work, and the status it ends with.

* `ProgramError.page?`: the help text, which is no error.
* `ProgramError.lines`: the lines about an error.
* `ProgramError.status`: the status.
-/

namespace Abacus

/-- A step of a location as a report shows it. -/
def Schema.Step.text : Schema.Step → Text
  | name t => t
  | index n => Text.ofNat n

/-- The line about an issue. -/
def Issue.line (i : Issue) : Text :=
  Text.joinWith "." (i.location.map Schema.Step.text) ++ (": " : Text) ++ i.kind.message

/-- The wording of a file that cannot be used. -/
def AccessError.message : AccessError → Text
  | notFound => "No such file or directory"
  | notADirectory => "Not a directory"
  | isADirectory => "Is a directory"
  | nameTooLong => "File name too long"
  | unencodable => "A path cannot be encoded"
  | zeroCodePoint => "embedded null byte"
  | undecodable => "The file is not a text"

/-- The wording of an archive that gives no text. -/
def UnpackingError.report : UnpackingError → Text
  | malformed format => ("Not an archive of the format " : Text) ++ Text.ofString format.name
  | outside => "A member would be unpacked outside the directory"
  | access e => e.message
  | e => e.message

/-- The wording of a call that failed. -/
def ClientError.report : ClientError → Text
  | invalidAddress => "The address cannot be used"
  | unencodable => "A text cannot be encoded"
  | unreachable => "Nobody answers"
  | access e => e.message
  | unpacking e => e.report
  | e => e.message

namespace ProgramError

/-- The help text that was asked for, if that is how the program ends. -/
def page? : ProgramError → Option Text
  | exit (.help text) => some text
  | _ => none

/-- The lines about an error. -/
def lines : ProgramError → List Text
  | exit (.help _) => []
  | exit (.misuse program message) => [CommandLine.Exit.line program message]
  | exit (.invalid issues) => issues.map Issue.line
  | exit (.inaccessible e) => [e.message]
  | settings issues => issues.map Issue.line
  | inaccessible e => [e.message]
  | level e => [e.message]
  | client e => [e.report]
  | nameless input => [input.namelessMessage]

/-- The status with which the program ends. -/
def status : ProgramError → Nat
  | exit e => e.status
  | _ => 1

end ProgramError

end Abacus
