import Abacus.Client.Question
import Abacus.Text.Line

/-!
# Batches

A batch is a file with an expression on each line, as it is or in an archive. The client sends the
lines one by one and writes one record for each: the line with its result, or with the message of
its error. A line that is no JSON is not sent. The first failure ends the batch; the records before
it stay.

* `Batch.content`: the text of a batch.
* `Batch.record`: the record for a line.
* `Batch.run`: the records for lines.
* `Client.sendFile`: a batch from a file to a file.
-/

namespace Abacus

namespace Batch

/-- The text of the batch at a path. -/
def content (files : Files) (input : Path) : Except ClientError Text :=
  if Unpacking.expressionSuffixes.contains input.suffix then
    (files.readText input).mapError .access
  else (Unpacking.unpack files input).mapError .unpacking

/-- What a record says of the reply to a line. -/
def outcome (reply : Json.Value) : Except ClientError Text :=
  match reply with
  | .object members =>
    match Json.Members.get? members "result" with
    | some v => .ok ((" = " : Text) ++ v.plainText)
    | none =>
      match Json.Members.get? members "error" with
      | some v => .ok ((" -> ERROR: " : Text) ++ v.plainText)
      | none => .error .noError
  | v => .error (.notAnObject v)

/-- What a record says of a line that is no JSON. -/
def invalidOutcome : Text := " -> ERROR: Invalid JSON expression"

/-- A record of a line and its outcome. -/
def format (line outcome : Text) : Text := line ++ outcome ++ ("\n" : Text)

/-- The log record about a line that is no JSON. -/
def invalidLine (number : Nat) (line : Text) : Log.Record :=
  Log.error (("📄❌ Line " : Text) ++ Text.ofNat number ++ (" is not valid JSON: " : Text) ++
    Quoted.quote line)

/-- Whether a line is JSON. -/
def isValid (line : Text) : Bool := (Json.ofText line).toOption.isSome

/-- The record for the reply to a line, if it can be written. -/
def replyRecord (line : Text) (reply : Json.Value) : Except ClientError Text := do
  let record := format line (← outcome reply)
  if record.any CodePoint.isSurrogate then throw .unencodable else return record

/-- The record for a line, which has a number, and the session afterwards. -/
def record (url : Url) (number : Nat) (line : Text) (s : Session) :
    Except ClientError Text × Session :=
  if isValid line then
    let (reply, s) := Client.send (Question.calculation url (Utf8.encodeLone line)) s
    (reply.bind (replyRecord line), s)
  else (.ok (format line invalidOutcome), s.record [invalidLine number line])

/-- What became of the lines of a batch. -/
structure Progress where
  /-- The records up to the first failure. -/
  records : List Text
  /-- The failure, if there was one. -/
  failure : Option ClientError
  session : Session

/-- The records for lines, the first of which has a given number. -/
def run (url : Url) (number : Nat) : List Text → Session → Progress
  | [], s => ⟨[], none, s⟩
  | line :: rest, s =>
    match record url number line s with
    | (.error e, s) => ⟨[], some e, s⟩
    | (.ok record, s) =>
      let later := run url (number + 1) rest s
      { later with records := record :: later.records }

/-- The log record about a batch that was sent. -/
def sent (count : Nat) (output : Path) : Log.Record :=
  Log.info (("✉️ " : Text) ++ Text.ofNat count ++
    (" expressions sent, results written to " : Text) ++ output.text)

end Batch

namespace Client

/-- Sends lines and writes their records to a place; the number of lines. -/
def sendLines (url : Url) (lines : List Text) (output : Path) (place : Place) (s : Session) :
    Except ClientError Nat × Session :=
  let progress := Batch.run url 1 lines s
  let s := { progress.session with
    files := progress.session.files.write place progress.records.flatten }
  match progress.failure with
  | some e => (.error e, s)
  | none => (.ok lines.length, s.record [Batch.sent lines.length output])

/-- Sends the lines of a file and writes their records to another; the number of lines. -/
def sendFile (c : Client) (input output : Path) (s : Session) :
    Except ClientError Nat × Session :=
  match Batch.content s.files input with
  | .error e => (.error e, s)
  | .ok content =>
    match c.connect s with
    | .error e => (.error e, s)
    | .ok (url, s) =>
      match s.files.target output with
      | .error e => (.error (.access e), s)
      | .ok place => sendLines url content.entries output place s

end Client

end Abacus
