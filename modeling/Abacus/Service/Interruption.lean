import Abacus.Answer
import Abacus.Expression.Evaluation
import Abacus.Expression.Validation
import Abacus.Http.Message
import Abacus.Http.Status
import Abacus.Log
import Abacus.Operand

/-!
# Interruptions

What keeps the service from answering a request as asked. A rejection is the caller's fault and
is answered with its message; a refusal has a status of its own; after a crash the answer says no
more than that there was one. Unknown paths and wrong methods are refused alike. A refusal in words
that cannot be written ends in a crash.

* `Interruption`, `Interruption.response`, `Interruption.records`: answer and log of each.
* `Interruption.settled`: an interruption as it comes to be answered.
* `Interruption.conclude`: the response to a request and the records of the log.
-/

namespace Abacus

/-- What keeps the service from answering a request. -/
inductive Interruption
  | rejected (rejection : Rejection)
  /-- A refusal with a status and headers. -/
  | refused (status : Nat) (detail : Text) (headers : List (Text × Text))
  /-- Something unforeseen, in the form in which the log shows it. -/
  | crashed (cause : Text)
  deriving DecidableEq

namespace Interruption

/-- The message for unknown paths and wrong methods. -/
def notFoundMessage : Text := "This endpoint does not exists."

/-- The message after a crash. -/
def crashMessage : Text := "Internal server error."

/-- The refusal of an unknown path. -/
def notFound : Interruption := refused 404 "Not Found" []

/-- A crash with a cause of a given kind and a message. -/
def crash (kind : String) (message : Text) : Interruption :=
  crashed (Text.ofString kind ++ ("(" : Text) ++ Quoted.quote message ++ (")" : Text))

/-- A refusal in the words given or, without any, in the phrase of its status; a status without a
phrase needs words. -/
def refusal (status : Nat) (detail : Option Text) (headers : List (Text × Text)) : Interruption :=
  match detail.or (Status.phrase? status) with
  | some words => refused status words headers
  | none => crash "ValueError" (Text.ofNat status ++ (" is not a valid HTTPStatus" : Text))

/-- The value of the last header with a name, whatever the case of the name. -/
def header? (headers : List (Text × Text)) (name : Text) : Option Text :=
  (headers.reverse.find? fun h => h.1.asciiLower = name).map (·.2)

/-- What the body is under given headers. -/
def media (headers : List (Text × Text)) : Media :=
  match header? headers "content-type" with
  | some kind => if kind.startsWith "application/json" then .json else .other
  | none => .json

/-- The response that reports a failure. -/
def report (status : Nat) (message : Text) : Response :=
  .json status (.object (Failure.mk message).toData)

/-- The crash over a text with code points that an encoding lacks, if there are any. The cause names
the encoding, the text, where the first run of such code points begins and ends, and a reason. -/
def unwritable? (encoding reason : String) (lacks : CodePoint → Bool) (t : Text) :
    Option Interruption :=
  let start := (t.takeWhile fun c => !lacks c).length
  let run := ((t.drop start).takeWhile lacks).length
  if run = 0 then none
  else
    some (crashed (("UnicodeEncodeError(" : Text) ++
      Text.joinWith ", " [Quoted.quote (Text.ofString encoding), Quoted.quote t, Text.ofNat start,
        Text.ofNat (start + run), Quoted.quote (Text.ofString reason)] ++ (")" : Text)))

/-- The crash over a body that cannot be written, if it cannot. -/
def unwritableBody? (message : Text) : Option Interruption :=
  unwritable? "utf-8" "surrogates not allowed" CodePoint.isSurrogate
    (Json.Value.write Json.compact (.object (Failure.mk message).toData))

/-- The crash over the name or the value of a header, which has one byte for each code point. -/
def unwritableHeader? (t : Text) : Option Interruption :=
  unwritable? "latin-1" "ordinal not in range(256)" (fun c => 256 ≤ c.val) t

/-- An interruption as it comes to be answered: a refusal whose body or headers cannot be written
turns into a crash. -/
def settled : Interruption → Interruption
  | refused status detail headers =>
    let i := refused status detail headers
    if status = 404 || status = 405 then i
    else
      ((unwritableBody? detail).or
        (headers.findSome? fun h =>
          (unwritableHeader? h.1.asciiLower).or (unwritableHeader? h.2))).getD i
  | i => i

/-- The response to an interrupted request. -/
def response : Interruption → Response
  | rejected r => report 400 r.message
  | refused status detail headers =>
    if status = 404 || status = 405 then report 404 notFoundMessage
    else
      { report status detail with
        media := media headers
        location := header? headers "location" }
  | crashed _ => report 500 crashMessage

/-- The records of the log about an interrupted request. -/
def records (request : Request) : Interruption → List Log.Record
  | rejected r =>
    [Log.warning (("⚠️ " : Text) ++ request.method ++ (" " : Text) ++ request.shownPath ++
      (" rejected (" : Text) ++ Text.ofString r.kind.code ++ ("): " : Text) ++ r.message)]
  | refused _ _ _ => []
  | crashed cause =>
    [Log.error (("💥 " : Text) ++ request.method ++ (" " : Text) ++ request.shownPath ++
      (" failed: " : Text) ++ cause)]

/-- The interruption by two texts that are no operands. -/
def ofOperandError : OperandError → Interruption
  | .invalid => rejected (Rejection.plain .invalidParameters)
  | .unreadable t =>
    crash "ValueError" (("could not convert string to float: " : Text) ++ Quoted.quote t)

/-- The interruption by an expression without a value. -/
def ofEvaluationError (e : EvaluationError) : Interruption :=
  match e.rejection? with
  | some r => rejected r
  | none => crash "ZeroDivisionError" "float division by zero"

/-- The interruption by a value that is no expression. -/
def ofValidationError (e : ValidationError) : Interruption := rejected e.rejection

end Interruption

/-- The response to a request and the records of the log. -/
def Interruption.conclude (request : Request) (outcome : Except Interruption Response) :
    Response × List Log.Record :=
  match outcome with
  | .ok response => (response, [])
  | .error i => (i.settled.response, i.settled.records request)

end Abacus
