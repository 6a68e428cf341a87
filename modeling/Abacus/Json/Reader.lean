import Abacus.Json.Token

/-!
# Reading JSON

The tokens of a text are read by a machine whose state says what may come next. It holds the
frames of the arrays and objects that are still open; their number is the nesting, which has a
limit. The first obstacle from the left ends the reading, whatever follows it.

* `DecodeError`, `DecodeError.message`: the obstacles and their wording.
* `Reader.State`, `Reader.step`: the machine.
* `ofText`: the value of a text.
-/

namespace Abacus.Json

/-- The most containers that may be open at once. A reader on a machine stack gives up at a depth of
its own; this one stands for any of them. -/
def nestingLimit : Nat := 1000

/-- A place in a text: line and column from one, offset from zero. -/
structure Position where
  line : Nat
  column : Nat
  offset : Nat
  deriving DecidableEq, Repr

namespace Position

/-- The place of an offset in a text. -/
def ofOffset (t : Text) (offset : Nat) : Position :=
  let before := t.take offset
  let lastLine := before.reverse.takeWhile fun (c : CodePoint) => c ≠ '\n'
  ⟨Text.occurrences '\n' before + 1, lastLine.length + 1, offset⟩

/-- The place in words. -/
def text (p : Position) : Text :=
  ("line " : Text) ++ Text.ofNat p.line ++ (" column " : Text) ++ Text.ofNat p.column ++
    (" (char " : Text) ++ Text.ofNat p.offset ++ (")" : Text)

end Position

/-- The two kinds of containers. -/
inductive Container
  | array
  | object
  deriving DecidableEq, Repr

/-- Why a JSON text has no value. -/
inductive DecodeError
  | malformed (fault : Fault) (position : Position)
  | integerTooLong (digits : Nat)
  /-- A container would be open inside too many others. -/
  | tooDeep (container : Container)
  /-- The bytes do not encode a text. -/
  | undecodable
  deriving DecidableEq, Repr

namespace Fault

/-- The wording of a fault. -/
def wording : Fault → String
  | byteOrderMark => "Unexpected UTF-8 BOM (decode using utf-8-sig)"
  | expectedValue => "Expecting value"
  | expectedName => "Expecting property name enclosed in double quotes"
  | expectedColon => "Expecting ':' delimiter"
  | expectedComma => "Expecting ',' delimiter"
  | extraData => "Extra data"
  | unterminatedText => "Unterminated string starting at"
  | controlCharacter => "Invalid control character at"
  | badEscape => "Invalid \\escape"
  | badUnicodeEscape => "Invalid \\uXXXX escape"

end Fault

namespace DecodeError

/-- The wording of a decoding error. -/
def message : DecodeError → Text
  | malformed fault position => Text.ofString fault.wording ++ (": " : Text) ++ position.text
  | integerTooLong digits =>
    ("Exceeds the limit (" : Text) ++ Text.ofNat Token.digitLimit ++
      (" digits) for integer string conversion: value has " : Text) ++ Text.ofNat digits ++
      (" digits; use sys.set_int_max_str_digits() to increase the limit" : Text)
  | tooDeep .array =>
    "maximum recursion depth exceeded while decoding a JSON array from a unicode string"
  | tooDeep .object =>
    "maximum recursion depth exceeded while decoding a JSON object from a unicode string"
  | undecodable => "the bytes are not well-formed in their encoding"

end DecodeError

namespace Reader

/-- A container that is still open; the items of an array are kept in reverse. -/
inductive Frame
  | array (reversed : List Value)
  | object (members : Members) (name : Text)

/-- What may come next. -/
inductive State
  /-- A value. -/
  | value (stack : List Frame)
  /-- A value or the end of the array just opened. -/
  | itemOrEnd (stack : List Frame)
  /-- A name or the end of the object just opened. -/
  | nameOrEnd (stack : List Frame)
  /-- A name, after a comma. -/
  | name (stack : List Frame) (members : Members)
  /-- A colon. -/
  | colon (stack : List Frame) (members : Members) (name : Text)
  /-- A comma, the end of a container, or the end of the text. -/
  | after (stack : List Frame) (value : Value)

/-- An obstacle: a fault at an offset, or one without a place. -/
inductive Obstacle
  | fault (fault : Fault) (offset : Nat)
  | integerTooLong (digits : Nat)
  | tooDeep (container : Container)

/-- The obstacle that a token fault is where a value is expected. -/
def obstacle (offset : Nat) : TokenFault → Obstacle
  | .unknown => .fault .expectedValue offset
  | .inText fault inner => .fault fault (offset + inner)
  | .integerTooLong digits => .integerTooLong digits

/-- Opens a container inside those of `stack`, unless too many are open. -/
def opening (stack : List Frame) (container : Container) (next : State) :
    Except Obstacle State :=
  if stack.length < nestingLimit then .ok next else .error (.tooDeep container)

/-- Reads a token where a value is expected. -/
def readValue (stack : List Frame) (t : Located) : Except Obstacle State :=
  match t.token with
  | .scalar v => .ok (.after stack v)
  | .text s => .ok (.after stack (.text s))
  | .openArray => opening stack .array (.itemOrEnd stack)
  | .openObject => opening stack .object (.nameOrEnd stack)
  | .fault f => .error (obstacle t.offset f)
  | _ => .error (.fault .expectedValue t.offset)

/-- Reads a token where the name of a member is expected. -/
def readName (stack : List Frame) (members : Members) (t : Located) : Except Obstacle State :=
  match t.token with
  | .text s => .ok (.colon stack members s)
  | .fault (.inText fault inner) => .error (.fault fault (t.offset + inner))
  | _ => .error (.fault .expectedName t.offset)

/-- Reads one token. -/
def step (state : State) (t : Located) : Except Obstacle State :=
  match state with
  | .value stack => readValue stack t
  | .itemOrEnd stack =>
    match t.token with
    | .closeArray => .ok (.after stack (.array []))
    | _ => readValue (.array [] :: stack) t
  | .nameOrEnd stack =>
    match t.token with
    | .closeObject => .ok (.after stack (.object []))
    | _ => readName stack [] t
  | .name stack members => readName stack members t
  | .colon stack members name =>
    match t.token with
    | .colon => .ok (.value (.object members name :: stack))
    | _ => .error (.fault .expectedColon t.offset)
  | .after [] _ => .error (.fault .extraData t.offset)
  | .after (.array items :: stack) v =>
    match t.token with
    | .comma => .ok (.value (.array (v :: items) :: stack))
    | .closeArray => .ok (.after stack (.array (v :: items).reverse))
    | _ => .error (.fault .expectedComma t.offset)
  | .after (.object members name :: stack) v =>
    match t.token with
    | .comma => .ok (.name stack (members.put name v))
    | .closeObject => .ok (.after stack (.object (members.put name v)))
    | _ => .error (.fault .expectedComma t.offset)

/-- The value at the end of the text, which has `size` code points. -/
def finish (size : Nat) : State → Except Obstacle Value
  | .after [] v => .ok v
  | .value _ => .error (.fault .expectedValue size)
  | .itemOrEnd _ => .error (.fault .expectedValue size)
  | .nameOrEnd _ => .error (.fault .expectedName size)
  | .name _ _ => .error (.fault .expectedName size)
  | .colon _ _ _ => .error (.fault .expectedColon size)
  | .after _ _ => .error (.fault .expectedComma size)

/-- Reads tokens up to the end of the text. -/
def run (size : Nat) (state : State) : List Located → Except Obstacle Value
  | [] => finish size state
  | t :: rest =>
    match step state t with
    | .ok next => run size next rest
    | .error e => .error e

/-- The decoding error that an obstacle in a text is. -/
def report (t : Text) : Obstacle → DecodeError
  | .fault fault offset => .malformed fault (Position.ofOffset t offset)
  | .integerTooLong digits => .integerTooLong digits
  | .tooDeep container => .tooDeep container

end Reader

/-- The value of a text that may begin with anything. -/
def ofDecoded (t : Text) : Except DecodeError Value :=
  match Reader.run t.length (.value []) (tokens t) with
  | .ok v => .ok v
  | .error e => .error (Reader.report t e)

/-- The value of a text, which must not begin with a byte order mark. -/
def ofText (t : Text) : Except DecodeError Value :=
  match t with
  | c :: _ =>
    if c.val = 0xFEFF then .error (.malformed .byteOrderMark (Position.ofOffset t 0))
    else ofDecoded t
  | [] => ofDecoded t

end Abacus.Json
