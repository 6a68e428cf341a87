import Abacus.Json.Value
import Abacus.Number.Notation

/-!
# JSON tokens

A JSON text is cut into tokens, each with the offset at which it starts. Where no token can be cut
a fault takes its place; whether and how the fault is reported is for the reader of the tokens to
say, since a token that is not even expected is reported as that.

* `Token`, `Lexeme`, `Located`: tokens, with the size of what they were cut from, with an offset.
* `Fault`, `TokenFault`: what can be wrong at an offset.
* `Token.scan`: the token at the front of a text.
* `tokens`: all tokens of a text.
-/

namespace Abacus.Json

/-- What is wrong with a JSON text at some place. -/
inductive Fault
  | byteOrderMark
  | expectedValue
  | expectedName
  | expectedColon
  | expectedComma
  | extraData
  | unterminatedText
  | controlCharacter
  | badEscape
  | badUnicodeEscape
  deriving DecidableEq, Repr

/-- Why no token could be cut. -/
inductive TokenFault
  /-- No token begins here. -/
  | unknown
  /-- Something inside a string, at an offset counted from its opening quote. -/
  | inText (fault : Fault) (offset : Nat)
  /-- An integer with more digits than may be converted. -/
  | integerTooLong (digits : Nat)
  deriving DecidableEq, Repr

/-- A token of JSON. -/
inductive Token
  | openArray
  | closeArray
  | openObject
  | closeObject
  | comma
  | colon
  | text (t : Text)
  | scalar (v : Value)
  | fault (f : TokenFault)

/-- A token and the number of code points after the first that belong to it. -/
structure Lexeme where
  token : Token
  extra : Nat

/-- A token and the offset at which it starts. -/
structure Located where
  token : Token
  offset : Nat

namespace Token

/-- The blanks that may stand between tokens. -/
def isSpace (c : CodePoint) : Bool := c = ' ' || c = '\t' || c = '\n' || c = '\r'

/-! ## Strings -/

/-- Where the scan of a string stands. -/
inductive Place
  /-- Between code points of the string. -/
  | plain
  /-- After a backslash. -/
  | escape
  /-- Inside the four digits of an escape whose letter stands at `start`. -/
  | hex (left value start : Nat)

/-- A code point of a string, by itself or from four hexadecimal digits. -/
inductive Piece
  | plain (c : CodePoint)
  | escaped (c : CodePoint)

/-- The code point of an escape of one letter. -/
def simpleEscape? (c : CodePoint) : Option CodePoint :=
  if c = '"' || c = '\\' || c = '/' then some c
  else if c = 'b' then some (CodePoint.ofNat 0x8)
  else if c = 'f' then some (CodePoint.ofNat 0xC)
  else if c = 'n' then some '\n'
  else if c = 'r' then some '\r'
  else if c = 't' then some '\t'
  else none

/--
The pieces of a string up to its closing quote and the number of code points read with it.
`offset` counts from the opening quote. Four digits at the very end of the text are a fault of the
escape, not of the missing quote.
-/
def scanPieces (offset : Nat) : Place → Text → Except TokenFault (List Piece × Nat)
  | .plain, [] => .error (.inText .unterminatedText 0)
  | .escape, [] => .error (.inText .unterminatedText 0)
  | .hex _ _ start, [] => .error (.inText .badUnicodeEscape start)
  | .plain, c :: rest =>
    if c = '"' then .ok ([], offset)
    else if c = '\\' then scanPieces (offset + 1) .escape rest
    else if c.val ≤ 0x1F then .error (.inText .controlCharacter offset)
    else do
      let (pieces, size) ← scanPieces (offset + 1) .plain rest
      return (.plain c :: pieces, size)
  | .escape, c :: rest =>
    if c = 'u' then scanPieces (offset + 1) (.hex 4 0 offset) rest
    else
      match simpleEscape? c with
      | none => .error (.inText .badEscape (offset - 1))
      | some d => do
        let (pieces, size) ← scanPieces (offset + 1) .plain rest
        return (.plain d :: pieces, size)
  | .hex left value start, c :: rest =>
    match c.hexValue? with
    | none => .error (.inText .badUnicodeEscape start)
    | some digit =>
      let value := value * 16 + digit
      if 1 < left then scanPieces (offset + 1) (.hex (left - 1) value start) rest
      else if rest.isEmpty then .error (.inText .badUnicodeEscape start)
      else do
        let (pieces, size) ← scanPieces (offset + 1) .plain rest
        return (.escaped (CodePoint.ofNat value) :: pieces, size)

/-- The text of pieces: two escapes in a row that are the halves of a surrogate pair join. -/
def joinPieces : List Piece → Text
  | [] => []
  | .plain c :: rest => c :: joinPieces rest
  | [.escaped c] => [c]
  | .escaped a :: .plain b :: rest => a :: b :: joinPieces rest
  | .escaped a :: .escaped b :: rest =>
    if a.isHighSurrogate && b.isLowSurrogate then CodePoint.ofSurrogatePair a b :: joinPieces rest
    else a :: joinPieces (.escaped b :: rest)

/-- The string whose opening quote stands before `rest`. -/
def scanText (rest : Text) : Lexeme :=
  match scanPieces 1 .plain rest with
  | .ok (pieces, size) => ⟨.text (joinPieces pieces), size⟩
  | .error f => ⟨.fault f, rest.length⟩

/-! ## Numbers -/

/-- The most digits an integer may have. -/
def digitLimit : Nat := 4300

/-- The digits before the point at the front of a text: a zero stands alone. -/
def scanWhole (t : Text) : Text :=
  match t with
  | [] => []
  | c :: _ => if c = '0' then [c] else (Text.spanDigits t).1

/-- A point with digits after it at the front of a text. -/
def scanFraction (t : Text) : Option Text :=
  match Number.Numeral.scanFraction t with
  | (some digits, _) => if digits.isEmpty then none else some digits
  | (none, _) => none

/-- The number at the front of a text. -/
def scanNumber (t : Text) : Option (Token × Nat) :=
  let negative := t.startsWith "-"
  let signSize := if negative then 1 else 0
  let t := t.drop signSize
  let whole := scanWhole t
  if whole.isEmpty then none
  else
    let t := t.drop whole.length
    let fraction := scanFraction t
    let fractionSize := match fraction with
      | some digits => digits.length + 1
      | none => 0
    let t := t.drop fractionSize
    let (exponent, rest) := Number.Numeral.scanExponent t
    let size := signSize + whole.length + fractionSize + (t.length - rest.length)
    let token :=
      if fraction.isNone && exponent.isNone then
        if digitLimit < whole.length then .fault (.integerTooLong whole.length)
        else
          let n : Int := Text.digitsValue whole
          .scalar (.int (if negative then -n else n))
      else
        let sign := if negative then some (CodePoint.ofChar '-') else none
        .scalar (.float (Number.Numeral.value ⟨sign, whole, fraction, exponent⟩))
    some (token, size)

/-! ## Tokens -/

/-- The words of JSON and their values. -/
def words : List (String × Value) :=
  [("null", .null), ("true", .bool true), ("false", .bool false), ("NaN", .float Number.nan),
    ("Infinity", .float Number.infinity),
    ("-Infinity", .float (Number.ofParts true Number.Nearest.infinity))]

/-- The token at the front of `c :: rest`, where `c` is no blank. -/
def scan (c : CodePoint) (rest : Text) : Lexeme :=
  if c = '[' then ⟨.openArray, 0⟩
  else if c = ']' then ⟨.closeArray, 0⟩
  else if c = '\x7b' then ⟨.openObject, 0⟩
  else if c = '\x7d' then ⟨.closeObject, 0⟩
  else if c = ',' then ⟨.comma, 0⟩
  else if c = ':' then ⟨.colon, 0⟩
  else if c = '"' then scanText rest
  else
    match words.find? fun w => Text.startsWith (c :: rest) (Text.ofString w.1) with
    | some (word, v) => ⟨.scalar v, word.length - 1⟩
    | none =>
      match scanNumber (c :: rest) with
      | some (token, size) => ⟨token, size - 1⟩
      | none => ⟨.fault .unknown, 0⟩

end Token

/-- The tokens of a text that starts at `offset`. -/
def tokensFrom (offset : Nat) : Text → List Located
  | [] => []
  | c :: rest =>
    if Token.isSpace c then tokensFrom (offset + 1) rest
    else
      let lexeme := Token.scan c rest
      ⟨lexeme.token, offset⟩ :: tokensFrom (offset + 1 + lexeme.extra) (rest.drop lexeme.extra)
termination_by t => t.length
decreasing_by
  · simp
  · simp only [List.length_drop, List.length_cons]; omega

/-- The tokens of a text. -/
def tokens (t : Text) : List Located := tokensFrom 0 t

end Abacus.Json
