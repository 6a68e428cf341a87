import Abacus.CommandLine.Negative
import Abacus.Files
import Abacus.Schema.Issue
import Abacus.Text.Integer
import Abacus.Text.Quoted

/-!
# Grammars of command lines

A command has flags, some with a value, and operands. A flag may be cut short as long as it is
clear which one is meant, its value may follow an equals sign or be the next word, and after two
dashes every word is an operand. Words that nobody takes are handed back.

* `Flag`, `Grammar`: flags, and the flags and operands of a command.
* `Exit`: why a command line is not carried out.
* `Grammar.classify`: what each word is.
* `Grammar.parse`: the values of flags and operands, and the words left over.
-/

namespace Abacus.CommandLine

/-- What a flag is for. -/
inductive FlagKind
  /-- It shows a help text. -/
  | help
  /-- Its value is a text. -/
  | text
  /-- Its value is an integer. -/
  | integer
  deriving DecidableEq, Repr

/-- A flag: its names and the field that its value goes to. -/
structure Flag where
  names : List Text
  kind : FlagKind
  field : String
  deriving DecidableEq

/-- A command: what messages call it, its help text, its flags and its operands. -/
structure Grammar where
  program : Text
  help : Text
  flags : List Flag
  operands : List String

/-- Why a command line is not carried out. -/
inductive Exit
  /-- A help text was asked for. -/
  | help (text : Text)
  /-- The words make no sense to a command. -/
  | misuse (program message : Text)
  /-- The values are not valid. -/
  | invalid (issues : List Issue)
  /-- A path among the values cannot be looked up. -/
  | inaccessible (e : AccessError)
  deriving DecidableEq

/-- The value of a flag or an operand. -/
inductive Value
  | text (t : Text)
  | integer (n : Int)
  /-- Two dashes were attached to a flag; they are left out and leave no value. -/
  | nothing
  deriving DecidableEq

/-- What a word is. -/
inductive Word
  | operand (t : Text)
  /-- Two dashes. -/
  | separator
  /-- A flag as it is written, with a text attached to it. -/
  | flag (f : Flag) (written : Text) (attached : Option Text)
  /-- A word with a dash in front that is no flag. -/
  | unknown (t : Text)

namespace Exit

/-- The status with which the program ends. -/
def status : Exit → Nat
  | help _ => 0
  | inaccessible _ => 1
  | _ => 2

/-- The line that a misuse prints. -/
def line (program message : Text) : Text := program ++ (": error: " : Text) ++ message

end Exit

namespace Flag

/-- How messages call a flag. -/
def label (f : Flag) : Text := Text.joinWith "/" f.names

end Flag

namespace Grammar

/-- The exit after a misuse of a command. -/
def misuse (g : Grammar) (message : Text) : Exit := .misuse g.program message

/-- The exit after a misuse of a flag. -/
def misused (g : Grammar) (f : Flag) (message : Text) : Exit :=
  g.misuse (("argument " : Text) ++ f.label ++ (": " : Text) ++ message)

/-- The exit after words without operands that are required. -/
def lacking (g : Grammar) (names : List String) : Exit :=
  g.misuse (("the following arguments are required: " : Text) ++
    Text.joinWith ", " (names.map Text.ofString))

/-- The names of all flags, each with its flag. -/
def names (g : Grammar) : List (Text × Flag) :=
  g.flags.flatMap fun f => f.names.map fun name => (name, f)

/-- The flag with a given name. -/
def flag? (g : Grammar) (name : Text) : Option Flag := g.names.lookup name

/-! ## Classifying -/

/-- The flags that a word may be short for. -/
def candidates (g : Grammar) (w : Text) : List (Text × Flag × Option Text) :=
  if w.startsWith "--" then
    let (start, value) := Text.cutAt '=' w
    (g.names.filter fun n => n.1.startsWith start).map fun n => (n.1, n.2, value)
  else
    (g.names.filter fun n => n.1 = w.take 2).map fun n => (n.1, n.2, some (w.drop 2))

/-- What a word with a dash in front is that is no flag in full. -/
def classifyShort (g : Grammar) (w : Text) : Except Exit Word :=
  match g.candidates w with
  | [] =>
    .ok (if isNegativeNumber w || w.contains ' ' then .operand w else .unknown w)
  | [(name, f, attached)] => .ok (.flag f name attached)
  | several =>
    .error (g.misuse (("ambiguous option: " : Text) ++ w ++ (" could match " : Text) ++
      Text.joinWith ", " (several.map (·.1))))

/-- What a word is that stands before two dashes. -/
def classifyWord (g : Grammar) (w : Text) : Except Exit Word :=
  if !w.startsWith "-" || w.length ≤ 1 then .ok (.operand w)
  else
    match g.flag? w, Text.cutAt '=' w with
    | some f, _ => .ok (.flag f w none)
    | none, (name, some value) =>
      match g.flag? name with
      | some f => .ok (.flag f name (some value))
      | none => g.classifyShort w
    | none, (_, none) => g.classifyShort w

/-- What each word is. -/
def classify (g : Grammar) : List Text → Except Exit (List Word)
  | [] => .ok []
  | w :: rest =>
    if w = "--" then .ok (.separator :: rest.map .operand)
    else do
      let word ← g.classifyWord w
      let words ← g.classify rest
      return word :: words

/-! ## Parsing -/

/-- What was read from words: values of fields, and words left over. -/
structure Reading where
  values : List (String × Value)
  extras : List Text

namespace Reading

/-- Nothing. -/
def empty : Reading := ⟨[], []⟩

/-- With the value of a field in front. -/
def withValue (field : String) (v : Value) (r : Reading) : Reading :=
  { r with values := (field, v) :: r.values }

/-- With a word left over in front. -/
def withExtra (t : Text) (r : Reading) : Reading := { r with extras := t :: r.extras }

/-- The last value of a field. -/
def value? (r : Reading) (field : String) : Option Value := r.values.reverse.lookup field

end Reading

/-- The value that a text gives for a flag. -/
def convert (g : Grammar) (f : Flag) (t : Text) : Except Exit Value :=
  if t = "--" then .ok .nothing
  else
    match f.kind with
    | .integer =>
      match Text.integer? t with
      | some n => .ok (.integer n)
      | none => .error (g.misused f (("invalid int value: " : Text) ++ Quoted.quote t))
    | _ => .ok (.text t)

/-- The exit of a flag for help. After one dash its letter may be repeated; any other text that is
attached has no meaning. -/
def helpExit (g : Grammar) (f : Flag) (written : Text) : Option Text → Exit
  | none => .help g.help
  | some t => if written.startsWith "--" then ignored t else repeated t
where
  /-- The exit when a text follows the letter of the flag. -/
  repeated : Text → Exit
    | [] => ignored []
    | c :: rest =>
      if g.flag? [CodePoint.ofChar '-', c] = some f then
        if rest.isEmpty then .help g.help else repeated rest
      else ignored (c :: rest)
  /-- The exit when a text follows that has no meaning. -/
  ignored (t : Text) : Exit :=
    g.misused f (("ignored explicit argument " : Text) ++ Quoted.quote t)

/-- Reads words, of which the operands named first are still to come. -/
def read (g : Grammar) : (operands : List String) → List Word → Except Exit Reading
  | [], [] => .ok Reading.empty
  | operands, [] => .error (g.lacking operands)
  | operands, .unknown t :: rest => return (← g.read operands rest).withExtra t
  | operands, .flag f written attached :: rest =>
    match f.kind, attached with
    | .help, _ => .error (g.helpExit f written attached)
    | _, some t => do
      let v ← g.convert f t
      return (← g.read operands rest).withValue f.field v
    | _, none =>
      match rest with
      | .operand t :: rest => do
        let v ← g.convert f t
        return (← g.read operands rest).withValue f.field v
      | _ => .error (g.misused f "expected one argument")
  | name :: operands, .operand t :: .separator :: rest =>
    return (← g.read operands rest).withValue name (.text t)
  | name :: operands, .operand t :: rest =>
    return (← g.read operands rest).withValue name (.text t)
  | name :: operands, .separator :: .operand t :: rest =>
    return (← g.read operands rest).withValue name (.text t)
  | [], .operand t :: rest => return (← g.read [] rest).withExtra t
  | operands, .separator :: rest => return (← g.read operands rest).withExtra "--"

/-- The values and the words left over of a command. -/
def parse (g : Grammar) (words : List Text) : Except Exit Reading := do
  g.read g.operands (← g.classify words)

end Grammar

end Abacus.CommandLine
