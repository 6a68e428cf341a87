import Abacus.Json.Value
import Abacus.Number.Notation
import Abacus.Text.Quoted

/-!
# Showing JSON values in messages

A message shows a JSON value in a notation of its own: `None`, `True` and `False` for the three
words, quoted texts, and lists and dictionaries with a blank after each comma and colon.

* `Value.display`: the shown form.
* `Value.plainText`: the same, except that a text stands for itself.
* `Value.typeName`: the name of the kind of a value.
-/

namespace Abacus.Json.Value

mutual

/-- The form of a value in a message. -/
def display : Value → Text
  | .null => "None"
  | .bool b => if b then "True" else "False"
  | .int n => Text.ofInt n
  | .float x => Number.text x
  | .text t => Quoted.quote t
  | .array items => ("[" : Text) ++ displayItems items ++ ("]" : Text)
  | .object members => ("\x7b" : Text) ++ displayMembers members ++ ("\x7d" : Text)

/-- The items of a list. -/
def displayItems : List Value → Text
  | [] => []
  | [v] => display v
  | v :: rest => display v ++ (", " : Text) ++ displayItems rest

/-- The members of a dictionary. -/
def displayMembers : List (Text × Value) → Text
  | [] => []
  | [(name, v)] => Quoted.quote name ++ (": " : Text) ++ display v
  | (name, v) :: rest =>
    Quoted.quote name ++ (": " : Text) ++ display v ++ (", " : Text) ++ displayMembers rest

end

/-- A text as it is, and any other value as in a message. -/
def plainText : Value → Text
  | .text t => t
  | v => v.display

/-- The name of the kind of a value. -/
def typeName : Value → String
  | .null => "NoneType"
  | .bool _ => "bool"
  | .int _ => "int"
  | .float _ => "float"
  | .text _ => "str"
  | .array _ => "list"
  | .object _ => "dict"

end Abacus.Json.Value
