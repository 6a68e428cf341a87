import Abacus.Http.Percent

/-!
# Forms

A query is a form: fields with ampersands between them, each a name, an equals sign and a value.
A plus sign stands for a blank.

* `Form.encode`: the text of fields.
* `Form.decode`: the fields of a query; a field without an equals sign has an empty value.
* `Form.value?`: the last value of a name.
-/

namespace Abacus.Form

/-- Names and values. -/
abbrev Fields := List (Text × Text)

/-- A name or a value: a blank becomes a plus sign. -/
def encodePart (t : Text) : Text :=
  (Percent.encode (fun c => Percent.isUnreserved c || c = ' ') t).map fun (c : CodePoint) =>
    if c = ' ' then CodePoint.ofChar '+' else c

/-- The text of fields. -/
def encode (fields : Fields) : Text :=
  Text.joinWith "&" (fields.map fun f => encodePart f.1 ++ ("=" : Text) ++ encodePart f.2)

/-- The name or value that is written. -/
def decodePart (t : Text) : Text :=
  Percent.decode (t.map fun (c : CodePoint) => if c = '+' then CodePoint.ofChar ' ' else c)

/-- The field that is written. -/
def decodeField (t : Text) : Text × Text :=
  let (name, value) := Text.cutAt '=' t
  (decodePart name, decodePart (value.getD []))

/-- The fields of a query given as bytes; every byte counts as a code point. -/
def decode (query : Bytes) : Fields :=
  ((Text.splitOn '&' (query.map Percent.ofByte)).filter fun field => !field.isEmpty).map decodeField

/-- The last value of a name. -/
def value? (fields : Fields) (name : Text) : Option Text := fields.reverse.lookup name

end Abacus.Form
