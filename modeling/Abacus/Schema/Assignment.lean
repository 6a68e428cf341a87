import Abacus.Json.Value
import Abacus.Schema.Issue
import Abacus.Text.Utf8

/-!
# Assigning to records

A name with an underscore in front stands for a note that is kept beside a record, so that an
assignment to it is taken and changes no field. A record that is frozen refuses every other
assignment. Any other record takes those to its fields, with any value.

* `Schema.Shape`: the name and the fields of a record, and whether it is frozen.
* `Schema.Shape.assign`: the fields of a record after an assignment, if it is taken.
* `AssignmentError`, `AssignmentError.message`: why it is not.
-/

namespace Abacus

/-- Why an assignment to a record is refused. -/
inductive AssignmentError
  | frozen (field : Text)
  /-- The name stands for something that is worked out from the record. -/
  | readOnly (record : String) (field : Text)
  | unknownField (record : String) (field : Text)
  deriving DecidableEq

namespace AssignmentError

/-- The issue that a refused assignment is reported as, if it is one. A location is shown as it
reads after its bytes were sent, so that no lone surrogate is left in it. -/
def issue? : AssignmentError → Option Issue
  | frozen field => some ⟨[.name (Utf8.decodeReplacing (Utf8.encodeLone field))], .frozen⟩
  | _ => none

/-- The wording of a refused assignment. -/
def message : AssignmentError → Text
  | frozen _ => Issue.Kind.frozen.message
  | readOnly record field =>
    ("property '" : Text) ++ field ++ ("' of '" : Text) ++ Text.ofString record ++
      ("' object has no setter" : Text)
  | unknownField record field =>
    ("\"" : Text) ++ Text.ofString record ++ ("\" object has no field \"" : Text) ++ field ++
      ("\"" : Text)

end AssignmentError

namespace Schema

/-- The name and the fields of a record, and whether it is frozen. -/
structure Shape where
  record : String
  fields : List Text
  isFrozen : Bool
  deriving DecidableEq

namespace Shape

/-- The names of what is worked out from every record. -/
def derived : List Text := [("model_extra" : Text), ("model_fields_set" : Text)]

/-- The fields of a record after an assignment, if it is taken. -/
def assign (s : Shape) (values : Json.Members) (field : Text) (value : Json.Value) :
    Except AssignmentError Json.Members :=
  if field.startsWith "_" then .ok values
  else if s.isFrozen then .error (.frozen field)
  else if derived.contains field then .error (.readOnly s.record field)
  else if s.fields.contains field then .ok (values.put field value)
  else .error (.unknownField s.record field)

end Shape

end Schema

end Abacus
