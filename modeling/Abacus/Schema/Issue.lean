import Abacus.Text.Numeral

/-!
# Issues

What is wrong with a piece of data: where it stands and what kind of fault it is. Every kind has a
code and a wording.

* `Schema.Step`, `Issue`: a location is a list of names and indices.
* `Issue.Kind`, `Kind.code`, `Kind.message`: the kinds of faults.
-/

namespace Abacus

namespace Schema

/-- One step of a location. -/
inductive Step
  | name (t : Text)
  | index (n : Nat)
  deriving DecidableEq

end Schema

namespace Issue

/-- The kinds of faults. -/
inductive Kind
  | missing
  | floatType
  | floatParsing
  | finiteNumber
  | integerType
  | integerParsing
  | integerSize
  | integerFromFloat
  | greaterThan (bound : Int)
  | greaterThanEqual (bound : Int)
  | lessThanEqual (bound : Int)
  | textType
  /-- A text with a lone surrogate where a number or the name of a choice is expected. -/
  | textUnicode
  | listType
  | dictionaryType
  | tupleType
  | choice (listing : Text)
  | tooShort
  | recordType (record : String)
  | instanceOf (record : String)
  | address
  | pathType
  | pathNotDirectory
  | pathNotFile
  | frozen
  /-- A record that stands too deep inside others of its kind. -/
  | recursion
  deriving DecidableEq

namespace Kind

/-- The code of a kind. -/
def code : Kind → String
  | missing => "missing"
  | floatType => "float_type"
  | floatParsing => "float_parsing"
  | finiteNumber => "finite_number"
  | integerType => "int_type"
  | integerParsing => "int_parsing"
  | integerSize => "int_parsing_size"
  | integerFromFloat => "int_from_float"
  | greaterThan _ => "greater_than"
  | greaterThanEqual _ => "greater_than_equal"
  | lessThanEqual _ => "less_than_equal"
  | textType => "string_type"
  | textUnicode => "string_unicode"
  | listType => "list_type"
  | dictionaryType => "dict_type"
  | tupleType => "tuple_type"
  | choice _ => "enum"
  | tooShort => "too_short"
  | recordType _ => "model_type"
  | instanceOf _ => "is_instance_of"
  | address => "ip_any_address"
  | pathType => "path_type"
  | pathNotDirectory => "path_not_directory"
  | pathNotFile => "path_not_file"
  | frozen => "frozen_instance"
  | recursion => "recursion_loop"

/-- The wording of a kind. -/
def message : Kind → Text
  | missing => "Field required"
  | floatType => "Input should be a valid number"
  | floatParsing => "Input should be a valid number, unable to parse string as a number"
  | finiteNumber => "Input should be a finite number"
  | integerType => "Input should be a valid integer"
  | integerParsing => "Input should be a valid integer, unable to parse string as an integer"
  | integerSize => "Unable to parse input string as an integer, exceeded maximum size"
  | integerFromFloat => "Input should be a valid integer, got a number with a fractional part"
  | greaterThan bound => ("Input should be greater than " : Text) ++ Text.ofInt bound
  | greaterThanEqual bound =>
    ("Input should be greater than or equal to " : Text) ++ Text.ofInt bound
  | lessThanEqual bound => ("Input should be less than or equal to " : Text) ++ Text.ofInt bound
  | textType => "Input should be a valid string"
  | textUnicode => "Input should be a valid string, unable to parse raw data as a unicode string"
  | listType => "Input should be a valid list"
  | dictionaryType => "Input should be a valid dictionary"
  | tupleType => "Input should be a valid tuple"
  | choice listing => ("Input should be " : Text) ++ listing
  | tooShort => "Tuple should have at least 1 item after validation, not 0"
  | recordType record =>
    ("Input should be a valid dictionary or instance of " : Text) ++ Text.ofString record
  | instanceOf record => ("Input should be an instance of " : Text) ++ Text.ofString record
  | address => "value is not a valid IPv4 or IPv6 address"
  | pathType => "Input is not a valid path for <class 'pathlib.Path'>"
  | pathNotDirectory => "Path does not point to a directory"
  | pathNotFile => "Path does not point to a file"
  | frozen => "Instance is frozen"
  | recursion => "Recursion error - cyclic reference detected"

end Kind

end Issue

/-- A fault at a location. -/
structure Issue where
  location : List Schema.Step
  kind : Issue.Kind
  deriving DecidableEq

end Abacus
