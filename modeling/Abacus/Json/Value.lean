import Abacus.Text

/-!
# JSON values

A JSON value keeps integers and floating-point numbers apart. The members of an object stand in
the order in which their names first occurred; a later value for a name replaces the earlier one.

* `Json.Value`, `Json.Members`: values and the members of an object.
* `Members.put`, `Members.get?`: replacing or appending a member, and looking one up.
* `Value.floatsFinite`: whether a value holds no infinity and no NaN.
-/

namespace Abacus.Json

/-- A decoded JSON value. -/
inductive Value
  | null
  | bool (b : Bool)
  | int (n : Int)
  | float (x : Float)
  | text (t : Text)
  | array (items : List Value)
  | object (members : List (Text × Value))
  deriving Inhabited

/-- The members of an object. -/
abbrev Members := List (Text × Value)

namespace Members

/-- Sets the value of `name`: in its place if the name is there, else at the end. -/
def put (name : Text) (value : Value) : Members → Members
  | [] => [(name, value)]
  | (n, v) :: rest => if n = name then (n, value) :: rest else (n, v) :: put name value rest

/-- The value of `name`. -/
def get? (members : Members) (name : Text) : Option Value := members.lookup name

/-- Whether `name` has a value. -/
def has (members : Members) (name : Text) : Bool := (members.get? name).isSome

end Members

namespace Value

/-- The value of a member, if this is an object that has it. -/
def get? (v : Value) (name : Text) : Option Value :=
  match v with
  | .object members => Members.get? members name
  | _ => none

mutual

/-- Whether a value holds no infinity and no NaN. -/
def floatsFinite : Value → Bool
  | .float x => x.isFinite
  | .array items => itemsFinite items
  | .object members => membersFinite members
  | _ => true

/-- Whether the items hold no infinity and no NaN. -/
def itemsFinite : List Value → Bool
  | [] => true
  | v :: rest => floatsFinite v && itemsFinite rest

/-- Whether the members hold no infinity and no NaN. -/
def membersFinite : List (Text × Value) → Bool
  | [] => true
  | (_, v) :: rest => floatsFinite v && membersFinite rest

end

end Value

end Abacus.Json
