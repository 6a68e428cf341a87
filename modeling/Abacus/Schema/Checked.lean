import Abacus.Schema.Issue
import Abacus.Json.Value

/-!
# Checked data

The outcome of checking data: a value, or all the issues found. Checks that stand side by side
are all made, and their issues are listed in order.

* `Checked`: the outcome, an applicative functor that gathers issues.
* `Checked.within`: a check of a part, whose issues lie below the part.
* `Schema.required`, `Schema.optional`: the check of a member of an object.
* `Schema.requiredBy`, `Schema.optionalBy`: the same by a check that can fail to be made.
* `Schema.items`: the check of every item of a list.
-/

namespace Abacus

/-- The outcome of checking data. -/
inductive Checked (α : Type)
  | valid (value : α)
  | invalid (issues : List Issue)

namespace Checked

variable {α β : Type}

/-- The issues of an outcome. -/
def issues : Checked α → List Issue
  | valid _ => []
  | invalid issues => issues

/-- The value of an outcome. -/
def value? : Checked α → Option α
  | valid a => some a
  | invalid _ => none

/-- Applies a function to the value. -/
def map (f : α → β) : Checked α → Checked β
  | valid a => valid (f a)
  | invalid issues => invalid issues

/-- Applies a checked function to a checked value; the issues of both are listed. -/
def apply (f : Checked (α → β)) (x : Checked α) : Checked β :=
  match f with
  | valid f => x.map f
  | invalid issues => invalid (issues ++ x.issues)

instance : Applicative Checked where
  map := map
  pure := valid
  seq f x := apply f (x ())

/-- A further check of the value. -/
def andThen (x : Checked α) (f : α → Checked β) : Checked β :=
  match x with
  | valid a => f a
  | invalid issues => invalid issues

/-- An outcome with a single issue at the place checked. -/
def issue (kind : Issue.Kind) : Checked α := invalid [⟨[], kind⟩]

/-- The outcome with its issues moved below a step. -/
def within (step : Schema.Step) : Checked α → Checked α
  | valid a => valid a
  | invalid issues => invalid (issues.map fun i => { i with location := step :: i.location })

end Checked

namespace Schema

variable {α : Type}

/-- The member `name` of an object, which has to be there. -/
def required (members : Json.Members) (name : String) (check : Json.Value → Checked α) :
    Checked α :=
  (match members.get? name with
   | some v => check v
   | none => .issue .missing).within (.name name)

/-- The member `name` of an object, or a default. -/
def optional (members : Json.Members) (name : String) (default : α)
    (check : Json.Value → Checked α) : Checked α :=
  (match members.get? name with
   | some v => check v
   | none => .valid default).within (.name name)

/-- The member `name` of an object, which has to be there, by a check that can fail to be made. -/
def requiredBy {ε : Type} (members : Json.Members) (name : String)
    (check : Json.Value → Except ε (Checked α)) : Except ε (Checked α) :=
  match members.get? name with
  | some v => return (← check v).within (.name name)
  | none => .ok (Checked.within (.name name) (.issue .missing))

/-- The member `name` of an object, or a default, by a check that can fail to be made. -/
def optionalBy {ε : Type} (members : Json.Members) (name : String) (default : α)
    (check : Json.Value → Except ε (Checked α)) : Except ε (Checked α) :=
  match members.get? name with
  | some v => return (← check v).within (.name name)
  | none => .ok (.valid default)

/-- A value that may be null. -/
def nullable (check : Json.Value → Checked α) : Json.Value → Checked (Option α)
  | .null => .valid none
  | v => (check v).map some

/-- The items of a list from a given index on. -/
def itemsFrom (index : Nat) (check : Json.Value → Checked α) : List Json.Value → Checked (List α)
  | [] => .valid []
  | v :: rest =>
    List.cons <$> (check v).within (.index index) <*> itemsFrom (index + 1) check rest

/-- The items of a list. -/
def items (check : Json.Value → Checked α) : Json.Value → Checked (List α)
  | .array values => itemsFrom 0 check values
  | _ => .issue .listType

/-- A value that has to be an object, by a check that can fail to be made; `record` names what it
should be. -/
def membersBy {ε : Type} (record : String) (check : Json.Members → Except ε (Checked α)) :
    Json.Value → Except ε (Checked α)
  | .object members => check members
  | _ => .ok (.issue (.recordType record))

end Schema

end Abacus
