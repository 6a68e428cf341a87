import Mathlib
import Abacus.Expression.Evaluation
import Abacus.Expression.Validation
import Abacus.Proofs.Text.Printable

/-!
# Messages of rejections

They are printable, so that they can be written and stay on one line, and what is wrong with an
expression is never said in the words for a body that holds none.

* `Json.Value.printable_display`: the form of a value in a message, by recursion on the value;
* `printable_validation`, `printable_evaluation`: the messages of the rejections that the validation
  and the evaluation of an expression end in;
* `unread`, `message_validation_ne`, `message_evaluation_ne`: the kinds of rejections of a body
  without a value, and that those messages are not theirs.
-/

namespace Abacus

open Text (printable_nil printable_ofString printable_ofInt)

namespace Json.Value

mutual

/-- **The form of a value in a message is printable**, whatever texts it holds. -/
theorem printable_display : ∀ v : Value, v.display.Printable
  | .null => by rw [display]; exact printable_ofString _
  | .bool b => by
    rw [display]
    cases b
    · exact printable_ofString _
    · exact printable_ofString _
  | .int n => by rw [display]; exact printable_ofInt n
  | .float x => by rw [display]; exact Number.printable_text x
  | .text t => by rw [display]; exact Quoted.printable_quote t
  | .array items => by
    rw [display]
    exact ((printable_ofString _).append (printable_displayItems items)).append
      (printable_ofString _)
  | .object members => by
    rw [display]
    exact ((printable_ofString _).append (printable_displayMembers members)).append
      (printable_ofString _)

theorem printable_displayItems : ∀ items : List Value, (displayItems items).Printable
  | [] => by rw [displayItems]; exact printable_nil
  | [v] => by rw [displayItems]; exact printable_display v
  | v :: w :: items => by
    rw [displayItems]
    · exact ((printable_display v).append (printable_ofString _)).append
        (printable_displayItems (w :: items))
    · simp

theorem printable_displayMembers :
    ∀ members : List (Text × Value), (displayMembers members).Printable
  | [] => by rw [displayMembers]; exact printable_nil
  | [(name, v)] => by
    rw [displayMembers]
    exact ((Quoted.printable_quote name).append (printable_ofString _)).append
      (printable_display v)
  | (name, v) :: m :: members => by
    rw [displayMembers]
    · exact ((((Quoted.printable_quote name).append (printable_ofString _)).append
        (printable_display v)).append (printable_ofString _)).append
        (printable_displayMembers (m :: members))
    · simp

end

end Json.Value

namespace Rejection

theorem printable_ofKind (kind : Kind) {message : Text} (h : message.Printable) :
    (ofKind kind message).message.Printable := by
  rw [ofKind]
  dsimp only
  split_ifs
  · cases kind <;> exact printable_ofString _
  · exact h

theorem printable_plain (kind : Kind) : (plain kind).message.Printable :=
  printable_ofKind kind printable_nil

theorem printable_name (op : Operator) : (Text.ofString op.name).Printable := by
  cases op <;> exact printable_ofString _

theorem printable_listing : Operator.listing.Printable := by
  refine Text.printable_joinWith (printable_ofString _) fun t ht => ?_
  obtain ⟨op, -, rfl⟩ := List.mem_map.1 ht
  exact printable_name op

/-- **The message about a value that is no expression is printable.** -/
theorem printable_validation (e : ValidationError) : e.rejection.message.Printable := by
  cases e with
  | notANodeOrNumber => exact printable_plain _
  | unsupportedOperator op =>
    exact printable_ofKind _ ((((printable_ofString _).append op.printable_display).append
      (printable_ofString _)).append printable_listing)
  | emptyArguments op =>
    exact printable_ofKind _ (((printable_ofString _).append (printable_name op)).append
      (printable_ofString _))
  | argumentsNotASequence op =>
    exact printable_ofKind _ (((printable_ofString _).append (printable_name op)).append
      (printable_ofString _))
  | depthLimitExceeded limit =>
    exact printable_ofKind _ (((printable_ofString _).append
      (printable_ofInt limit)).append (printable_ofString _))

/-- The message about an expression without a value is printable. -/
theorem printable_evaluation {e : EvaluationError} {r : Rejection} (h : e.rejection? = some r) :
    r.message.Printable := by
  cases e <;> cases h <;> exact printable_plain _

/-! ## Bodies without a value -/

/-- The kinds of rejections of a body in which no value is found. -/
def unread : List Kind := [.missingExpression, .invalidBody]

/-- A message that begins otherwise is another message. -/
theorem message_ofKind_ne {kind : Kind} {opening t : Text} (hne : opening ≠ [])
    (h : opening.head? ≠ t.head?) (rest : Text) : (ofKind kind (opening ++ rest)).message ≠ t := by
  have happend : (opening ++ rest).isEmpty = false :=
    List.isEmpty_eq_false_iff.2 (List.append_ne_nil_of_left_ne_nil hne _)
  rintro rfl
  rw [ofKind, happend, if_neg Bool.false_ne_true, List.head?_append_of_ne_nil _ hne] at h
  exact h rfl

/-- **The message about a value that is no expression is not one about a body without a value.** -/
theorem message_validation_ne (e : ValidationError) :
    ∀ kind ∈ unread, e.rejection.message ≠ (plain kind).message := by
  cases e with
  | notANodeOrNumber => decide
  | unsupportedOperator op =>
    have hhead : ∀ kind ∈ unread,
        (Text.ofString "Unsupported \"op\" ").head? ≠ (plain kind).message.head? := by decide
    intro kind hkind
    rw [ValidationError.rejection, unsupportedOperator, List.append_assoc, List.append_assoc]
    exact message_ofKind_ne (by decide) (hhead kind hkind) _
  | emptyArguments op => cases op <;> decide
  | argumentsNotASequence op => cases op <;> decide
  | depthLimitExceeded limit =>
    have hhead : ∀ kind ∈ unread, (Text.ofString "Expression is nested deeper than ").head? ≠
        (plain kind).message.head? := by decide
    intro kind hkind
    rw [ValidationError.rejection, depthLimitExceeded, List.append_assoc]
    exact message_ofKind_ne (by decide) (hhead kind hkind) _

theorem message_evaluation_ne {e : EvaluationError} {r : Rejection} (h : e.rejection? = some r) :
    ∀ kind ∈ unread, r.message ≠ (plain kind).message := by
  cases e <;> cases h <;> decide

end Rejection

end Abacus
