import Mathlib
import Abacus.Proofs.Expression.PostOrder
import Abacus.Proofs.Json.Encoding
import Abacus.Proofs.Json.Writable
import Abacus.Proofs.Outcome
import Abacus.Proofs.Rejection
import Abacus.Service

/-!
# Verdicts on expressions

The service comes to a verdict on what it is asked to calculate: a finite value, or one rejection.

* `Verdict`, `Verdict.response`: a verdict, and the response that tells it.
* `Computes`: the verdict on a decoded value, by the first of its stages that fails;
* `exists_computes`, `Computes.unique`, `Computes.isFinite`, `Computes.printable`: there is exactly
  one, its value is finite and its message is printable;
* `Verdict.ofBytes_body`, `Verdict.decode?_body`: the body of the response is read back as what was
  to be told, and its bytes are well-formed.
-/

namespace Abacus

/-- What the service comes to: a value, or a rejection. -/
inductive Verdict
  | value (x : Float)
  | rejection (r : Rejection)

namespace Verdict

/-- The status of the response. -/
def status : Verdict → ℕ
  | value _ => 200
  | rejection _ => 400

/-- The members of the body of the response. -/
def members : Verdict → Json.Members
  | value x => [("action", .text "calculate"), ("result", .float x)]
  | rejection r => [("error", .text r.message)]

/-- The response that tells a verdict. -/
def response (v : Verdict) : Response := .json v.status (.object v.members)

/-- The outcome of the computation that comes to a verdict. -/
def outcome : Verdict → Except Interruption Float
  | value x => .ok x
  | rejection r => .error (.rejected r)

theorem members_eq_value_iff {v : Verdict} {x : Float} :
    v.members = (value x).members ↔ v = value x := by
  cases v <;> simp [members]

theorem members_eq_error_iff {v : Verdict} {m : Text} :
    v.members = ([("error", .text m)] : Json.Members) ↔ ∃ r, v = rejection r ∧ r.message = m := by
  cases v <;> simp [members]

theorem outcome_injective {v w : Verdict} (h : v.outcome = w.outcome) : v = w := by
  cases v <;> cases w <;> cases h <;> rfl

end Verdict

/-- The verdict on a decoded value. -/
inductive Computes (limit : ℤ) (value : Json.Value) : Verdict → Prop
  /-- It is no expression within the limit. -/
  | invalid {e : ValidationError} (h : Expression.validate limit value = .error e) :
      Computes limit value (.rejection e.rejection)
  /-- The expression has no value. -/
  | failed {tree : Expression} {e : EvaluationError} {r : Rejection}
      (h : Expression.validate limit value = .ok tree) (he : tree.evaluate = .error e)
      (hr : e.rejection? = some r) : Computes limit value (.rejection r)
  /-- The value of the expression is not finite. -/
  | nonFinite {tree : Expression} {x : Float} (h : Expression.validate limit value = .ok tree)
      (he : tree.evaluate = .ok x) (hx : x.isFinite = false) :
      Computes limit value (.rejection (Rejection.plain .nonFiniteValue))
  /-- The expression has a finite value. -/
  | finite {tree : Expression} {x : Float} (h : Expression.validate limit value = .ok tree)
      (he : tree.evaluate = .ok x) (hx : x.isFinite = true) : Computes limit value (.value x)

namespace Calculation

/-- The computation behind an answer, once the body is decoded. -/
def compute (limit : ℤ) (value : Json.Value) : Except Interruption Float := do
  let e ← (Expression.validate limit value).mapError Interruption.ofValidationError
  let x ← evaluator e
  (ensureFinite x).mapError Interruption.ofEvaluationError

theorem answer_eq (limit : ℤ) (body : Bytes) :
    answer limit evaluator body =
      (decode limit body >>= compute limit).map fun x => (Verdict.value x).response := by
  rw [answer]
  cases decode limit body with
  | error i => rfl
  | ok value =>
    simp only [compute, bind, Except.bind]
    cases (Expression.validate limit value).mapError Interruption.ofValidationError with
    | error i => rfl
    | ok e =>
      dsimp only
      cases evaluator e with
      | error i => rfl
      | ok x =>
        dsimp only
        cases (ensureFinite x).mapError Interruption.ofEvaluationError <;> rfl

end Calculation

namespace Computes

variable {limit : ℤ} {value : Json.Value} {v w : Verdict}

/-- The computation comes to the verdict. -/
theorem compute_eq (h : Computes limit value v) :
    Calculation.compute limit value = v.outcome := by
  cases h with
  | invalid h =>
    rw [Calculation.compute, h]
    rfl
  | failed h he hr =>
    rw [Calculation.compute, h]
    simp only [Except.mapError, bind, Except.bind, Calculation.evaluator, he,
      Interruption.ofEvaluationError, hr]
    rfl
  | nonFinite h he hx =>
    rw [Calculation.compute, h]
    simp only [Except.mapError, bind, Except.bind, Calculation.evaluator, he, ensureFinite, hx]
    rfl
  | finite h he hx =>
    rw [Calculation.compute, h]
    simp only [Except.mapError, bind, Except.bind, Calculation.evaluator, he, ensureFinite, hx]
    rfl

theorem unique (hv : Computes limit value v) (hw : Computes limit value w) : v = w :=
  Verdict.outcome_injective (hv.compute_eq.symm.trans hw.compute_eq)

/-- The verdict is a value if the expression is valid and has it, and it is finite. -/
theorem value_iff {x : Float} : Computes limit value (.value x) ↔
    ∃ tree, Expression.validate limit value = .ok tree ∧ tree.evaluate = .ok x ∧
      x.isFinite = true := by
  constructor
  · rintro ⟨⟩
    exact ⟨_, ‹_›, ‹_›, ‹_›⟩
  · rintro ⟨tree, h, he, hx⟩
    exact .finite h he hx

theorem isFinite {x : Float} (h : Computes limit value (.value x)) : x.isFinite = true := by
  cases h with
  | finite _ _ hx => exact hx

/-- The message of a rejection is printable. -/
theorem printable {r : Rejection} (h : Computes limit value (.rejection r)) :
    r.message.Printable := by
  cases h with
  | invalid h => exact Rejection.printable_validation _
  | failed h he hr => exact Rejection.printable_evaluation hr
  | nonFinite h he hx => exact Rejection.printable_plain _

theorem writable {r : Rejection} (h : Computes limit value (.rejection r)) : r.message.Writable :=
  h.printable.writable

/-- The message of a rejection is not one about a body without a value. -/
theorem message_ne {r : Rejection} (h : Computes limit value (.rejection r)) :
    ∀ kind ∈ Rejection.unread, r.message ≠ (Rejection.plain kind).message := by
  cases h with
  | invalid h => exact Rejection.message_validation_ne _
  | failed h he hr => exact Rejection.message_evaluation_ne hr
  | nonFinite h he hx => decide

end Computes

/-- **Every decoded value gets a verdict**: no failure of the evaluation is unforeseen. -/
theorem exists_computes (limit : ℤ) (value : Json.Value) : ∃ v, Computes limit value v := by
  cases h : Expression.validate limit value with
  | error e => exact ⟨_, .invalid h⟩
  | ok tree =>
    cases he : tree.evaluate with
    | error e =>
      obtain ⟨r, hr⟩ := Operator.rejection?_of_foreseen (Expression.foreseen_of_evaluate he)
      exact ⟨_, .failed h he hr⟩
    | ok x =>
      cases hx : x.isFinite with
      | false => exact ⟨_, .nonFinite h he hx⟩
      | true => exact ⟨_, .finite h he hx⟩

/-- The verdict is the one that the computation comes to. -/
theorem Computes.iff_outcome {limit : ℤ} {value : Json.Value} {v : Verdict} :
    Computes limit value v ↔ Calculation.compute limit value = v.outcome := by
  refine ⟨Computes.compute_eq, fun h => ?_⟩
  obtain ⟨w, hw⟩ := exists_computes limit value
  rwa [← Verdict.outcome_injective (hw.compute_eq.symm.trans h)]

/-! ## The response -/

namespace Verdict

/-- A verdict that can be told: its value is finite. -/
def IsFinite (v : Verdict) : Prop := ∀ x, v = .value x → x.isFinite = true

theorem readable {v : Verdict} (hv : v.IsFinite) :
    (Json.Value.object v.members).Readable Json.nestingLimit := by
  cases v with
  | value x =>
    have hnames : [("action" : Text), ("result" : Text)].Nodup := by decide
    refine .object hnames ?_
    simp only [members, List.mem_cons, List.not_mem_nil, or_false]
    rintro m (rfl | rfl)
    · exact .text _
    · exact .float (hv x rfl)
  | rejection r =>
    refine .object (List.nodup_singleton _) ?_
    simp only [members, List.mem_cons, List.not_mem_nil, or_false]
    rintro m rfl
    exact .text _

/-- **The body of the response is read back as what was to be told.** -/
theorem ofBytes_body {v : Verdict} (hv : v.IsFinite) :
    Json.ofBytes v.response.body = .ok (.object v.members) :=
  Json.ofBytes_write (readable hv)

/-- A verdict that is told in well-formed bytes: so is the message of its rejection. -/
def IsWritable (v : Verdict) : Prop := ∀ r, v = .rejection r → r.message.Writable

theorem writable_body {v : Verdict} (hv : v.IsWritable) :
    ((Json.Value.object v.members).write Json.compact).Writable := by
  refine Json.Value.writable_write ?_
  cases v with
  | value x =>
    refine .object ?_ ?_
    · simp only [members, List.mem_cons, List.not_mem_nil, or_false]
      rintro m (rfl | rfl) <;> exact Text.writable_ofString _
    · simp only [members, List.mem_cons, List.not_mem_nil, or_false]
      rintro m (rfl | rfl)
      · exact .text (Text.writable_ofString _)
      · exact .float x
  | rejection r =>
    refine .object ?_ ?_
    · simp only [members, List.mem_cons, List.not_mem_nil, or_false]
      rintro m rfl
      exact Text.writable_ofString _
    · simp only [members, List.mem_cons, List.not_mem_nil, or_false]
      rintro m rfl
      exact .text (hv r rfl)

/-- **The body of the response is well-formed UTF-8**, whatever the body of the request. -/
theorem decode?_body {v : Verdict} (hv : v.IsWritable) :
    Utf8.decode? v.response.body = some ((Json.Value.object v.members).write Json.compact) :=
  Utf8.decode?_encodeLone (writable_body hv)

/-- An interruption by a rejection is told by the response of the verdict. -/
theorem conclude_eq (v : Verdict) (request : Request) :
    (Interruption.conclude request (v.outcome.map fun x => (value x).response)).1 =
      v.response := by
  cases v <;> rfl

end Verdict

end Abacus
