import Mathlib
import Abacus.Proofs.Expression.Tree
import Abacus.Proofs.Operator

/-!
# Evaluation in post-order

The value of an expression and its first failure, read off the list of its operations in
post-order. Values are given by a relation of their own, without any order of evaluation:

* `Denotes e x`: the expression has the value `x`, all its arguments having values;
* `Yields n r`: the arguments of the operation `n` have values, and its operator applied to them
  gives `r`, a value or a failure.

`evaluate_spec` shows by induction over the tree that an expression either evaluates to the value
that it denotes, all operations in post-order yielding values, or fails as the first operation in
post-order does that yields a failure; `evaluate_postOrder` is that with its consequences for the
order of failures and the finiteness of intermediate values.
-/

namespace Abacus.Expression

/-- An expression has a value, whatever the order in which its parts are evaluated. -/
inductive Denotes : Expression → Float → Prop
  | literal (x : Float) : Denotes (.literal x) x
  | operation {op : Operator} {first : Expression} {rest : List Expression} {x r : Float}
      {xs : List Float} (arguments : List.Forall₂ Denotes (first :: rest) (x :: xs))
      (applied : op.apply x xs = .ok r) : Denotes (.operation op first rest) r

/-- The outcome of the operator of an operation over the values of its arguments. -/
inductive Yields : Expression → Except EvaluationError Float → Prop
  | mk {op : Operator} {first : Expression} {rest : List Expression} {x : Float}
      {xs : List Float} (arguments : List.Forall₂ Denotes (first :: rest) (x :: xs)) :
      Yields (.operation op first rest) (op.apply x xs)

/-! ## Values are unique -/

theorem forall₂_unique {es : List Expression}
    (h : ∀ e ∈ es, ∀ x y, Denotes e x → Denotes e y → x = y) {xs ys : List Float}
    (hxs : List.Forall₂ Denotes es xs) (hys : List.Forall₂ Denotes es ys) : xs = ys := by
  induction hxs generalizing ys with
  | nil =>
    cases hys
    rfl
  | cons hx _ ih =>
    cases hys with
    | cons hy hys =>
      rw [h _ (by simp) _ _ hx hy, ih (fun e he => h e (by simp [he])) hys]

theorem Denotes.unique {e : Expression} {x y : Float} (hx : Denotes e x) (hy : Denotes e y) :
    x = y := by
  induction e generalizing x y with
  | literal z =>
    cases hx
    cases hy
    rfl
  | operation op first rest ih =>
    cases hx with
    | operation hxs hx =>
      cases hy with
      | operation hys hy =>
        cases forall₂_unique (fun a ha x y hx hy => ih a ha hx hy) hxs hys
        rw [hx] at hy
        cases hy
        rfl

theorem Yields.unique {n : Expression} {r s : Except EvaluationError Float} (hr : Yields n r)
    (hs : Yields n s) : r = s := by
  cases hr with
  | mk hxs =>
    cases hs with
    | mk hys =>
      cases forall₂_unique (fun _ _ _ _ => Denotes.unique) hxs hys
      rfl

/-! ## Failures in a list of operations -/

/-- All operations of a list yield values. -/
def AllYield (ns : List Expression) : Prop := ∀ n ∈ ns, ∃ x, Yields n (.ok x)

/-- The first operation of a list that yields no value fails with `err`. -/
def FirstFailure (ns : List Expression) (err : EvaluationError) : Prop :=
  ∃ before n after, ns = before ++ n :: after ∧ AllYield before ∧ Yields n (.error err)

theorem AllYield.append {ms ns : List Expression} (hms : AllYield ms) (hns : AllYield ns) :
    AllYield (ms ++ ns) := fun n hn => (List.mem_append.1 hn).elim (hms n) (hns n)

theorem FirstFailure.append_right {ms : List Expression} {err : EvaluationError}
    (h : FirstFailure ms err) (ns : List Expression) : FirstFailure (ms ++ ns) err := by
  obtain ⟨before, n, after, rfl, hbefore, hn⟩ := h
  exact ⟨before, n, after ++ ns, by simp, hbefore, hn⟩

theorem FirstFailure.append_left {ms ns : List Expression} {err : EvaluationError}
    (hms : AllYield ms) (h : FirstFailure ns err) : FirstFailure (ms ++ ns) err := by
  obtain ⟨before, n, after, rfl, hbefore, hn⟩ := h
  exact ⟨ms ++ before, n, after, by simp, hms.append hbefore, hn⟩

/-- An operation that yields a value yields no failure. -/
theorem AllYield.not_failure {ns : List Expression} (h : AllYield ns) {n : Expression}
    (hn : n ∈ ns) {err : EvaluationError} : ¬ Yields n (.error err) := by
  intro hfail
  obtain ⟨x, hx⟩ := h n hn
  cases hx.unique hfail

theorem FirstFailure.not_allYield {ns : List Expression} {err : EvaluationError}
    (h : FirstFailure ns err) : ¬ AllYield ns := by
  obtain ⟨before, n, after, rfl, -, hn⟩ := h
  exact fun hall => hall.not_failure (by simp) hn

/-- There is one first failure. -/
theorem FirstFailure.unique {ns : List Expression} {err err' : EvaluationError}
    (h : FirstFailure ns err) (h' : FirstFailure ns err') : err = err' := by
  obtain ⟨before, n, after, rfl, hbefore, hn⟩ := h
  obtain ⟨before', n', after', heq, hbefore', hn'⟩ := h'
  rcases List.append_eq_append_iff.1 heq with ⟨mid, rfl, hmid⟩ | ⟨mid, rfl, hmid⟩
  · rcases mid with _ | ⟨m, mid⟩ <;> cases hmid
    · cases hn.unique hn'
      rfl
    · exact absurd hn (hbefore'.not_failure (by simp))
  · rcases mid with _ | ⟨m, mid⟩ <;> cases hmid
    · cases hn.unique hn'
      rfl
    · exact absurd hn' (hbefore.not_failure (by simp))

/-! ## Evaluation against the list -/

/-- What evaluation comes to, in terms of the operations in post-order. -/
def Agrees (e : Expression) : Prop :=
  (∃ x, e.evaluate = .ok x ∧ Denotes e x ∧ AllYield e.postOrder) ∨
    ∃ err, e.evaluate = .error err ∧ FirstFailure e.postOrder err

/-- The same of a list of arguments. -/
theorem evaluateAll_spec {es : List Expression} (h : ∀ e ∈ es, Agrees e) :
    (∃ xs, evaluateAll es = .ok xs ∧ List.Forall₂ Denotes es xs ∧
        AllYield (es.flatMap postOrder)) ∨
      ∃ err, evaluateAll es = .error err ∧ FirstFailure (es.flatMap postOrder) err := by
  induction es with
  | nil => exact Or.inl ⟨[], rfl, .nil, by simp [AllYield]⟩
  | cons e es ih =>
    rw [List.flatMap_cons]
    rcases h e (by simp) with ⟨x, hx, hden, hall⟩ | ⟨err, herr, hfirst⟩
    · rcases ih fun a ha => h a (by simp [ha]) with ⟨xs, hxs, hdens, halls⟩ | ⟨err, herr, hfirst⟩
      · exact Or.inl ⟨x :: xs, evaluateAll_cons_of_ok hx hxs, .cons hden hdens, hall.append halls⟩
      · refine Or.inr ⟨err, ?_, hfirst.append_left hall⟩
        rw [evaluateAll, hx, herr]
        rfl
    · have herrs : evaluateAll ([] ++ e :: es) = .error err :=
        evaluateAll_of_error es (by simp) herr
      exact Or.inr ⟨err, herrs, hfirst.append_right _⟩

/-- **Evaluation follows the post-order.** -/
theorem evaluate_spec (e : Expression) : Agrees e := by
  induction e with
  | literal x => exact Or.inl ⟨x, rfl, .literal x, by simp [AllYield, postOrder]⟩
  | operation op first rest ih =>
    rw [Agrees, postOrder_operation]
    rcases evaluateAll_spec ih with ⟨ys, hys, hden, hall⟩ | ⟨err, herr, hfirst⟩
    · obtain ⟨x, xs, -, -, rfl⟩ := List.forall₂_cons_left_iff.1 hden
      rw [evaluate_operation_of_ok hys]
      have hyield : Yields (operation op first rest) (op.apply x xs) := .mk hden
      rcases happly : op.apply x xs with err | r <;> rw [happly] at hyield
      · exact Or.inr ⟨err, rfl, FirstFailure.append_left hall
          ⟨[], _, [], rfl, by simp [AllYield], hyield⟩⟩
      · refine Or.inl ⟨r, rfl, .operation hden happly, hall.append fun n hn => ?_⟩
        rw [List.mem_singleton] at hn
        exact ⟨r, hn ▸ hyield⟩
    · exact Or.inr ⟨err, evaluate_operation_of_error herr, hfirst.append_right _⟩

/-- A failure is one of the three that are foreseen. -/
theorem foreseen_of_evaluate {e : Expression} {err : EvaluationError}
    (h : e.evaluate = .error err) : Operator.Foreseen err := by
  rcases evaluate_spec e with ⟨x, hx, -, -⟩ | ⟨err', herr', before, n, after, -, -, hn⟩
  · rw [hx] at h
    cases h
  · rw [herr'] at h
    cases h
    generalize hr : Except.error err = r at hn
    cases hn with
    | mk hargs => exact Operator.foreseen_of_apply hr.symm

theorem allYield_of_mem_arguments {e a : Expression} (h : AllYield e.postOrder)
    (ha : a ∈ e.arguments) : AllYield a.postOrder := by
  cases e with
  | literal x => simp at ha
  | operation op first rest =>
    rw [postOrder_operation] at h
    exact fun n hn => h n (List.mem_append_left _ (List.mem_flatMap.2 ⟨a, ha, hn⟩))

/-- The arguments of an expression with a value have finite values. -/
theorem isFinite_of_mem_arguments {e a : Expression} {r : Float} (h : e.evaluate = .ok r)
    (ha : a ∈ e.arguments) : ∃ x, a.evaluate = .ok x ∧ x.isFinite = true := by
  rcases evaluate_spec e with ⟨r', -, hden, hall⟩ | ⟨err, herr, -⟩
  · cases hden with
    | literal x => simp at ha
    | @operation op first rest x r xs hargs happly =>
      obtain ⟨i, hi, rfl⟩ := List.mem_iff_getElem.1 ha
      have hi' : i < (x :: xs).length := hargs.length_eq ▸ hi
      have hfinite := Operator.isFinite_of_apply happly _ (List.getElem_mem hi')
      rcases evaluate_spec _ with ⟨z, hz, hdenz, -⟩ | ⟨err, -, hfirst⟩
      · exact ⟨z, hz, (hargs.get hi hi').unique hdenz ▸ hfinite⟩
      · exact absurd (allYield_of_mem_arguments hall ha) hfirst.not_allYield
  · rw [herr] at h
    cases h

/-- `IsPart a e`: the expression `a` stands properly inside `e`. -/
def IsPart : Expression → Expression → Prop :=
  Relation.TransGen fun a e => a ∈ e.arguments

theorem isFinite_of_isPart {e a : Expression} {r : Float} (h : e.evaluate = .ok r)
    (ha : IsPart a e) : ∃ x, a.evaluate = .ok x ∧ x.isFinite = true := by
  induction ha using Relation.TransGen.head_induction_on with
  | single ha => exact isFinite_of_mem_arguments h ha
  | head ha _ ih =>
    obtain ⟨x, hx, -⟩ := ih
    exact isFinite_of_mem_arguments hx ha

/-- An argument fails before the operation looks at the values of those before it, be they finite
or not. -/
theorem evaluate_of_argument_error {e bad : Expression} {before after : List Expression}
    {err : EvaluationError} (hargs : e.arguments = before ++ bad :: after)
    (hbefore : ∀ a ∈ before, ∃ x, a.evaluate = .ok x) (hbad : bad.evaluate = .error err) :
    e.evaluate = .error err := by
  cases e with
  | literal x => simp at hargs
  | operation op first rest =>
    apply evaluate_operation_of_error
    rw [← arguments_operation op, hargs]
    exact evaluateAll_of_error after hbefore hbad

/-- **Evaluation is the post-order semantics with first failure.** If all operations in post-order
yield values, the value is the one that the expression denotes; if not, the failure is that of the
first operation that yields none, and it is one of three. So a later argument that fails does so
before the operation rejects the infinite value of an earlier one, and an expression with a value
has only finite values inside it. -/
theorem evaluate_postOrder (e : Expression) :
    (AllYield e.postOrder → ∃ x, Denotes e x ∧ e.evaluate = .ok x) ∧
      (¬ AllYield e.postOrder →
        ∃ err, FirstFailure e.postOrder err ∧ e.evaluate = .error err ∧
          (err = .divisionByZero ∨ err = .zeroDegreeRoot ∨ err = .nonFiniteValue)) ∧
      (∀ err, FirstFailure e.postOrder err → e.evaluate = .error err) ∧
      (∀ before bad after err, e.arguments = before ++ bad :: after →
        (∀ a ∈ before, ∃ x, a.evaluate = .ok x) → bad.evaluate = .error err →
          e.evaluate = .error err) ∧
      ∀ x, e.evaluate = .ok x → ∀ a, IsPart a e → ∃ y, a.evaluate = .ok y ∧ y.isFinite = true := by
  refine ⟨fun hall => ?_, fun hall => ?_, fun err hfirst => ?_,
    fun before bad after err => evaluate_of_argument_error,
    fun x hx a ha => isFinite_of_isPart hx ha⟩
  · rcases evaluate_spec e with ⟨x, hx, hden, -⟩ | ⟨err, -, hfirst⟩
    · exact ⟨x, hden, hx⟩
    · exact absurd hall hfirst.not_allYield
  · rcases evaluate_spec e with ⟨x, -, -, hall'⟩ | ⟨err, herr, hfirst⟩
    · exact absurd hall' hall
    · exact ⟨err, hfirst, herr, foreseen_of_evaluate herr⟩
  · rcases evaluate_spec e with ⟨x, -, -, hall⟩ | ⟨err', herr', hfirst'⟩
    · exact absurd hall hfirst.not_allYield
    · rw [herr', hfirst'.unique hfirst]

end Abacus.Expression
