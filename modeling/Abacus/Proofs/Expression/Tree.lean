import Mathlib
import Abacus.Expression.Evaluation

/-!
# Expressions as trees

The induction over expressions whose arguments stand in lists, and what can be listed of a tree.

* `Expression.recArguments`: a property of literals that passes from the arguments of an operation
  to the operation holds of all expressions;
* `Expression.literals`, `Expression.postOrder`: the literals from left to right, and the
  operations, each after all that stand inside its arguments;
* `nestingOfAll_le_iff`: the nesting of a list is the least bound of the nestings in it;
* `evaluateAll_of_error`, `evaluate_operation_of_ok`, `evaluate_operation_of_error`: how the values
  and the first failure of the arguments reach the operation;
* `evaluate_operation_literal`: an operation over literals.
-/

namespace Abacus.Expression

/-- **Induction over expressions**: an operation may use the property of all its arguments. -/
@[elab_as_elim, induction_eliminator]
theorem recArguments {P : Expression → Prop} (literal : ∀ x, P (.literal x))
    (operation : ∀ op first rest, (∀ a ∈ first :: rest, P a) → P (.operation op first rest)) :
    ∀ e, P e
  | .literal x => literal x
  | .operation op first rest => operation op first rest fun a ha =>
    have : sizeOf a < sizeOf (Expression.operation op first rest) := by
      rcases List.mem_cons.1 ha with rfl | ha
      · simp only [Expression.operation.sizeOf_spec]; omega
      · have := List.sizeOf_lt_of_mem ha
        simp only [Expression.operation.sizeOf_spec]; omega
    recArguments literal operation a
termination_by e => sizeOf e

@[simp] theorem arguments_literal (x : Float) : (literal x).arguments = [] := rfl

@[simp] theorem arguments_operation (op : Operator) (first : Expression)
    (rest : List Expression) : (operation op first rest).arguments = first :: rest := rfl

/-! ## Nesting -/

theorem nestingOfAll_le_iff {es : List Expression} {n : Nat} :
    nestingOfAll es ≤ n ↔ ∀ e ∈ es, e.nesting ≤ n := by
  induction es with
  | nil => simp [nestingOfAll]
  | cons e es ih => simp [nestingOfAll, ih]

theorem nesting_operation (op : Operator) (first : Expression) (rest : List Expression) :
    (operation op first rest).nesting = 1 + nestingOfAll (first :: rest) := by
  rw [nesting, nestingOfAll]

/-- An operation is nested one deeper than each of its arguments may be. -/
theorem nesting_operation_le_iff {op : Operator} {first : Expression} {rest : List Expression}
    {n : Nat} :
    (operation op first rest).nesting ≤ n + 1 ↔ ∀ a ∈ first :: rest, a.nesting ≤ n := by
  rw [nesting_operation, ← nestingOfAll_le_iff]
  omega

/-- The deepest of some nestings is that of the list. -/
theorem max?_map_nesting_eq_some_iff {es : List Expression} {k : Nat} :
    (es.map nesting).max? = some k ↔ es ≠ [] ∧ nestingOfAll es = k := by
  rw [List.max?_eq_some_iff]
  constructor
  · rintro ⟨hk, hle⟩
    obtain ⟨e, he, rfl⟩ := List.mem_map.1 hk
    refine ⟨List.ne_nil_of_mem he, le_antisymm ?_ (nestingOfAll_le_iff.1 le_rfl e he)⟩
    exact nestingOfAll_le_iff.2 fun a ha => hle _ (List.mem_map_of_mem ha)
  · rintro ⟨hne, rfl⟩
    refine ⟨?_, fun b hb => ?_⟩
    · obtain ⟨first, rest, rfl⟩ := List.exists_cons_of_ne_nil hne
      clear hne
      induction rest generalizing first with
      | nil => simp [nestingOfAll]
      | cons a rest ih =>
        rw [nestingOfAll, List.map_cons]
        rcases max_choice first.nesting (nestingOfAll (a :: rest)) with h | h <;> rw [h]
        · exact List.mem_cons_self
        · exact List.mem_cons_of_mem _ (ih a)
    · obtain ⟨a, ha, rfl⟩ := List.mem_map.1 hb
      exact nestingOfAll_le_iff.1 le_rfl a ha

/-! ## Literals and operations of a tree -/

mutual

/-- The literals of an expression from left to right. -/
def literals : Expression → List Float
  | literal x => [x]
  | operation _ first rest => literals first ++ literalsOfAll rest

/-- The literals of expressions from left to right. -/
def literalsOfAll : List Expression → List Float
  | [] => []
  | e :: rest => literals e ++ literalsOfAll rest

end

mutual

/-- The operations in an expression, each after those in its arguments, arguments from left to
right. -/
def postOrder : Expression → List Expression
  | literal _ => []
  | operation op first rest =>
    postOrder first ++ postOrderOfAll rest ++ [operation op first rest]

/-- The operations in expressions from left to right, in the same order within each. -/
def postOrderOfAll : List Expression → List Expression
  | [] => []
  | e :: rest => postOrder e ++ postOrderOfAll rest

end

theorem literalsOfAll_eq (es : List Expression) : literalsOfAll es = es.flatMap literals := by
  induction es with
  | nil => rfl
  | cons e es ih => rw [literalsOfAll, ih, List.flatMap_cons]

theorem literals_operation (op : Operator) (first : Expression) (rest : List Expression) :
    (operation op first rest).literals = (first :: rest).flatMap literals := by
  rw [literals, literalsOfAll_eq, List.flatMap_cons]

theorem postOrderOfAll_eq (es : List Expression) : postOrderOfAll es = es.flatMap postOrder := by
  induction es with
  | nil => rfl
  | cons e es ih => rw [postOrderOfAll, ih, List.flatMap_cons]

theorem postOrder_operation (op : Operator) (first : Expression) (rest : List Expression) :
    (operation op first rest).postOrder =
      (first :: rest).flatMap postOrder ++ [operation op first rest] := by
  rw [postOrder, postOrderOfAll_eq, List.flatMap_cons]

/-- What stands in the list of operations is an operation. -/
theorem arguments_ne_nil_of_mem_postOrder {e n : Expression} (h : n ∈ e.postOrder) :
    n.arguments ≠ [] := by
  induction e with
  | literal x => simp [postOrder] at h
  | operation op first rest ih =>
    rw [postOrder_operation, List.mem_append, List.mem_flatMap, List.mem_singleton] at h
    rcases h with ⟨a, ha, h⟩ | rfl
    · exact ih a ha h
    · simp

/-! ## Evaluating arguments -/

theorem evaluateAll_cons_of_ok {e : Expression} {es : List Expression} {x : Float}
    {xs : List Float} (h : e.evaluate = .ok x) (hs : evaluateAll es = .ok xs) :
    evaluateAll (e :: es) = .ok (x :: xs) := by
  rw [evaluateAll, h, hs]
  rfl

/-- The first failure among expressions ends their evaluation. -/
theorem evaluateAll_of_error {before : List Expression} {bad : Expression}
    {err : EvaluationError} (after : List Expression)
    (hbefore : ∀ a ∈ before, ∃ x, a.evaluate = .ok x) (hbad : bad.evaluate = .error err) :
    evaluateAll (before ++ bad :: after) = .error err := by
  induction before with
  | nil => rw [List.nil_append, evaluateAll, hbad]; rfl
  | cons a before ih =>
    obtain ⟨x, hx⟩ := hbefore a (by simp)
    rw [List.cons_append, evaluateAll, hx, ih fun b hb => hbefore b (by simp [hb])]
    rfl

/-- The values of all arguments are handed to the operator. -/
theorem evaluate_operation_of_ok {op : Operator} {first : Expression} {rest : List Expression}
    {x : Float} {xs : List Float} (h : evaluateAll (first :: rest) = .ok (x :: xs)) :
    (operation op first rest).evaluate = op.apply x xs := by
  rw [evaluateAll] at h
  rw [evaluate]
  rcases hf : first.evaluate with err | y <;> rw [hf] at h
  · cases h
  · rcases hr : evaluateAll rest with err | ys <;> rw [hr] at h <;> cases h
    rfl

/-- A failure among the arguments is that of the operation. -/
theorem evaluate_operation_of_error {op : Operator} {first : Expression}
    {rest : List Expression} {err : EvaluationError}
    (h : evaluateAll (first :: rest) = .error err) :
    (operation op first rest).evaluate = .error err := by
  rw [evaluateAll] at h
  rw [evaluate]
  rcases hf : first.evaluate with e | y <;> rw [hf] at h
  · cases h
    rfl
  · rcases hr : evaluateAll rest with e | ys <;> rw [hr] at h <;> cases h
    rfl

theorem evaluateAll_literal (xs : List Float) : evaluateAll (xs.map literal) = .ok xs := by
  induction xs with
  | nil => rfl
  | cons x xs ih => exact evaluateAll_cons_of_ok rfl ih

/-- An operation over literals is its operator over their values. -/
theorem evaluate_operation_literal (op : Operator) (x : Float) (xs : List Float) :
    (operation op (literal x) (xs.map literal)).evaluate = op.apply x xs :=
  evaluate_operation_of_ok (evaluateAll_literal (x :: xs))

end Abacus.Expression
