import Mathlib
import Abacus.Expression.Evaluation
import Abacus.Proofs.Number.Arithmetic

/-!
# Operators over values

What an operator asks of the values of its arguments before it folds over them, and that the fold
then runs to its end.

* `Operator.combine`: the step of an operator in which no quotient by zero is taken;
* `Operator.step?_eq_combine`, `Operator.fold?_eq_foldl`: the step and the fold have a value,
  whatever the accumulator has come to, when no divisor and no degree is a zero;
* `Operator.Applies`, `Operator.applies`: the four ways in which an operator over values ends;
* `Operator.apply_eq_ok_iff`: what it takes for an operator to have a value over two or more;
* `Operator.Foreseen`, `Operator.foreseen_of_apply`: the three ways in which it has none;
* `Operator.apply_guards`: the checks before the fold are exact.
-/

namespace Abacus.Operator

/-- Whether an operator divides by the operands after the first, or by their reciprocals. -/
def IsGuarded (op : Operator) : Prop := op = divide ∨ op = root

/-! ## The fold -/

/-- The accumulator after one more operand, if no quotient by zero is taken. -/
def combine (op : Operator) (acc x : Float) : Float :=
  match op with
  | add => acc + x
  | subtract => acc - x
  | multiply => acc * x
  | divide => acc / x
  | power => Arithmetic.power acc x
  | root => Arithmetic.power acc (1 / x)

theorem step?_eq_combine {op : Operator} {x : Float} (h : op.IsGuarded → (x == 0) = false)
    (acc : Float) : op.step? acc x = some (op.combine acc x) := by
  cases op with
  | add | subtract | multiply | power => rfl
  | divide =>
    have hx : (x == 0) = false := h (Or.inl rfl)
    simp [step?, combine, Arithmetic.quotient?, hx]
  | root =>
    have hx : (x == 0) = false := h (Or.inr rfl)
    simp [step?, combine, Arithmetic.nthRoot?, Arithmetic.quotient?, hx]

theorem step?_of_ne_zero {op : Operator} {x : Float} (h : op.IsGuarded → (x == 0) = false)
    (acc : Float) : ∃ y, op.step? acc x = some y :=
  ⟨_, step?_eq_combine h acc⟩

/-- **The fold runs to its end**, whatever the accumulator comes to, when no operand is a forbidden
zero. -/
theorem fold?_eq_foldl {op : Operator} {xs : List Float}
    (h : op.IsGuarded → ∀ x ∈ xs, (x == 0) = false) (acc : Float) :
    op.fold? acc xs = some (xs.foldl op.combine acc) := by
  induction xs generalizing acc with
  | nil => rfl
  | cons x xs ih =>
    rw [fold?, step?_eq_combine (fun hop => h hop x (by simp)) acc, Option.bind_some,
      ih fun hop y hy => h hop y (by simp [hy])]
    rfl

/-! ## The four ends -/

/-- The value over a first operand and the others: the left fold, if there are others. -/
def result (op : Operator) (first : Float) : List Float → Float
  | [] => op.single first
  | rest => rest.foldl op.combine first

/-- **How an operator over values ends**: it rejects a value that is not finite, then a zero that is
divided by; else it has a value. -/
inductive Applies (op : Operator) (first : Float) (rest : List Float) :
    Except EvaluationError Float → Prop
  | nonFiniteValue (value : ∃ x ∈ first :: rest, x.isFinite = false) :
      Applies op first rest (.error .nonFiniteValue)
  | divisionByZero (finite : ∀ x ∈ first :: rest, x.isFinite = true) (operator : op = divide)
      (zero : ∃ x ∈ rest, (x == 0) = true) : Applies op first rest (.error .divisionByZero)
  | zeroDegreeRoot (finite : ∀ x ∈ first :: rest, x.isFinite = true) (operator : op = root)
      (zero : ∃ x ∈ rest, (x == 0) = true) : Applies op first rest (.error .zeroDegreeRoot)
  | value (finite : ∀ x ∈ first :: rest, x.isFinite = true)
      (guard : op.IsGuarded → ∀ x ∈ rest, (x == 0) = false) :
      Applies op first rest (.ok (op.result first rest))

theorem applies (op : Operator) (first : Float) (rest : List Float) :
    op.Applies first rest (op.apply first rest) := by
  have hzero : rest.any (· == 0) = true ↔ ∃ x ∈ rest, (x == 0) = true := List.any_eq_true
  have hall : (first :: rest).all Float.isFinite = true ↔ ∀ x ∈ first :: rest, x.isFinite = true :=
    List.all_eq_true
  rw [apply]
  simp only [Bool.not_eq_true', ← Bool.not_eq_true, hall, List.isEmpty_iff, Bool.and_eq_true,
    decide_eq_true_eq, hzero]
  split_ifs with hfinite hone hdivide hroot
  · subst hone
    exact .value hfinite (by simp)
  · exact .divisionByZero hfinite hdivide.1 hdivide.2
  · exact .zeroDegreeRoot hfinite hroot.1 hroot.2
  · have hguard : op.IsGuarded → ∀ x ∈ rest, (x == 0) = false := by
      rintro (hop | hop) x hx <;> rw [← Bool.not_eq_true] <;> intro hzero
      · exact hdivide ⟨hop, x, hx, hzero⟩
      · exact hroot ⟨hop, x, hx, hzero⟩
    obtain ⟨x, xs, rfl⟩ := List.exists_cons_of_ne_nil hone
    rw [fold?_eq_foldl hguard]
    exact .value hfinite hguard
  · simp only [not_forall, Bool.not_eq_true, exists_prop] at hfinite
    exact .nonFiniteValue hfinite

variable {op : Operator} {first : Float} {rest : List Float}

/-- The four ends exclude each other. -/
theorem Applies.unique {r r' : Except EvaluationError Float} (h : op.Applies first rest r)
    (h' : op.Applies first rest r') : r = r' := by
  cases h <;> cases h' <;> grind [IsGuarded]

theorem apply_eq_iff {r : Except EvaluationError Float} :
    op.apply first rest = r ↔ op.Applies first rest r :=
  ⟨fun h => h ▸ op.applies first rest, fun h => (op.applies first rest).unique h⟩

/-- A value that is not finite keeps an operator from having one. -/
theorem apply_of_not_isFinite {x : Float} (hx : x ∈ first :: rest) (h : x.isFinite = false) :
    op.apply first rest = .error .nonFiniteValue :=
  apply_eq_iff.2 (.nonFiniteValue ⟨x, hx, h⟩)

/-- An operator has a value only over finite values. -/
theorem isFinite_of_apply {r : Float} (h : op.apply first rest = .ok r) :
    ∀ x ∈ first :: rest, x.isFinite = true := by
  cases apply_eq_iff.1 h with
  | value hfinite => exact hfinite

/-- An operator has a value over two or more values if they are all finite, none that is divided by
is a zero, and its fold comes to that value. -/
theorem apply_eq_ok_iff {x r : Float} :
    op.apply first (x :: rest) = .ok r ↔ (∀ y ∈ first :: x :: rest, y.isFinite = true) ∧
      (op.IsGuarded → ∀ y ∈ x :: rest, (y == 0) = false) ∧ op.fold? first (x :: rest) = some r := by
  constructor
  · intro h
    cases apply_eq_iff.1 h with
    | value hfinite hguard => exact ⟨hfinite, hguard, fold?_eq_foldl hguard first⟩
  · rintro ⟨hfinite, hguard, hfold⟩
    rw [fold?_eq_foldl hguard, Option.some.injEq] at hfold
    exact apply_eq_iff.2 (hfold ▸ .value hfinite hguard)

/-- The failures that an operator over values can have. -/
def Foreseen (err : EvaluationError) : Prop :=
  err = .divisionByZero ∨ err = .zeroDegreeRoot ∨ err = .nonFiniteValue

/-- **The checks before the fold exclude a quotient by zero inside it.** -/
theorem foreseen_of_apply {err : EvaluationError} (h : op.apply first rest = .error err) :
    Foreseen err := by
  cases apply_eq_iff.1 h with
  | nonFiniteValue => exact .inr (.inr rfl)
  | divisionByZero => exact .inl rfl
  | zeroDegreeRoot => exact .inr (.inl rfl)

/-- Each failure that can occur has a message of its own. -/
theorem rejection?_of_foreseen {err : EvaluationError} (h : Foreseen err) :
    ∃ r, err.rejection? = some r := by
  rcases h with rfl | rfl | rfl
  · exact ⟨_, rfl⟩
  · exact ⟨_, rfl⟩
  · exact ⟨_, rfl⟩

/-! ## The checks -/

theorem exists_zero_iff :
    (∃ x ∈ rest, (x == 0) = true) ↔ ∃ x ∈ rest, x = 0 ∨ x = -0 := by
  simp only [Number.beq_zero_iff]

theorem apply_eq_nonFiniteValue_iff :
    op.apply first rest = .error .nonFiniteValue ↔ ∃ x ∈ first :: rest, x.isFinite = false := by
  rw [apply_eq_iff]
  constructor
  · rintro (h | h | h | h)
    exact h
  · exact .nonFiniteValue

theorem apply_eq_divisionByZero_iff (hfinite : ∀ x ∈ first :: rest, x.isFinite = true) :
    op.apply first rest = .error .divisionByZero ↔
      op = divide ∧ ∃ x ∈ rest, x = 0 ∨ x = -0 := by
  rw [apply_eq_iff, ← exists_zero_iff]
  constructor
  · intro h
    cases h with
    | divisionByZero _ hop hzero => exact ⟨hop, hzero⟩
  · rintro ⟨hop, hzero⟩
    exact .divisionByZero hfinite hop hzero

theorem apply_eq_zeroDegreeRoot_iff (hfinite : ∀ x ∈ first :: rest, x.isFinite = true) :
    op.apply first rest = .error .zeroDegreeRoot ↔ op = root ∧ ∃ x ∈ rest, x = 0 ∨ x = -0 := by
  rw [apply_eq_iff, ← exists_zero_iff]
  constructor
  · intro h
    cases h with
    | zeroDegreeRoot _ hop hzero => exact ⟨hop, hzero⟩
  · rintro ⟨hop, hzero⟩
    exact .zeroDegreeRoot hfinite hop hzero

/-- The value over a lone operand, which must be finite. -/
theorem single_eq (hfirst : first.isFinite = true) :
    op.single first =
      if op = root then if first < 0 then Number.nan else first.sqrt else first := by
  cases op with
  | add | subtract | multiply | divide | power => rfl
  | root =>
    rw [single, Arithmetic.squareRoot, if_pos rfl]
    by_cases h : first < 0
    · rw [if_pos h, if_neg ((Number.lt_zero_iff hfirst).1 h)]
    · rw [if_neg h, if_pos (not_not.1 (mt (Number.lt_zero_iff hfirst).2 h))]

/-- **An operator over values always ends, and its checks are exact.** It rejects values exactly if
one is not finite; finite values exactly if a zero of either sign is a divisor or a degree. All
other values have a value: a lone one itself or, for a root, its square root, which is NaN for a
negative one; and more of them that of the left fold, each step of which has a value whatever the
accumulator has come to, an infinity and NaN included. -/
theorem apply_guards (op : Operator) (first : Float) (rest : List Float) :
    (op.apply first rest = .error .nonFiniteValue ↔ ∃ x ∈ first :: rest, x.isFinite = false) ∧
    ((∀ x ∈ first :: rest, x.isFinite = true) →
      (op.apply first rest = .error .divisionByZero ↔
        op = divide ∧ ∃ x ∈ rest, x = 0 ∨ x = -0) ∧
      (op.apply first rest = .error .zeroDegreeRoot ↔
        op = root ∧ ∃ x ∈ rest, x = 0 ∨ x = -0) ∧
      (¬((op = divide ∨ op = root) ∧ ∃ x ∈ rest, x = 0 ∨ x = -0) →
        (rest = [] → op.apply first rest =
          .ok (if op = root then if first < 0 then Number.nan else first.sqrt else first)) ∧
        (rest ≠ [] → op.apply first rest = .ok (rest.foldl op.combine first)) ∧
        ∀ acc, ∀ x ∈ rest, op.step? acc x = some (op.combine acc x))) ∧
    ∀ err, op.apply first rest = .error err →
      err = .divisionByZero ∨ err = .zeroDegreeRoot ∨ err = .nonFiniteValue := by
  refine ⟨apply_eq_nonFiniteValue_iff, fun hfinite => ⟨apply_eq_divisionByZero_iff hfinite,
    apply_eq_zeroDegreeRoot_iff hfinite, fun hzero => ?_⟩, fun err => foreseen_of_apply⟩
  have hguard : op.IsGuarded → ∀ x ∈ rest, (x == 0) = false := by
    rw [← exists_zero_iff] at hzero
    intro hop x hx
    exact Bool.eq_false_iff.2 fun hx0 => hzero ⟨hop, x, hx, hx0⟩
  have hvalue := apply_eq_iff.2 (.value hfinite hguard)
  refine ⟨?_, fun hrest => ?_, fun acc x hx => step?_eq_combine (fun hop => hguard hop x hx) acc⟩
  · rintro rfl
    rw [hvalue, result, single_eq (hfinite first (by simp))]
  · obtain ⟨x, xs, rfl⟩ := List.exists_cons_of_ne_nil hrest
    exact hvalue

end Abacus.Operator
