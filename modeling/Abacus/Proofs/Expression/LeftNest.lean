import Mathlib
import Abacus.Proofs.Expression.Tree
import Abacus.Proofs.Number.Arithmetic
import Abacus.Proofs.Operator

/-!
# Operations over many operands

An operation folds its operator over all its operands. The same operands can be nested to the left,
each in an operation with the one before it: then every accumulator of the fold becomes the value of
an operation and is looked at by the next one.

* `Operator.accumulators`: the accumulators of a fold;
* `Operator.Keeps`: an operand from which no accumulator comes back that was not finite;
* `leftNest`, `answer`: operands nested to the left, and what is answered to an expression;
* `answer_leftNest_eq_ok_iff`, `answer_leftNest_of_not_isFinite`: what a nested expression comes to,
  by induction over the operands;
* `answer_leftNest`: the fold gives the answer of the nested expression if all its accumulators are
  finite, which they are when every operand keeps. Finite operands of a sum, a difference, a product
  and a quotient keep;
* `answer_power_zero`: an exponent need not: a power with the exponent zero is answered although the
  nested one is rejected.
-/

namespace Abacus

namespace Operator

/-- The accumulators of a fold, one for each operand, up to a quotient by zero. -/
def accumulators (op : Operator) (acc : Float) : List Float → List Float
  | [] => []
  | x :: rest => ((op.step? acc x).map fun y => y :: accumulators op y rest).getD []

/-- No accumulator that is not finite becomes finite by the operand `x`. -/
def Keeps (op : Operator) (x : Float) : Prop :=
  ∀ acc y, acc.isFinite = false → op.step? acc x = some y → y.isFinite = false

theorem fold?_cons_of_step {op : Operator} {acc x y : Float} (h : op.step? acc x = some y)
    (rest : List Float) : op.fold? acc (x :: rest) = op.fold? y rest := by
  rw [fold?, h, Option.bind_some]

theorem accumulators_cons_of_step {op : Operator} {acc x y : Float}
    (h : op.step? acc x = some y) (rest : List Float) :
    op.accumulators acc (x :: rest) = y :: op.accumulators y rest := by
  rw [accumulators, h, Option.map_some, Option.getD_some]

/-- A fold ends with one of its accumulators, or with the one that it began with. -/
theorem mem_accumulators {op : Operator} {xs : List Float} {acc r : Float}
    (hr : op.fold? acc xs = some r) : r ∈ acc :: op.accumulators acc xs := by
  induction xs generalizing acc with
  | nil =>
    cases hr
    exact List.mem_cons_self
  | cons x xs ih =>
    obtain ⟨y, hy, hr⟩ := Option.bind_eq_some_iff.1 hr
    rw [accumulators_cons_of_step hy]
    exact List.mem_cons_of_mem _ (ih hr)

/-- A fold over operands that keep has been finite all along if it is at its end. -/
theorem isFinite_accumulators {op : Operator} {xs : List Float} (h : ∀ x ∈ xs, op.Keeps x)
    {acc r : Float} (hr : op.fold? acc xs = some r) (hfinite : r.isFinite = true) :
    ∀ y ∈ acc :: op.accumulators acc xs, y.isFinite = true := by
  induction xs generalizing acc with
  | nil =>
    cases hr
    simpa [accumulators] using hfinite
  | cons x xs ih =>
    obtain ⟨hx, hxs⟩ := List.forall_mem_cons.1 h
    obtain ⟨y, hy, hr⟩ := Option.bind_eq_some_iff.1 hr
    have hys := ih hxs hr
    rw [accumulators_cons_of_step hy]
    refine List.forall_mem_cons.2 ⟨?_, hys⟩
    by_contra hacc
    have hlost : y.isFinite = false := hx acc y (Bool.eq_false_iff.2 hacc) hy
    rw [hys y (by simp)] at hlost
    cases hlost

/-! ## Which operands keep -/

/-- A finite operand of a sum, a difference, a product or a quotient keeps. -/
theorem keeps_of_isFinite {op : Operator} (hpower : op ≠ power) (hroot : op ≠ root) {x : Float}
    (hx : x.isFinite = true) : op.Keeps x := by
  intro acc y hacc hy
  cases op with
  | add => cases hy; exact Number.isFinite_add hacc hx
  | subtract => cases hy; exact Number.isFinite_sub hacc hx
  | multiply => cases hy; exact Number.isFinite_mul hacc hx
  | divide =>
    rw [step?, Arithmetic.quotient?] at hy
    split_ifs at hy
    cases hy
    exact Number.isFinite_div hacc hx
  | power => exact absurd rfl hpower
  | root => exact absurd rfl hroot

end Operator

namespace Expression

/-- An expression with more operands, each in an operation of its own over what stands before. -/
def leftNest (op : Operator) (e : Expression) : List Float → Expression
  | [] => e
  | x :: xs => leftNest op (operation op e [literal x]) xs

/-- What is answered to an expression: its value, if that is finite. -/
def answer (e : Expression) : Except EvaluationError Float := e.evaluate >>= ensureFinite

theorem answer_of_error {e : Expression} {err : EvaluationError} (h : e.evaluate = .error err) :
    e.answer = .error err := by
  rw [answer, h]
  rfl

theorem answer_of_ok {e : Expression} {x : Float} (h : e.evaluate = .ok x) :
    e.answer = ensureFinite x := by
  rw [answer, h]
  rfl

theorem ensureFinite_eq_ok_iff {x r : Float} :
    ensureFinite x = .ok r ↔ x = r ∧ r.isFinite = true := by
  rw [ensureFinite]
  split_ifs with h
  · rw [Except.ok.injEq]
    exact ⟨fun hr => ⟨hr, hr ▸ h⟩, And.left⟩
  · exact iff_of_false (by rintro ⟨⟩) (by rintro ⟨rfl, hr⟩; exact h hr)

/-- A finite value is answered. -/
theorem answer_eq_ok_iff {e : Expression} {r : Float} :
    e.answer = .ok r ↔ e.evaluate = .ok r ∧ r.isFinite = true := by
  cases h : e.evaluate with
  | error err =>
    rw [answer_of_error h]
    exact iff_of_false (by rintro ⟨⟩) (by rintro ⟨⟨⟩, -⟩)
  | ok x => rw [answer_of_ok h, ensureFinite_eq_ok_iff, Except.ok.injEq]

/-! ## Evaluating operands -/

theorem evaluate_pair_of_ok {op : Operator} {e : Expression} {a : Float}
    (h : e.evaluate = .ok a) (x : Float) :
    (operation op e [literal x]).evaluate = op.apply a [x] :=
  evaluate_operation_of_ok (evaluateAll_cons_of_ok h (evaluateAll_literal [x]))

theorem evaluate_pair_of_error {op : Operator} {e : Expression} {err : EvaluationError}
    (h : e.evaluate = .error err) (x : Float) :
    (operation op e [literal x]).evaluate = .error err := by
  have hargs : evaluateAll ([] ++ e :: [literal x]) = .error err :=
    evaluateAll_of_error [literal x] (by simp) h
  exact evaluate_operation_of_error hargs

/-! ## Evaluating nested operations -/

/-- A failure passes through all operations around it. -/
theorem evaluate_leftNest_of_error {op : Operator} {e : Expression} {err : EvaluationError}
    (h : e.evaluate = .error err) (xs : List Float) :
    (leftNest op e xs).evaluate = .error err := by
  induction xs generalizing e with
  | nil => exact h
  | cons x xs ih => exact ih (evaluate_pair_of_error h x)

/-- What it takes for operations nested to the left to be answered: finite operands, none of them a
zero that is divided by, and a fold whose accumulators are finite all along. -/
theorem answer_leftNest_eq_ok_iff {op : Operator} {e : Expression} {acc : Float}
    (he : e.evaluate = .ok acc) {xs : List Float} {r : Float} :
    (leftNest op e xs).answer = .ok r ↔ (∀ x ∈ xs, x.isFinite = true) ∧
      (op.IsGuarded → ∀ x ∈ xs, (x == 0) = false) ∧ op.fold? acc xs = some r ∧
        ∀ y ∈ acc :: op.accumulators acc xs, y.isFinite = true := by
  induction xs generalizing e acc with
  | nil =>
    rw [leftNest, answer_of_ok he, ensureFinite_eq_ok_iff, Operator.fold?, Option.some.injEq]
    constructor
    · rintro ⟨rfl, hr⟩
      exact ⟨by simp, by simp, rfl, by simpa [Operator.accumulators] using hr⟩
    · rintro ⟨-, -, rfl, h⟩
      exact ⟨rfl, h acc (by simp)⟩
  | cons x xs ih =>
    rw [leftNest]
    cases happly : op.apply acc [x] with
    | error err =>
      rw [answer_of_error
        (evaluate_leftNest_of_error ((evaluate_pair_of_ok he x).trans happly) xs)]
      refine iff_of_false (by rintro ⟨⟩) ?_
      rintro ⟨hfinite, hguard, hfold, hacc⟩
      obtain ⟨y, hy, -⟩ := Option.bind_eq_some_iff.1 hfold
      have : op.apply acc [x] = .ok y := by
        refine Operator.apply_eq_ok_iff.2 ⟨?_, ?_, ?_⟩
        · simp [hacc acc, hfinite x]
        · simpa using fun hop => hguard hop x (by simp)
        · rw [Operator.fold?_cons_of_step hy]
          rfl
      rw [happly] at this
      cases this
    | ok y =>
      rw [ih ((evaluate_pair_of_ok he x).trans happly)]
      obtain ⟨hfinite, hguard, hfold⟩ := Operator.apply_eq_ok_iff.1 happly
      obtain ⟨z, hz, hfold⟩ := Option.bind_eq_some_iff.1 hfold
      cases hfold
      rw [Operator.fold?_cons_of_step hz, Operator.accumulators_cons_of_step hz]
      simp only [List.forall_mem_cons] at hfinite hguard ⊢
      tauto

/-- Operations nested to the left are rejected for the first accumulator that is not finite. -/
theorem answer_leftNest_of_not_isFinite {op : Operator} {e : Expression} {acc : Float}
    (he : e.evaluate = .ok acc) {xs : List Float} (hxs : ∀ x ∈ xs, x.isFinite = true)
    (hguard : op.IsGuarded → ∀ x ∈ xs, (x == 0) = false)
    (h : ¬∀ y ∈ acc :: op.accumulators acc xs, y.isFinite = true) :
    (leftNest op e xs).answer = .error .nonFiniteValue := by
  induction xs generalizing e acc with
  | nil =>
    have hacc : ¬acc.isFinite = true := by simpa [Operator.accumulators] using h
    rw [leftNest, answer_of_ok he, ensureFinite, if_neg hacc]
  | cons x xs ih =>
    rw [leftNest]
    by_cases hacc : acc.isFinite = true
    · obtain ⟨y, hy⟩ := Operator.step?_of_ne_zero (fun hop => hguard hop x (by simp)) acc
      have happly : op.apply acc [x] = .ok y := by
        refine Operator.apply_eq_ok_iff.2 ⟨by simp [hacc, hxs x], ?_, ?_⟩
        · simpa using fun hop => hguard hop x (by simp)
        · rw [Operator.fold?_cons_of_step hy]
          rfl
      refine ih ((evaluate_pair_of_ok he x).trans happly) (fun z hz => hxs z (by simp [hz]))
        (fun hop z hz => hguard hop z (by simp [hz])) fun hys => h ?_
      rw [Operator.accumulators_cons_of_step hy]
      exact List.forall_mem_cons.2 ⟨hacc, hys⟩
    · have happly : op.apply acc [x] = .error .nonFiniteValue :=
        Operator.apply_of_not_isFinite List.mem_cons_self (Bool.eq_false_iff.2 hacc)
      exact answer_of_error
        (evaluate_leftNest_of_error ((evaluate_pair_of_ok he x).trans happly) xs)

/-! ## The fold against the nested operations -/

section

variable {op : Operator} {x y : Float} {rest : List Float}

theorem evaluate_operation_literal_eq_ok_iff {s : Float} :
    (operation op (literal x) ((y :: rest).map literal)).evaluate = .ok s ↔
      (∀ z ∈ x :: y :: rest, z.isFinite = true) ∧
        (op.IsGuarded → ∀ z ∈ y :: rest, (z == 0) = false) ∧ op.fold? x (y :: rest) = some s := by
  rw [evaluate_operation_literal, Operator.apply_eq_ok_iff]

/-- The nested operations are answered as the fold is, if all its accumulators are finite. -/
theorem answer_leftNest_iff {r : Float} :
    (leftNest op (literal x) (y :: rest)).answer = .ok r ↔
      (operation op (literal x) ((y :: rest).map literal)).answer = .ok r ∧
        ∀ z ∈ op.accumulators x (y :: rest), z.isFinite = true := by
  have hx : (literal x).evaluate = .ok x := rfl
  rw [answer_leftNest_eq_ok_iff hx, answer_eq_ok_iff, evaluate_operation_literal_eq_ok_iff]
  constructor
  · rintro ⟨hfinite, hguard, hfold, hacc⟩
    have hr := hacc r (Operator.mem_accumulators hfold)
    obtain ⟨hx, hacc⟩ := List.forall_mem_cons.1 hacc
    exact ⟨⟨⟨List.forall_mem_cons.2 ⟨hx, hfinite⟩, hguard, hfold⟩, hr⟩, hacc⟩
  · rintro ⟨⟨⟨hfinite, hguard, hfold⟩, -⟩, hacc⟩
    obtain ⟨hx, hfinite⟩ := List.forall_mem_cons.1 hfinite
    exact ⟨hfinite, hguard, hfold, List.forall_mem_cons.2 ⟨hx, hacc⟩⟩

/-- If the operands after the second keep, a fold with a finite value has been finite all along. -/
theorem isFinite_accumulators_of_evaluate (hkeeps : ∀ z ∈ rest, op.Keeps z) {s : Float}
    (h : (operation op (literal x) ((y :: rest).map literal)).evaluate = .ok s)
    (hs : s.isFinite = true) : ∀ z ∈ op.accumulators x (y :: rest), z.isFinite = true := by
  obtain ⟨-, -, hfold⟩ := evaluate_operation_literal_eq_ok_iff.1 h
  obtain ⟨z, hz, hfold⟩ := Option.bind_eq_some_iff.1 hfold
  rw [Operator.accumulators_cons_of_step hz]
  exact Operator.isFinite_accumulators hkeeps hfold hs

/-- Operands that have been evaluated keep under the four operators that are no powers. -/
theorem keeps_of_evaluate (hpower : op ≠ .power) (hroot : op ≠ .root) {s : Float}
    (h : (operation op (literal x) ((y :: rest).map literal)).evaluate = .ok s) :
    ∀ z ∈ rest, op.Keeps z := fun z hz =>
  Operator.keeps_of_isFinite hpower hroot
    ((evaluate_operation_literal_eq_ok_iff.1 h).1 z (by simp [hz]))

/-- **An operation over many operands against operations nested to the left.** Both give the same
answer if the accumulators of the fold are all finite; if one is not, the nested operations are
rejected for it. When the operands after the second keep, the accumulators are finite if the answer
is. So a sum, a difference, a product and a quotient always mean the nested operations, and are
rejected themselves for an accumulator that is not finite. -/
theorem answer_leftNest (op : Operator) (x y : Float) (rest : List Float) :
    (∀ r, (leftNest op (literal x) (y :: rest)).answer = .ok r ↔
      (operation op (literal x) ((y :: rest).map literal)).answer = .ok r ∧
        ∀ z ∈ op.accumulators x (y :: rest), z.isFinite = true) ∧
    (∀ s, (operation op (literal x) ((y :: rest).map literal)).evaluate = .ok s →
      (¬∀ z ∈ op.accumulators x (y :: rest), z.isFinite = true) →
        (leftNest op (literal x) (y :: rest)).answer = .error .nonFiniteValue) ∧
    ((∀ z ∈ rest, op.Keeps z) → ∀ r, (leftNest op (literal x) (y :: rest)).answer = .ok r ↔
      (operation op (literal x) ((y :: rest).map literal)).answer = .ok r) ∧
    (op ≠ .power → op ≠ .root →
      (∀ r, (leftNest op (literal x) (y :: rest)).answer = .ok r ↔
        (operation op (literal x) ((y :: rest).map literal)).answer = .ok r) ∧
      ∀ s, (operation op (literal x) ((y :: rest).map literal)).evaluate = .ok s →
        (¬∀ z ∈ op.accumulators x (y :: rest), z.isFinite = true) →
          (operation op (literal x) ((y :: rest).map literal)).answer =
            .error .nonFiniteValue) := by
  refine ⟨fun r => answer_leftNest_iff, fun s hs hacc => ?_, fun hkeeps r => ?_,
    fun hpower hroot => ⟨fun r => ?_, fun s hs hacc => ?_⟩⟩
  · obtain ⟨hfinite, hguard, -⟩ := evaluate_operation_literal_eq_ok_iff.1 hs
    exact answer_leftNest_of_not_isFinite rfl (List.forall_mem_cons.1 hfinite).2 hguard
      fun h => hacc (List.forall_mem_cons.1 h).2
  · refine answer_leftNest_iff.trans ⟨And.left, fun h => ⟨h, ?_⟩⟩
    obtain ⟨hr, hfinite⟩ := answer_eq_ok_iff.1 h
    exact isFinite_accumulators_of_evaluate hkeeps hr hfinite
  · refine answer_leftNest_iff.trans ⟨And.left, fun h => ⟨h, ?_⟩⟩
    obtain ⟨hr, hfinite⟩ := answer_eq_ok_iff.1 h
    exact isFinite_accumulators_of_evaluate (keeps_of_evaluate hpower hroot hr) hr hfinite
  · rw [answer_of_ok hs, ensureFinite, if_neg]
    exact fun hfinite =>
      hacc (isFinite_accumulators_of_evaluate (keeps_of_evaluate hpower hroot hs) hs hfinite)

/-- **The exponent zero answers a power that has overflowed**, where the nested operations are
rejected for the overflow. -/
theorem answer_power_zero (hone : ∀ a, Float.pow a 0 = 1) (hx : x.isFinite = true)
    (hy : y.isFinite = true) (hoverflow : (Arithmetic.power x y).isFinite = false) :
    (operation .power (literal x) [literal y, literal 0]).answer = .ok 1 ∧
      (leftNest .power (literal x) [y, 0]).answer = .error .nonFiniteValue := by
  have hlast : Arithmetic.power (Arithmetic.power x y) 0 = 1 := by
    rw [Arithmetic.power_of_isFinite (hone _ ▸ by decide), hone]
  have hfold : Operator.fold? .power x [y, 0] = some 1 := by
    rw [Operator.fold?_cons_of_step rfl, Operator.fold?_cons_of_step rfl, hlast]
    rfl
  have hzero : (0 : Float).isFinite = true := by decide
  constructor
  · refine answer_eq_ok_iff.2 ⟨evaluate_operation_literal_eq_ok_iff.2 ⟨?_, ?_, hfold⟩, by decide⟩
    · simp [hx, hy, hzero]
    · rintro (⟨⟨⟩⟩ | ⟨⟨⟩⟩)
  · refine answer_leftNest_of_not_isFinite rfl (by simp [hy, hzero]) ?_ fun h => ?_
    · rintro (⟨⟨⟩⟩ | ⟨⟨⟩⟩)
    · rw [Operator.accumulators_cons_of_step rfl] at h
      rw [h _ (by simp)] at hoverflow
      cases hoverflow

end

end Expression

end Abacus
