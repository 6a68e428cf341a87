import Mathlib
import Abacus.Proofs.Expression.PostOrder
import Abacus.Proofs.Outcome

/-!
# Replacing a part of an expression

What a part contributes to the expression around it is its outcome and nothing else, however deep it
stands and whatever stands beside it.

* `part?`, `replaceAt`: what stands at a position, and the expression with something else there;
* `preceding`: the operations that come before a part in post-order, those inside it left out;
* `evaluate_replaceAt`: a part may be replaced by another one with the same outcome;
* `evaluate_of_part_error`: a failing part fails the expression if all that precedes it succeeds;
* `evaluate_part`: what that says of a part replaced by its value, and of a part without one.

A position is a way from the root, and each induction follows that way: `exists_arguments_eq` cuts
the arguments of an operation at the one through which it leads.
-/

namespace Abacus.Expression

/-! ## Positions -/

/-- What stands at a position, which numbers the arguments to go through, from zero. -/
def part? (e : Expression) : List ℕ → Option Expression
  | [] => some e
  | i :: p => e.arguments[i]?.bind fun a => a.part? p

/-- An operation with other arguments, if there are any. -/
def withArguments : Expression → List Expression → Expression
  | operation op _ _, first :: rest => operation op first rest
  | e, _ => e

/-- The expression with something else at a position. -/
def replaceAt (e : Expression) (p : List ℕ) (new : Expression) : Expression :=
  match p with
  | [] => new
  | i :: p => e.withArguments (e.arguments.modify i fun a => a.replaceAt p new)

/-- The operations in the arguments to the left of the way to a position, in post-order. -/
def preceding (e : Expression) : List ℕ → List Expression
  | [] => []
  | i :: p => (e.arguments.take i).flatMap postOrder ++
      e.arguments[i]?.elim [] fun a => a.preceding p

variable {e s new : Expression} {i : ℕ} {p : List ℕ}

/-- The way to a position leads through one of the arguments first. -/
theorem exists_arguments_eq (h : e.part? (i :: p) = some s) :
    ∃ before a after, e.arguments = before ++ a :: after ∧ before.length = i ∧
      a.part? p = some s ∧ e.preceding (i :: p) = before.flatMap postOrder ++ a.preceding p ∧
      ∀ new, e.replaceAt (i :: p) new = e.withArguments (before ++ a.replaceAt p new :: after) := by
  obtain ⟨a, ha, hs⟩ := Option.bind_eq_some_iff.1 h
  obtain ⟨hi, rfl⟩ := List.getElem?_eq_some_iff.1 ha
  refine ⟨e.arguments.take i, e.arguments[i], e.arguments.drop (i + 1), ?_,
    List.length_take_of_le hi.le, hs, ?_, fun new => ?_⟩
  · rw [← List.drop_eq_getElem_cons hi, List.take_append_drop]
  · rw [preceding, ha, Option.elim_some]
  · rw [replaceAt, List.modify_eq_take_cons_drop hi]

theorem arguments_withArguments {a : Expression} {before after : List Expression}
    (h : e.arguments = before ++ a :: after) (b : Expression) :
    (e.withArguments (before ++ b :: after)).arguments = before ++ b :: after := by
  cases e with
  | literal x => simp at h
  | operation op first rest => cases before <;> rfl

/-- At the position stands what was put there. -/
theorem part?_replaceAt (h : e.part? p = some s) (new : Expression) :
    (e.replaceAt p new).part? p = some new := by
  induction p generalizing e with
  | nil => rfl
  | cons i p ih =>
    obtain ⟨before, a, after, hargs, rfl, hs, -, hreplace⟩ := exists_arguments_eq h
    rw [hreplace, part?, arguments_withArguments hargs, List.getElem?_append_right le_rfl,
      Nat.sub_self, List.getElem?_cons_zero]
    exact ih hs

/-! ## Literals -/

theorem mem_literals_withArguments {args : List Expression} {y : Float}
    (h : y ∈ (e.withArguments args).literals) :
    y ∈ e.literals ∨ ∃ a ∈ args, y ∈ a.literals := by
  cases e with
  | literal x => exact .inl h
  | operation op first rest =>
    cases args with
    | nil => exact .inl h
    | cons a args =>
      rw [withArguments, literals_operation] at h
      exact .inr (List.mem_flatMap.1 h)

theorem mem_literals_of_mem_arguments {a : Expression} {y : Float} (ha : a ∈ e.arguments)
    (hy : y ∈ a.literals) : y ∈ e.literals := by
  cases e with
  | literal x => simp at ha
  | operation op first rest =>
    rw [literals_operation]
    exact List.mem_flatMap.2 ⟨a, ha, hy⟩

/-- With a part replaced, an expression has no literals but its own and those of the new part. -/
theorem mem_literals_replaceAt (h : e.part? p = some s) {y : Float}
    (hy : y ∈ (e.replaceAt p new).literals) : y ∈ e.literals ∨ y ∈ new.literals := by
  induction p generalizing e with
  | nil => exact .inr hy
  | cons i p ih =>
    obtain ⟨before, a, after, hargs, -, hs, -, hreplace⟩ := exists_arguments_eq h
    rw [hreplace] at hy
    rcases mem_literals_withArguments hy with hy | ⟨b, hb, hy⟩
    · exact .inl hy
    · have hown : ∀ c ∈ before ++ a :: after, y ∈ c.literals → y ∈ e.literals := fun c hc =>
        mem_literals_of_mem_arguments (hargs ▸ hc)
      rw [List.mem_append, List.mem_cons] at hb
      rcases hb with hb | rfl | hb
      · exact .inl (hown b (by simp [hb]) hy)
      · exact (ih hs hy).imp_left (hown a (by simp))
      · exact .inl (hown b (by simp [hb]) hy)

/-! ## Values -/

/-- The values of arguments depend on nothing but the outcome of each. -/
theorem evaluateAll_congr {a b : Expression} (h : a.evaluate = b.evaluate)
    (before after : List Expression) :
    evaluateAll (before ++ a :: after) = evaluateAll (before ++ b :: after) := by
  induction before with
  | nil => rw [List.nil_append, List.nil_append, evaluateAll, evaluateAll, h]
  | cons c before ih => rw [List.cons_append, List.cons_append, evaluateAll, evaluateAll, ih]

/-- An operation depends on nothing but the values of its arguments. -/
theorem evaluate_withArguments {args : List Expression}
    (h : evaluateAll args = evaluateAll e.arguments) :
    (e.withArguments args).evaluate = e.evaluate := by
  cases e with
  | literal x => rfl
  | operation op first rest =>
    cases args with
    | nil => rfl
    | cons a args =>
      rw [arguments_operation] at h
      rw [withArguments]
      cases hvalues : evaluateAll (first :: rest) with
      | error err =>
        rw [evaluate_operation_of_error (h.trans hvalues), evaluate_operation_of_error hvalues]
      | ok values =>
        have hcons := hvalues
        rw [evaluateAll] at hcons
        obtain ⟨x, -, hrest⟩ := bind_eq_ok_iff.1 hcons
        obtain ⟨xs, -, hxs⟩ := bind_eq_ok_iff.1 hrest
        cases hxs
        rw [evaluate_operation_of_ok (h.trans hvalues), evaluate_operation_of_ok hvalues]

/-- **A part may be replaced by another one with the same outcome**, be it a value or a failure. -/
theorem evaluate_replaceAt (h : e.part? p = some s) (hnew : new.evaluate = s.evaluate) :
    (e.replaceAt p new).evaluate = e.evaluate := by
  induction p generalizing e with
  | nil =>
    cases h
    exact hnew
  | cons i p ih =>
    obtain ⟨before, a, after, hargs, -, hs, -, hreplace⟩ := exists_arguments_eq h
    rw [hreplace]
    refine evaluate_withArguments ?_
    rw [hargs]
    exact evaluateAll_congr (ih hs) before after

/-! ## Failures -/

theorem postOrder_of_arguments_eq {a : Expression} {before after : List Expression}
    (h : e.arguments = before ++ a :: after) :
    e.postOrder = before.flatMap postOrder ++ a.postOrder ++ (after.flatMap postOrder ++ [e]) := by
  cases e with
  | literal x => simp at h
  | operation op first rest =>
    rw [arguments_operation] at h
    rw [postOrder_operation, h]
    simp

/-- **The operations of a part stand together in post-order**, after those that precede it. -/
theorem exists_postOrder_eq (h : e.part? p = some s) :
    ∃ after, e.postOrder = e.preceding p ++ s.postOrder ++ after := by
  induction p generalizing e with
  | nil =>
    cases h
    exact ⟨[], by simp [preceding]⟩
  | cons i p ih =>
    obtain ⟨before, a, after, hargs, -, hs, hpreceding, -⟩ := exists_arguments_eq h
    obtain ⟨rest, hrest⟩ := ih hs
    refine ⟨rest ++ (after.flatMap postOrder ++ [e]), ?_⟩
    rw [postOrder_of_arguments_eq hargs, hpreceding, hrest]
    simp only [List.append_assoc]

/-- An expression has a value if all its operations have one. -/
theorem exists_evaluate_of_postOrder (h : ∀ n ∈ e.postOrder, ∃ x, n.evaluate = .ok x) :
    ∃ x, e.evaluate = .ok x := by
  cases e with
  | literal x => exact ⟨x, rfl⟩
  | operation op first rest => exact h _ (by simp [postOrder_operation])

/-- **A failing part fails the expression** if the operations that precede it have values. -/
theorem evaluate_of_part_error (h : e.part? p = some s)
    (hpreceding : ∀ n ∈ e.preceding p, ∃ x, n.evaluate = .ok x) {err : EvaluationError}
    (hs : s.evaluate = .error err) : e.evaluate = .error err := by
  induction p generalizing e with
  | nil =>
    cases h
    exact hs
  | cons i p ih =>
    obtain ⟨before, a, after, hargs, -, ha, heq, -⟩ := exists_arguments_eq h
    rw [heq] at hpreceding
    have hbefore : ∀ b ∈ before, ∃ x, b.evaluate = .ok x := fun b hb =>
      exists_evaluate_of_postOrder fun n hn =>
        hpreceding n (List.mem_append_left _ (List.mem_flatMap.2 ⟨b, hb, hn⟩))
    exact evaluate_of_argument_error hargs hbefore
      (ih ha fun n hn => hpreceding n (List.mem_append_right _ hn))

/-- **Evaluation is compositional.** A part with a finite value may be replaced by the literal of
that value: the outcome of the whole expression, a value or a failure, stays the same, and its
literals stay finite. A part that fails, where every operation succeeds that precedes it in
post-order and is not inside it, fails the whole expression in the same way. -/
theorem evaluate_part {e s : Expression} {p : List ℕ} (h : e.part? p = some s) :
    (∀ x, s.evaluate = .ok x → x.isFinite = true →
      (e.replaceAt p (literal x)).part? p = some (literal x) ∧
      (e.replaceAt p (literal x)).evaluate = e.evaluate ∧
      ((∀ y ∈ e.literals, y.isFinite = true) →
        ∀ y ∈ (e.replaceAt p (literal x)).literals, y.isFinite = true)) ∧
    (∃ after, e.postOrder = e.preceding p ++ s.postOrder ++ after) ∧
    ∀ err, s.evaluate = .error err → (∀ n ∈ e.preceding p, ∃ x, n.evaluate = .ok x) →
      e.evaluate = .error err := by
  refine ⟨fun x hx hfinite => ⟨part?_replaceAt h _, evaluate_replaceAt h hx.symm,
      fun hliterals y hy => ?_⟩, exists_postOrder_eq h,
    fun err hs hpreceding => evaluate_of_part_error h hpreceding hs⟩
  rcases mem_literals_replaceAt h hy with hy | hy
  · exact hliterals y hy
  · rw [literals, List.mem_singleton] at hy
    exact hy ▸ hfinite

/-- The part at an argument of an argument, once with a value and once without. -/
theorem evaluate_part_quotient :
    let sum := operation .add (literal 1) [literal 2]
    let quotient := operation .divide (literal 1) [literal 0]
    let e := operation .multiply sum [operation .subtract (literal 4) [quotient]]
    e.part? [0] = some sum ∧ e.part? [1, 1] = some quotient ∧
      (operation .multiply (literal 3) [operation .subtract (literal 4) [quotient]]).evaluate =
        e.evaluate ∧ e.evaluate = .error .divisionByZero := by
  intro sum quotient e
  have hsum : e.part? [0] = some sum := rfl
  have hquotient : e.part? [1, 1] = some quotient := rfl
  have hvalue : sum.evaluate = .ok 3 := by decide +kernel
  have hfailure : quotient.evaluate = .error .divisionByZero := by decide +kernel
  have hpreceding : ∀ n ∈ e.preceding [1, 1], ∃ x, n.evaluate = .ok x := by
    intro n hn
    obtain rfl : n = sum := List.mem_singleton.1 hn
    exact ⟨3, hvalue⟩
  obtain ⟨-, hreplaced, -⟩ := (evaluate_part hsum).1 3 hvalue (by decide)
  exact ⟨hsum, hquotient, hreplaced, (evaluate_part hquotient).2.2 _ hfailure hpreceding⟩

end Abacus.Expression
