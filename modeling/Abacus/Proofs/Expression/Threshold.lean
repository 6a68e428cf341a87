import Mathlib
import Abacus.Proofs.Expression.Defect

/-!
# The limit on the nesting is a threshold

The limit decides whether a value is nested too deep, and nothing else. A value that is an
expression is the same expression under every limit that admits its nesting, and is rejected for its
depth under every other; a defect of another kind that is reported under a limit is reported under
every larger one.

* `Defect.of_le`, `Defect.exists_of_le`: the defects of one position under two limits;
* `Flawless.of_le`, `FirstDefect.of_le`: the same of a list of positions;
* `validate_ok_of_le`, `validate_error_of_le`: the validator under two limits.

The positions of a value do not depend on the limit, so the two runs are compared position by
position and need no induction of their own.
-/

namespace Abacus

/-- Something else than the depth is wrong. -/
def ValidationError.IsStructural (e : ValidationError) : Prop :=
  ∀ limit, e ≠ .depthLimitExceeded limit

namespace Expression

variable {limit limit' : ℤ} {p : Position} {ps : List Position} {v : Json.Value}
  {e : ValidationError}

/-! ## One position -/

/-- A defect of another kind than depth remains under a larger limit. -/
theorem Defect.of_le (h : Defect limit p e) (he : e.IsStructural) (hle : limit ≤ limit') :
    Defect limit' p e := by
  cases h with
  | notANodeOrNumber hnumber hobject => exact .notANodeOrNumber hnumber hobject
  | depthLimitExceeded => exact absurd rfl (he limit)
  | unsupportedOperator hnode hdepth hvalue hunknown =>
    exact .unsupportedOperator hnode (hdepth.trans hle) hvalue hunknown
  | argumentsNotASequence hdepth hop hargs =>
    exact .argumentsNotASequence (hdepth.trans hle) hop hargs
  | emptyArguments hdepth hop hargs => exact .emptyArguments (hdepth.trans hle) hop hargs

/-- The depth is too large for the limit of which the defect tells. -/
theorem Defect.eq_limit {l : ℤ} (h : Defect limit p (.depthLimitExceeded l)) : l = limit := by
  cases h
  rfl

/-- A position that is defective under a limit is defective under every smaller one. -/
theorem Defect.exists_of_le (h : Defect limit' p e) (hle : limit ≤ limit') :
    ∃ e', Defect limit p e' := by
  by_cases he : ∃ k members, p = ⟨k, .object members⟩ ∧ IsNode members ∧ limit < k + 1
  · obtain ⟨k, members, rfl, hnode, hdeep⟩ := he
    exact ⟨_, .depthLimitExceeded hnode hdeep⟩
  have hdepth : ∀ {k members}, p = ⟨k, .object members⟩ → IsNode members → k + 1 ≤ limit :=
    fun hp hnode => not_lt.1 fun hdeep => he ⟨_, _, hp, hnode, hdeep⟩
  cases h with
  | notANodeOrNumber hnumber hobject => exact ⟨_, .notANodeOrNumber hnumber hobject⟩
  | depthLimitExceeded hnode hdeep => exact ⟨_, .depthLimitExceeded hnode (hle.trans_lt hdeep)⟩
  | unsupportedOperator hnode _ hvalue hunknown =>
    exact ⟨_, .unsupportedOperator hnode (hdepth rfl hnode) hvalue hunknown⟩
  | argumentsNotASequence _ hop hargs =>
    exact ⟨_, .argumentsNotASequence (hdepth rfl (.inl (by simp [hop]))) hop hargs⟩
  | emptyArguments _ hop hargs =>
    exact ⟨_, .emptyArguments (hdepth rfl (.inl (by simp [hop]))) hop hargs⟩

/-! ## All positions -/

theorem Flawless.of_le (h : Flawless limit ps) (hle : limit ≤ limit') : Flawless limit' ps := by
  intro p hp e he
  obtain ⟨e', he'⟩ := he.exists_of_le hle
  exact h p hp e' he'

theorem FirstDefect.of_le (h : FirstDefect limit ps e) (he : e.IsStructural)
    (hle : limit ≤ limit') : FirstDefect limit' ps e := by
  obtain ⟨before, p, after, rfl, hbefore, hp⟩ := h
  exact ⟨before, p, after, rfl, hbefore.of_le hle, hp.of_le he hle⟩

/-! ## The validator -/

theorem validate_eq_ok_iff {a : Expression} :
    validate limit v = .ok a ↔ Mirrors v a ∧ a.nesting ≤ limit.toNat :=
  walk_eq_ok_iff

/-- What is an expression under a limit is the same expression under a larger one. -/
theorem validate_ok_of_le {a : Expression} (h : validate limit v = .ok a) (hle : limit ≤ limit') :
    validate limit' v = .ok a := by
  obtain ⟨hmirrors, hnesting⟩ := validate_eq_ok_iff.1 h
  exact validate_eq_ok_iff.2 ⟨hmirrors, hnesting.trans (Int.toNat_le_toNat hle)⟩

/-- What is rejected for something else than its depth is rejected for it under a larger limit. -/
theorem validate_error_of_le (h : validate limit v = .error e) (he : e.IsStructural)
    (hle : limit ≤ limit') : validate limit' v = .error e :=
  validate_eq_error_iff.2 ((validate_eq_error_iff.1 h).of_le he hle)

/-- The limit that is reported is the one that was set. -/
theorem eq_limit_of_validate {l : ℤ} (h : validate limit v = .error (.depthLimitExceeded l)) :
    l = limit := by
  obtain ⟨before, p, after, -, -, hp⟩ := validate_eq_error_iff.1 h
  exact hp.eq_limit

/-- An expression is rejected for its depth under a limit that does not admit its nesting: it would
be accepted under a larger one, so nothing else is wrong with it. -/
theorem validate_of_lt_nesting {a : Expression} (h : validate limit' v = .ok a)
    (hlimit : 0 ≤ limit) (hlt : limit < a.nesting) :
    validate limit v = .error (.depthLimitExceeded limit) := by
  have hnesting := (validate_eq_ok_iff.1 h).2
  have hle : limit ≤ limit' := by omega
  cases hv : validate limit v with
  | ok b =>
    have hb := (validate_eq_ok_iff.1 hv).2
    have hab : a = b := Except.ok.inj (h.symm.trans (validate_ok_of_le hv hle))
    rw [hab] at hlt
    omega
  | error e =>
    by_cases he : e.IsStructural
    · rw [validate_error_of_le hv he hle] at h
      cases h
    · obtain ⟨l, rfl⟩ : ∃ l, e = .depthLimitExceeded l := by
        simpa only [ValidationError.IsStructural, not_forall, not_not] using he
      rw [eq_limit_of_validate hv]

/-- **The limit on the nesting is a threshold.** A larger limit gives the same expression, and the
same error if that is not about the depth. A value that is an expression under some limit is this
expression under exactly the limits that its nesting does not exceed, and under all others it is
rejected for its depth and for nothing else. -/
theorem validate_threshold (v : Json.Value) :
    (∀ limit limit' : ℤ, limit ≤ limit' →
      (∀ a, validate limit v = .ok a → validate limit' v = .ok a) ∧
        ∀ e, (∀ l, e ≠ .depthLimitExceeded l) → validate limit v = .error e →
          validate limit' v = .error e ∧ e.rejection.message = e.wording) ∧
      ∀ (limit' : ℤ) a, validate limit' v = .ok a → ∀ limit : ℤ, 0 ≤ limit →
        (a.nesting ≤ limit → validate limit v = .ok a) ∧
          (limit < a.nesting → validate limit v = .error (.depthLimitExceeded limit)) := by
  refine ⟨fun limit limit' hle => ⟨fun a ha => validate_ok_of_le ha hle, fun e hne he =>
      ⟨validate_error_of_le he hne hle, message_rejection e⟩⟩,
    fun limit' a ha limit hlimit => ⟨fun hle => ?_, validate_of_lt_nesting ha hlimit⟩⟩
  exact validate_eq_ok_iff.2 ⟨(validate_eq_ok_iff.1 ha).1, by omega⟩

end Expression

end Abacus
