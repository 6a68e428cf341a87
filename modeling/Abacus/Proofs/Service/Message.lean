import Mathlib
import Abacus.Proofs.Service.Failure

/-!
# What the service tells is printable

Whatever a service is asked, with a site or without, the message that a failed request is answered
with is printable: what it shows of the request is quoted.

* `Interruption.IsPrintable`: interruptions that are answered as they are, in printable words;
* `Direct.isPrintable`, `Calculation.isPrintable`, `Site.isPrintable`: the interruptions of direct
  questions, of expressions and of requests for files;
* `Service.isPrintable`: those of all requests;
* `Service.outcome_post`: how a request that posts something ends.
-/

namespace Abacus

/-- An interruption that is answered as it is, in printable words. -/
structure Interruption.IsPrintable (i : Interruption) : Prop where
  isOrdinary : i.IsOrdinary
  printable : i.told.2.Printable

namespace Interruption

theorem isPrintable_rejected {r : Rejection} (h : r.message.Printable) :
    (rejected r).IsPrintable :=
  ⟨.rejected r, h⟩

theorem isPrintable_crashed (cause : Text) : (crashed cause).IsPrintable :=
  ⟨.crashed cause, Text.printable_ofString _⟩

/-- The refusals of what is not there and of a wrong method are told alike. -/
theorem isPrintable_refused {status : ℕ} (hstatus : status = 404 ∨ status = 405) {detail : Text}
    (hdetail : detail.Printable) : (refused status detail []).IsPrintable := by
  have htold : (refused status detail []).told = (404, notFoundMessage) := by
    rw [told, if_pos hstatus]
  refine ⟨.refused (by omega) hdetail.writable, ?_⟩
  rw [htold]
  exact Text.printable_ofString _

theorem isPrintable_notFound : notFound.IsPrintable :=
  isPrintable_refused (.inl rfl) (Text.printable_ofString _)

theorem isPrintable_ofOperandError (e : OperandError) : (ofOperandError e).IsPrintable := by
  cases e with
  | invalid => exact isPrintable_rejected (Rejection.printable_plain _)
  | unreadable t => exact isPrintable_crashed _

theorem isPrintable_ofEvaluationError (e : EvaluationError) :
    (ofEvaluationError e).IsPrintable := by
  unfold ofEvaluationError
  split
  · next h => exact isPrintable_rejected (Rejection.printable_evaluation h)
  · exact isPrintable_crashed _

end Interruption

open Interruption (isPrintable_rejected isPrintable_refused isPrintable_notFound
  isPrintable_ofOperandError isPrintable_ofEvaluationError)

variable {i : Interruption}

/-- A direct question is interrupted in printable words. -/
theorem Direct.isPrintable {op : Operator} {query : Bytes} (h : answer op query = .error i) :
    i.IsPrintable := by
  simp only [answer, bind_eq_error_iff, mapError_eq_error_iff] at h
  rcases h with ⟨e, -, rfl⟩ | ⟨operands, -, h⟩
  · exact isPrintable_ofOperandError e
  rcases h with ⟨e, -, rfl⟩ | ⟨result, -, h⟩
  · exact isPrintable_ofEvaluationError e
  · cases h

/-- An expression is interrupted in printable words. -/
theorem Calculation.isPrintable {limit : ℤ} {body : Bytes}
    (h : answer limit evaluator body = .error i) : i.IsPrintable := by
  obtain ⟨v, hv⟩ := exists_decides limit body
  rw [hv.answer_eq] at h
  cases v with
  | value x => cases h
  | rejection r =>
    cases h
    exact isPrintable_rejected hv.printable

namespace Site

variable {files : Files} {folder : Place}

theorem lookup_eq_error {parts : List Text} (h : lookup files folder parts = .error i) :
    i = .notFound := by
  unfold lookup at h
  split_ifs at h
  · exact (Except.error.inj h).symm
  · split at h
    · cases h
    · split_ifs at h
      · exact (Except.error.inj h).symm
      · split at h
        · exact (Except.error.inj h).symm
        · cases h
        · cases h

theorem missing_eq_error {r : Request} (h : missing files folder r = .error i) :
    i = .notFound := by
  rw [missing, bind_eq_error_iff] at h
  rcases h with h | ⟨found, -, h⟩
  · exact lookup_eq_error h
  · split at h
    · cases h
    · exact (Except.error.inj h).symm

theorem eq_error_of_answer {r : Request} (h : answer files folder r = .error i) :
    i = .refused 405 "Method Not Allowed" [] ∨ i = .notFound := by
  unfold answer at h
  dsimp only at h
  by_cases hmethod : (r.method ≠ "GET" && r.method ≠ "HEAD") = true
  · rw [if_pos hmethod] at h
    exact .inl (Except.error.inj h).symm
  rw [if_neg hmethod, bind_eq_error_iff] at h
  right
  rcases h with h | ⟨found, -, h⟩
  · exact lookup_eq_error h
  split at h
  · cases h
  · rw [bind_eq_error_iff] at h
    rcases h with h | ⟨index, -, h⟩
    · exact lookup_eq_error h
    split at h
    · split_ifs at h <;> cases h
    · exact missing_eq_error h
  · exact missing_eq_error h

/-- A request for a file is interrupted in printable words. -/
theorem isPrintable {r : Request} (h : answer files folder r = .error i) : i.IsPrintable := by
  rcases eq_error_of_answer h with rfl | rfl
  · exact isPrintable_refused (.inr rfl) (Text.printable_ofString _)
  · exact isPrintable_notFound

end Site

namespace Service

variable {settings : Settings} {files : Files} {r : Request}

/-- A request that no route takes is redirected or for nothing. -/
theorem fallback_cases (s : Service) (r : Request) :
    (∃ location, s.fallback r = .ok (.redirect location)) ∨ s.fallback r = .error .notFound := by
  unfold fallback
  split_ifs
  · exact .inl ⟨_, rfl⟩
  · exact .inr rfl

/-- **Whatever a service is asked, it is interrupted in printable words.** -/
theorem isPrintable (h : (ofSettings settings files).outcome r = .error i) : i.IsPrintable := by
  unfold outcome at h
  cases hroute : (ofSettings settings files).route? r with
  | some route =>
    rw [hroute] at h
    cases route with
    | endpoint e =>
      cases e with
      | direct op => exact Direct.isPrintable h
      | calculate => exact Calculation.isPrintable h
      | index => cases h
    | site folder => exact Site.isPrintable h
  | none =>
    rw [hroute] at h
    dsimp only at h
    obtain ⟨location, hfallback⟩ | hfallback := (ofSettings settings files).fallback_cases r
    · rw [hfallback] at h
      cases h
    · rw [hfallback] at h
      obtain rfl := Except.error.inj h
      exact isPrintable_notFound

/-- **How a request that posts something ends**: as an expression, in a redirect or in an
interruption. -/
theorem outcome_post (settings : Settings) (files : Files) {r : Request}
    (hpost : r.method = "POST") :
    (ofSettings settings files).outcome r =
        Calculation.answer settings.depth Calculation.evaluator r.body ∨
      (∃ location, (ofSettings settings files).outcome r = .ok (.redirect location)) ∨
        ∃ i, (ofSettings settings files).outcome r = .error i := by
  unfold outcome
  cases hroute : (ofSettings settings files).route? r with
  | some route =>
    cases route with
    | endpoint e =>
      have hmethod := (Endpoint.fits_iff.1 (takes_of_route? hroute)).2
      rw [hpost] at hmethod
      cases e with
      | direct op => exact absurd hmethod (by simp only [Endpoint.method]; decide)
      | calculate => exact .inl rfl
      | index => exact absurd hmethod (by decide)
    | site folder =>
      refine .inr (.inr ⟨.refused 405 "Method Not Allowed" [], ?_⟩)
      simp only [routeAnswer, Site.answer, hpost]
      rfl
  | none =>
    obtain ⟨location, hfallback⟩ | hfallback := (ofSettings settings files).fallback_cases r
    · exact .inr (.inl ⟨location, hfallback⟩)
    · exact .inr (.inr ⟨.notFound, hfallback⟩)

end Service

end Abacus
