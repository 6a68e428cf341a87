import Mathlib
import Abacus.Proofs.Operand
import Abacus.Proofs.Service.Agreement

/-!
# Every direct question is answered

Whatever bytes stand in the query, a direct question is answered in one of three ways: with the
verdict on its operands, with the message about operands that are none, or, for operands with a
separator about a number, as a crash.

* `Interruption.tells_report`: the response about a failure is read back;
* `Direct.answer_of_error`: operands that are not read decide the response by themselves;
* `Direct.members`, `Direct.tells_of_settles`: the response that tells the verdict on two operands;
* `direct_answers`: the three ways, and when each of them is taken.
-/

namespace Abacus

/-- The response about a failure tells its message. -/
theorem Interruption.tells_report (status : ℕ) (message : Text) :
    (report status message).Tells status [("error", .text message)] := by
  apply Response.tells_json
  refine .object (List.nodup_singleton _) fun m hm => ?_
  rw [List.mem_singleton.1 hm]
  exact .text message

namespace Direct

/-- The members of the body that tells a verdict on two operands. -/
def members (op : Operator) (x y : Float) : Verdict → Json.Members
  | .value r => (DirectAnswer.mk (Text.ofString op.name) x y r).toData
  | .rejection r => [("error", .text r.message)]

variable {settings : Settings} {files : Files} {op : Operator} {query : Bytes} {x y : Float}

/-- Operands that are not read decide the response. -/
theorem answer_of_error {e : OperandError}
    (h : Operand.parse (Form.value? (Form.decode query) "v1")
      (Form.value? (Form.decode query) "v2") = .error e) :
    (Service.ofSettings settings files).answer (request op query) =
      Interruption.conclude (request op query) (.error (Interruption.ofOperandError e)) := by
  unfold Service.answer
  rw [outcome_request]
  unfold answer
  dsimp only
  rw [h]
  rfl

/-- **The response to a direct question tells the verdict on its operands.** -/
theorem tells_of_settles (hquery : HasOperands query x y) {v : Verdict} (hv : op.Settles x y v)
    (settings : Settings) (files : Files) :
    ((Service.ofSettings settings files).answer (request op query)).1.Tells v.status
      (members op x y v) := by
  obtain ⟨hx, hy⟩ := Operand.isFinite_of_parse hquery
  rw [response_eq hquery, hv.compute_eq hx hy]
  cases hv with
  | value _ hr => exact Response.tells_json 200 (DirectAnswer.readable hx hy hr)
  | nonFinite => exact Interruption.tells_report 400 _
  | divisionByZero => exact Interruption.tells_report 400 _
  | zeroDegreeRoot => exact Interruption.tells_report 400 _

end Direct

/-- The kinds of rejections of two operands. -/
def Rejection.ofOperands : List Rejection.Kind :=
  [.divisionByZero, .zeroDegreeRoot, .nonFiniteValue]

/-- The kinds of rejections of a direct question. -/
def Rejection.ofDirect : List Rejection.Kind := .invalidParameters :: ofOperands

/-- Operands that are rejected are never called invalid. -/
theorem Rejection.message_ofOperands_ne : ∀ kind ∈ ofOperands,
    (plain kind).message ≠ (plain .invalidParameters).message := by
  decide

/-- The verdict on two operands is a finite value or a rejection of one of three kinds. -/
theorem Operator.Settles.cases {op : Operator} {x y : Float} {v : Verdict}
    (h : op.Settles x y v) :
    (∃ r, v = .value r ∧ r.isFinite = true) ∨
      ∃ kind ∈ Rejection.ofOperands, v = .rejection (Rejection.plain kind) := by
  cases h with
  | value _ hr => exact .inl ⟨_, rfl, hr⟩
  | nonFinite => exact .inr ⟨.nonFiniteValue, by decide, rfl⟩
  | divisionByZero => exact .inr ⟨.divisionByZero, by decide, rfl⟩
  | zeroDegreeRoot => exact .inr ⟨.zeroDegreeRoot, by decide, rfl⟩

/-- **A direct question is answered without a crash** exactly if its operands do not stumble. Two
texts, if they are there, give two finite doubles or are invalid unless they stumble, that is, both
are numbers once trimmed and one of them holds a separator; then the second one that is tried cannot
be read. With any query, the answer is accordingly the verdict on the two doubles, a finite result
together with the name of the operator and the operands or the message of a rejection, or the
message about invalid parameters, unless the operands stumble; then it is the one after a crash. -/
theorem direct_answers (v1 v2 : Option Text) (settings : Settings) (files : Files) (op : Operator)
    (query : Bytes) :
    ((∃ x y, Operand.parse v1 v2 = .ok (x, y) ∧ x.isFinite = true ∧ y.isFinite = true) ∨
        Operand.parse v1 v2 = .error .invalid ↔ ¬Operand.Stumbles v1 v2) ∧
      ((∃ t, Operand.parse v1 v2 = .error (.unreadable t)) ↔ Operand.Stumbles v1 v2) ∧
      let first := Form.value? (Form.decode query) "v1"
      let second := Form.value? (Form.decode query) "v2"
      let response := ((Service.ofSettings settings files).answer (Direct.request op query)).1
      ((∃ x y r, Operand.Gives first x ∧ Operand.Gives second y ∧ op.Settles x y (.value r) ∧
            r.isFinite = true ∧
            response.Tells 200 [("action", .text (Text.ofString op.name)), ("v1", .float x),
              ("v2", .float y), ("result", .float r)]) ∨
          (∃ kind ∈ Rejection.ofDirect,
            response.Tells 400 [("error", .text (Rejection.plain kind).message)]) ↔
          ¬Operand.Stumbles first second) ∧
        (Operand.Stumbles first second →
          response.Tells 500 [("error", .text Interruption.crashMessage)]) := by
  refine ⟨Operand.exists_ok_or_invalid_iff, Operand.exists_unreadable_iff, ?_⟩
  intro first second response
  obtain ⟨x, y, h, hx, hy, hclean⟩ | ⟨h, hclean⟩ | ⟨t, h, hstumbles⟩ :=
    Operand.parse_cases first second
  · refine ⟨iff_of_true ?_ hclean, fun hstumbles => absurd hstumbles hclean⟩
    obtain ⟨v, hv⟩ := op.exists_settles x y
    have htells := Direct.tells_of_settles h hv settings files
    obtain ⟨r, rfl, hr⟩ | ⟨kind, hkind, rfl⟩ := hv.cases
    · exact .inl ⟨x, y, r, hx, hy, hv, hr, htells⟩
    · exact .inr ⟨kind, List.mem_cons_of_mem _ hkind, htells⟩
  · have htells : response.Tells 400
        [("error", .text (Rejection.plain .invalidParameters).message)] := by
      rw [show response = _ from congrArg Prod.fst (Direct.answer_of_error h)]
      exact Interruption.tells_report 400 _
    exact ⟨iff_of_true (.inr ⟨.invalidParameters, List.mem_cons_self, htells⟩) hclean,
      fun hstumbles => absurd hstumbles hclean⟩
  · have hcrash : response.Tells 500 [("error", .text Interruption.crashMessage)] := by
      rw [show response = _ from congrArg Prod.fst (Direct.answer_of_error h)]
      exact Interruption.tells_report 500 _
    refine ⟨iff_of_false ?_ (not_not_intro hstumbles), fun _ => hcrash⟩
    rintro (⟨x, y, r, -, -, -, -, htells⟩ | ⟨kind, -, htells⟩)
    · exact absurd (hcrash.status_eq.symm.trans htells.status_eq) (by decide)
    · exact absurd (hcrash.status_eq.symm.trans htells.status_eq) (by decide)

/-- A separator before the first operand. -/
theorem tells_crash_separator (settings : Settings) (files : Files) (op : Operator) :
    ((Service.ofSettings settings files).answer
      (Direct.request op (Utf8.encodeLone "v1=%1C1&v2=2"))).1.Tells 500
        [("error", .text Interruption.crashMessage)] := by
  rw [Direct.answer_of_error (e := .unreadable [0x1C, CodePoint.ofChar '1']) (by rfl)]
  exact Interruption.tells_report 500 _

end Abacus
