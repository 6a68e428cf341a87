import Mathlib
import Abacus.Proofs.Service.Mount

/-!
# The log tells what the answer tells

A service without a site writes one record about a request that it rejects and one about a request
that it breaks down over, and none about any other. The record of a rejection has the words of the
answer.

* `Request.Asks`, `Request.Asks.shownPath_eq`: the requests of an endpoint, and their path as the
  log shows it;
* `Endpoint.Raises`, `Service.endpointAnswer_of_raises`, `Service.endpointAnswer_cases`: what keeps
  an endpoint from an answer, and that nothing else does;
* `Service.answer_of_raises`, `Service.answer_of_quiet`: answers with a record and without;
* `records_match_answer`: all of it by the status of the response;
  `records_lack_line_feed`: a path with a line feed at its end is shown without it.
-/

namespace Abacus

/-! ## Requests of an endpoint -/

/-- A request has the method of an endpoint, and its path, perhaps with a line feed at the end. -/
structure Request.Asks (r : Request) (e : Endpoint) : Prop where
  method_eq : r.method = e.method
  path_eq : r.path = e.path ∨ r.path = e.path ++ ("\n" : Text)

namespace Request

variable {r : Request} {e : Endpoint}

theorem asks_iff : r.Asks e ↔ e.hasPath r.path = true ∧ r.method = e.method := by
  rw [Endpoint.hasPath, Bool.or_eq_true, decide_eq_true_eq, decide_eq_true_eq]
  exact ⟨fun h => ⟨h.path_eq, h.method_eq⟩, fun h => ⟨h.2, h.1⟩⟩

theorem fits_iff : r.Fits ↔ ∃ e, r.Asks e := by
  simp only [Fits, Endpoint.mem_all, true_and, asks_iff]

/-- **The log shows the path of the endpoint**, without the line feed. -/
theorem Asks.shownPath_eq (h : r.Asks e) : r.shownPath = e.path := by
  have hall : ∀ e ∈ Endpoint.all, ∀ ending ∈ [[], ("\n" : Text)],
      (Request.mk [] (e.path ++ ending) [] []).shownPath = e.path := by decide +kernel
  have hshown : ∀ ending ∈ [[], ("\n" : Text)], r.path = e.path ++ ending →
      r.shownPath = e.path := by
    intro ending hending hpath
    rw [← hall e (Endpoint.mem_all e) ending hending, shownPath, hpath]
    rfl
  rcases h.path_eq with hpath | hpath
  · exact hshown [] List.mem_cons_self (hpath.trans (List.append_nil _).symm)
  · exact hshown _ (List.mem_cons_of_mem _ List.mem_cons_self) hpath

end Request

/-! ## What keeps an endpoint from an answer -/

/-- **What keeps an endpoint from an answer**, under a limit on the nesting of operations: the
operands are invalid, or one of them passes the check and cannot be converted; the operator rejects
them; or the body of an expression is rejected. -/
inductive Endpoint.Raises (limit : ℤ) (r : Request) : Endpoint → Interruption → Prop
  | invalid {op : Operator}
      (h : Operand.parse (Form.value? (Form.decode r.query) "v1")
        (Form.value? (Form.decode r.query) "v2") = .error .invalid) :
      Raises limit r (.direct op) (.rejected (Rejection.plain .invalidParameters))
  | unreadable {op : Operator} {t : Text}
      (h : Operand.parse (Form.value? (Form.decode r.query) "v1")
        (Form.value? (Form.decode r.query) "v2") = .error (.unreadable t)) :
      Raises limit r (.direct op)
        (.crash "ValueError" (("could not convert string to float: " : Text) ++ Quoted.quote t))
  | settled {op : Operator} {x y : Float} {j : Rejection} (h : HasOperands r.query x y)
      (hj : op.Settles x y (.rejection j)) : Raises limit r (.direct op) (.rejected j)
  | decided {j : Rejection} (h : Decides limit r.body (.rejection j)) :
      Raises limit r .calculate (.rejected j)

open Endpoint (Raises)

namespace Service

variable {settings : Settings} {files : Files} {r : Request} {e : Endpoint} {i : Interruption}

/-- What keeps an endpoint from an answer is what it ends in. -/
theorem endpointAnswer_of_raises (h : Raises settings.depth r e i) :
    (ofSettings settings files).endpointAnswer e r = .error i := by
  cases h with
  | invalid h =>
    change Direct.answer _ r.query = _
    unfold Direct.answer
    dsimp only
    rw [h]
    rfl
  | unreadable h =>
    change Direct.answer _ r.query = _
    unfold Direct.answer
    dsimp only
    rw [h]
    rfl
  | settled h hj =>
    obtain ⟨hx, hy⟩ := Operand.isFinite_of_parse h
    change Direct.answer _ r.query = _
    rw [Direct.answer_of_operands h, hj.compute_eq hx hy]
    rfl
  | decided h =>
    change Calculation.answer settings.depth Calculation.evaluator r.body = _
    rw [h.answer_eq]
    rfl

/-- **An endpoint has an answer unless one of these keeps it from one.** -/
theorem endpointAnswer_cases (settings : Settings) (files : Files) (e : Endpoint) (r : Request) :
    (∃ response, (ofSettings settings files).endpointAnswer e r = .ok response ∧
        response.status = 200) ∨
      ∃ i, Raises settings.depth r e i := by
  cases e with
  | direct op =>
    obtain ⟨x, y, h, -⟩ | ⟨h, -⟩ | ⟨t, h, -⟩ :=
      Operand.parse_cases (Form.value? (Form.decode r.query) "v1")
        (Form.value? (Form.decode r.query) "v2")
    · obtain ⟨hx, hy⟩ := Operand.isFinite_of_parse h
      obtain ⟨v, hv⟩ := op.exists_settles x y
      cases v with
      | value result =>
        have hanswer : Direct.answer op r.query = .ok (.json 200 (.object
            (DirectAnswer.mk (Text.ofString op.name) x y result).toData)) := by
          rw [Direct.answer_of_operands h, hv.compute_eq hx hy]
          rfl
        exact .inl ⟨_, hanswer, rfl⟩
      | rejection j => exact .inr ⟨_, .settled h hv⟩
    · exact .inr ⟨_, .invalid h⟩
    · exact .inr ⟨_, .unreadable h⟩
  | calculate =>
    obtain ⟨v, hv⟩ := exists_decides settings.depth r.body
    cases v with
    | value x =>
      have hanswer : Calculation.answer settings.depth Calculation.evaluator r.body =
          .ok (Verdict.value x).response := by
        rw [hv.answer_eq]
        rfl
      exact .inl ⟨_, hanswer, rfl⟩
    | rejection j => exact .inr ⟨_, .decided hv⟩
  | index => exact .inl ⟨_, rfl, rfl⟩

end Service

/-- It is a rejection or a crash. -/
theorem Endpoint.Raises.cases {limit : ℤ} {r : Request} {e : Endpoint} {i : Interruption}
    (h : Raises limit r e i) : (∃ j, i = .rejected j) ∨ ∃ cause, i = .crashed cause := by
  cases h with
  | invalid => exact .inl ⟨_, rfl⟩
  | unreadable => exact .inr ⟨_, rfl⟩
  | settled => exact .inl ⟨_, rfl⟩
  | decided => exact .inl ⟨_, rfl⟩

/-! ## The records -/

namespace Service

variable {settings : Settings} {r : Request} {e : Endpoint} {i : Interruption}

/-- A request that an endpoint takes and is kept from answering. -/
theorem answer_of_raises (files : Files) (hasks : r.Asks e) (h : Raises settings.depth r e i) :
    (ofSettings settings files).answer r = (i.response, i.records r) := by
  obtain ⟨hpath, hmethod⟩ := Request.asks_iff.1 hasks
  rw [answer_of_fits _ hpath hmethod, endpointAnswer_of_raises h]
  obtain ⟨j, rfl⟩ | ⟨cause, rfl⟩ := h.cases <;> rfl

/-- **What is kept from an answer by nothing leaves no record.** -/
theorem answer_of_quiet (files : Files) (hstatic : settings.staticFolder = none)
    (h : ¬∃ e i, r.Asks e ∧ Raises settings.depth r e i) :
    ((ofSettings settings files).answer r).1.status ∈ [200, 307, 404] ∧
      ((ofSettings settings files).answer r).2 = [] := by
  have hservice : ofSettings settings files = faulty settings files none := rfl
  by_cases hfits : r.Fits
  · obtain ⟨e, hasks⟩ := Request.fits_iff.1 hfits
    obtain ⟨hpath, hmethod⟩ := Request.asks_iff.1 hasks
    obtain ⟨response, hresponse, hstatus⟩ | ⟨i, hi⟩ := endpointAnswer_cases settings files e r
    · rw [answer_of_fits _ hpath hmethod, hresponse]
      exact ⟨by rw [Interruption.conclude, hstatus]; decide, rfl⟩
    · exact absurd ⟨e, i, hasks, hi⟩ h
  by_cases hredirected : r.IsRedirected
  · rw [answer, hservice, outcome_of_isRedirected hstatic files none hredirected]
    exact ⟨show 307 ∈ [200, 307, 404] by decide, rfl⟩
  · rw [answer, hservice, outcome_of_not_fits hstatic files none hfits hredirected]
    exact ⟨show 404 ∈ [200, 307, 404] by decide, rfl⟩

end Service

/-- **The log tells what the answer tells.** A service without a static folder answers with one of
five statuses. If it is that of a rejection, an endpoint has the method and the path of the request,
but for a line feed that may stand at its end; something keeps the endpoint from an answer, and it
is a rejection. The message of the rejection is that of the answer, and there is one record, a
warning with the method, the path, the code of the rejection and its message. If it is the status of
a crash, an endpoint for direct questions was asked for operands that cannot be converted, and there
is one record, an error with the method, the path and the form of the exception. With any other
status there is no record. Nothing that keeps an endpoint from an answer goes without a record. -/
theorem records_match_answer {settings : Settings} (hstatic : settings.staticFolder = none)
    (files : Files) (r : Request) :
    let response := ((Service.ofSettings settings files).answer r).1
    let records := ((Service.ofSettings settings files).answer r).2
    response.status ∈ [200, 307, 400, 404, 500] ∧
      (response.status = 400 → ∃ e j, r.Asks e ∧ Raises settings.depth r e (.rejected j) ∧
        response.Tells 400 [("error", .text j.message)] ∧
        records = [Log.warning (("⚠️ " : Text) ++ r.method ++ (" " : Text) ++ e.path ++
          (" rejected (" : Text) ++ Text.ofString j.kind.code ++ ("): " : Text) ++
          j.message)]) ∧
      (response.status = 500 → ∃ e cause, r.Asks e ∧
        Raises settings.depth r e (.crashed cause) ∧
        response.Tells 500 [("error", .text Interruption.crashMessage)] ∧
        records = [Log.error (("💥 " : Text) ++ r.method ++ (" " : Text) ++ e.path ++
          (" failed: " : Text) ++ cause)]) ∧
      (response.status ∈ [200, 307, 404] → records = []) ∧
      ∀ e i, r.Asks e → Raises settings.depth r e i →
        response.status ∈ [400, 500] ∧ ∃ record, records = [record] := by
  intro response records
  by_cases h : ∃ e i, r.Asks e ∧ Raises settings.depth r e i
  · obtain ⟨e, i, hasks, hraises⟩ := h
    have hanswer := Service.answer_of_raises files hasks hraises
    have hresponse : response = i.response := congrArg Prod.fst hanswer
    have hrecords : records = i.records r := congrArg Prod.snd hanswer
    rw [hresponse, hrecords]
    obtain ⟨j, rfl⟩ | ⟨cause, rfl⟩ := hraises.cases
    · rw [Interruption.records, hasks.shownPath_eq]
      exact ⟨show 400 ∈ [200, 307, 400, 404, 500] by decide,
        fun _ => ⟨e, j, hasks, hraises, Interruption.tells_report 400 _, rfl⟩,
        fun h => absurd (show 400 = 500 from h) (by decide),
        fun h => absurd (show 400 ∈ [200, 307, 404] from h) (by decide),
        fun _ _ _ _ => ⟨show 400 ∈ [400, 500] by decide, _, rfl⟩⟩
    · rw [Interruption.records, hasks.shownPath_eq]
      exact ⟨show 500 ∈ [200, 307, 400, 404, 500] by decide,
        fun h => absurd (show 500 = 400 from h) (by decide),
        fun _ => ⟨e, cause, hasks, hraises, Interruption.tells_report 500 _, rfl⟩,
        fun h => absurd (show 500 ∈ [200, 307, 404] from h) (by decide),
        fun _ _ _ _ => ⟨show 500 ∈ [400, 500] by decide, _, rfl⟩⟩
  · obtain ⟨hstatus, hrecords⟩ := Service.answer_of_quiet files hstatic h
    change response.status ∈ _ at hstatus
    change records = [] at hrecords
    simp only [List.mem_cons, List.not_mem_nil, or_false] at hstatus
    refine ⟨by simp only [List.mem_cons]; tauto, fun h400 => ?_, fun h500 => ?_,
      fun _ => hrecords, fun e i hasks hraises => absurd ⟨e, i, hasks, hraises⟩ h⟩
    · omega
    · omega

/-- Operands that are none, and operands that pass the check and cannot be converted. -/
theorem records_match_answer_operands :
    let service := Service.ofSettings .standard ⟨[], []⟩
    let refused : Request := ⟨"GET", "/api/add", Utf8.encodeLone "v1=x", []⟩
    let stumbling : Request := ⟨"GET", "/api/root", Utf8.encodeLone "v1=%1C1&v2=2", []⟩
    Settings.standard.staticFolder = none ∧
      (service.answer refused).1.status = 400 ∧
      (∃ (e : Endpoint) (j : Rejection), refused.Asks e ∧
        (service.answer refused).2 = [Log.warning (("⚠️ " : Text) ++ "GET" ++ (" " : Text) ++
          e.path ++ (" rejected (" : Text) ++ Text.ofString j.kind.code ++ ("): " : Text) ++
          j.message)]) ∧
      (service.answer stumbling).1.status = 500 ∧
      ∃ (e : Endpoint) (cause : Text), stumbling.Asks e ∧
        (service.answer stumbling).2 = [Log.error (("💥 " : Text) ++ "GET" ++ (" " : Text) ++
          e.path ++ (" failed: " : Text) ++ cause)] := by
  intro service refused stumbling
  have hrefused : (service.answer refused).1.status = 400 := by decide +kernel
  have hstumbling : (service.answer stumbling).1.status = 500 := by decide +kernel
  obtain ⟨-, hrejected, -⟩ := @records_match_answer .standard rfl ⟨[], []⟩ refused
  obtain ⟨-, -, hcrashed, -⟩ := @records_match_answer .standard rfl ⟨[], []⟩ stumbling
  obtain ⟨e, j, hasks, -, -, hwarning⟩ := hrejected hrefused
  obtain ⟨e', cause, hasks', -, -, herror⟩ := hcrashed hstumbling
  exact ⟨rfl, hrefused, ⟨e, j, hasks, hwarning⟩, hstumbling, e', cause, hasks', herror⟩

/-- A rejected request whose path ends with a line feed: the one record is a warning, and the path
does not stand in it. -/
theorem records_lack_line_feed :
    let r : Request := ⟨"GET", "/api/add\n", [], []⟩
    Settings.standard.staticFolder = none ∧
      ((Service.ofSettings .standard ⟨[], []⟩).answer r).1.status = 400 ∧
      ∃ record, ((Service.ofSettings .standard ⟨[], []⟩).answer r).2 = [record] ∧
        record.severity = .warning ∧ ¬r.path <:+: record.message := by
  intro r
  refine ⟨rfl, by decide +kernel, Log.warning (("⚠️ GET /api/add" : Text) ++
    (" rejected (invalid_parameters): " : Text) ++ (Rejection.plain .invalidParameters).message),
    by decide +kernel, rfl, ?_⟩
  rintro ⟨before, after, h⟩
  have hfeed : CodePoint.ofChar '\n' ∈ before ++ r.path ++ after := by
    rw [List.append_assoc]
    refine List.mem_append_right _ (List.mem_append_left _ ?_)
    decide
  rw [h] at hfeed
  revert hfeed
  decide +kernel

end Abacus
