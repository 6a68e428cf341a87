import Mathlib
import Abacus.Proofs.Service.Direct
import Abacus.Proofs.Service.Route

/-!
# Every failure has one shape

A service without a site answers every request that fails with a status and an object whose one
member is a message, whether the caller is at fault, the path is unknown, or the evaluation breaks
down.

* `Fault`, `Fault.evaluator`: an evaluation that breaks down;
* `Interruption.IsOrdinary`, `Interruption.told`, `Interruption.IsOrdinary.tells_told`:
  interruptions, and what the response to each tells;
* `Service.Ends`, `Service.ends_outcome`: how a request can end;
* `Service.outcome_of_isRedirected`, `Service.outcome_of_not_fits`: requests that no endpoint takes;
* `Service.answer_cases`, `Service.exists_tells`, `Service.exists_refusal`: what a response that
  reports a failure tells;
* `failure_shape`: all of it for the responses; `answer_redirects_wrong_method`: a wrong method is
  no reason not to redirect.
-/

namespace Abacus

/-! ## Faults -/

/-- A fault of the evaluation. -/
inductive Fault
  /-- Something unforeseen, with a message. -/
  | unforeseen (message : Text)
  /-- A refusal with a status and words of its own. -/
  | refusal (status : ℕ) (detail : Text)

namespace Fault

/-- The interruption by a fault. -/
def interruption : Fault → Interruption
  | unforeseen message => .crash "RuntimeError" message
  | refusal status detail => .refusal status (some detail) []

/-- The evaluator that a fault, if there is one, puts in place of the usual one. -/
def evaluator : Option Fault → Evaluator
  | some f => fun _ => .error f.interruption
  | none => Calculation.evaluator

/-- A refusal has the status of a failure, and words that can be written. -/
def IsAdmissible : Fault → Prop
  | unforeseen _ => True
  | refusal status detail => 400 ≤ status ∧ detail.Writable

end Fault

/-! ## What the response to an interruption tells -/

namespace Interruption

/-- The status and the message that an interruption is answered with. -/
def told : Interruption → ℕ × Text
  | rejected r => (400, r.message)
  | refused status detail _ =>
    if status = 404 ∨ status = 405 then (404, notFoundMessage) else (status, detail)
  | crashed _ => (500, crashMessage)

/-- Interruptions without headers, in words that can be written. -/
inductive IsOrdinary : Interruption → Prop
  | rejected (r : Rejection) : IsOrdinary (.rejected r)
  | refused {status : ℕ} {detail : Text} (hs : 400 ≤ status) (hd : detail.Writable) :
      IsOrdinary (.refused status detail [])
  | crashed (cause : Text) : IsOrdinary (.crashed cause)

/-- A text that an encoding has no gaps for makes no crash. -/
theorem unwritable?_eq_none {lacks : CodePoint → Bool} {t : Text}
    (h : ∀ c ∈ t, lacks c = false) (encoding reason : String) :
    unwritable? encoding reason lacks t = none := by
  have hself : t.takeWhile (fun c => !lacks c) = t := by
    rw [List.takeWhile_eq_self_iff]
    intro c hc
    rw [h c hc]
    rfl
  unfold unwritable?
  rw [hself]
  simp

theorem unwritableBody?_eq_none {detail : Text} (h : detail.Writable) :
    unwritableBody? detail = none := by
  apply unwritable?_eq_none
  apply Json.Value.writable_write
  refine .object (fun m hm => ?_) fun m hm => ?_
  · rw [List.mem_singleton.1 hm]
    exact Text.writable_ofString _
  · rw [List.mem_singleton.1 hm]
    exact .text h

variable {i : Interruption}

/-- An ordinary interruption is answered as it is. -/
theorem IsOrdinary.settled_eq (h : i.IsOrdinary) : i.settled = i := by
  cases h with
  | rejected r => rfl
  | crashed cause => rfl
  | refused hs hd =>
    unfold settled
    dsimp only
    rw [unwritableBody?_eq_none hd]
    split_ifs <;> rfl

/-- **The response to an ordinary interruption** tells a status and a message. -/
theorem IsOrdinary.tells_told (h : i.IsOrdinary) (r : Request) :
    (conclude r (.error i)).1.Tells i.told.1 [("error", .text i.told.2)] := by
  unfold conclude
  dsimp only
  rw [h.settled_eq]
  cases h with
  | rejected r => exact tells_report 400 _
  | crashed cause => exact tells_report 500 _
  | @refused status detail hs hd =>
    have hcondition : (decide (status = 404) || decide (status = 405)) = true ↔
        status = 404 ∨ status = 405 := by simp
    unfold response told
    simp only [hcondition]
    split_ifs
    · exact tells_report 404 _
    · exact tells_report status detail

/-- The status of a failure is at least 400, and never that of a wrong method. -/
theorem IsOrdinary.status_told (h : i.IsOrdinary) : 400 ≤ i.told.1 ∧ i.told.1 ≠ 405 := by
  cases h with
  | rejected r => simp [told]
  | crashed cause => simp [told]
  | refused hs hd =>
    unfold told
    dsimp only
    split_ifs with hstatus
    · simp
    · exact ⟨hs, fun h => hstatus (.inr h)⟩

end Interruption

/-- A status that no response has of itself comes from a refusal. -/
theorem Interruption.exists_of_told {i : Interruption} {status : ℕ} (h : i.told.1 = status)
    (hstatus : status ∉ [400, 404, 500]) :
    ∃ detail headers, i = .refused status detail headers := by
  simp only [List.mem_cons, List.not_mem_nil, or_false, not_or] at hstatus
  cases i with
  | rejected r => exact absurd h.symm hstatus.1
  | crashed cause => exact absurd h.symm hstatus.2.2
  | refused s detail headers =>
    unfold told at h
    dsimp only at h
    split_ifs at h
    · exact absurd h.symm hstatus.2.1
    · obtain rfl : s = status := h
      exact ⟨detail, headers, rfl⟩

theorem Fault.isOrdinary {f : Fault} (h : f.IsAdmissible) : f.interruption.IsOrdinary := by
  cases f with
  | unforeseen message => exact .crashed _
  | refusal status detail => exact .refused h.1 h.2

/-! ## How a request ends -/

/-- How a request to a service without a site can end, in the presence of a fault or not. -/
inductive Service.Ends (fault : Option Fault) : Except Interruption Response → Prop
  | ok {response : Response} (h : response.status < 400) : Ends fault (.ok response)
  | rejected (r : Rejection) : Ends fault (.error (.rejected r))
  | crashed (cause : Text) : Ends fault (.error (.crashed cause))
  | notFound : Ends fault (.error .notFound)
  | fault {f : Fault} (h : fault = some f) : Ends fault (.error f.interruption)

open Service (Ends)

variable {fault : Option Fault}

theorem Service.Ends.cases_error {i : Interruption} (h : Ends fault (.error i)) :
    (∃ r, i = .rejected r) ∨ (∃ cause, i = .crashed cause) ∨ i = .notFound ∨
      ∃ f, fault = some f ∧ i = f.interruption := by
  generalize ho : Except.error i = outcome at h
  cases h with
  | ok => cases ho
  | rejected r => exact .inl ⟨r, Except.error.inj ho⟩
  | crashed cause => exact .inr (.inl ⟨cause, Except.error.inj ho⟩)
  | notFound => exact .inr (.inr (.inl (Except.error.inj ho)))
  | fault hf => exact .inr (.inr (.inr ⟨_, hf, Except.error.inj ho⟩))

theorem Service.Ends.isOrdinary {i : Interruption} (h : Ends fault (.error i))
    (hfault : ∀ f ∈ fault, f.IsAdmissible) : i.IsOrdinary := by
  obtain ⟨r, rfl⟩ | ⟨cause, rfl⟩ | rfl | ⟨f, hf, rfl⟩ := h.cases_error
  · exact .rejected r
  · exact .crashed cause
  · exact .refused (by decide) (Text.writable_ofString _)
  · exact Fault.isOrdinary (hfault f (Option.mem_def.2 hf))

/-- A refusal other than for what is not there is the fault. -/
theorem Service.Ends.fault_eq {status : ℕ} {detail : Text} {headers : List (Text × Text)}
    (h : Ends fault (.error (.refused status detail headers))) (hstatus : status ≠ 404) :
    fault = some (.refusal status detail) := by
  obtain ⟨r, hi⟩ | ⟨cause, hi⟩ | hi | ⟨f, hf, hi⟩ := h.cases_error
  · cases hi
  · cases hi
  · cases hi
    exact absurd rfl hstatus
  · cases f with
    | unforeseen message => cases hi
    | refusal s words =>
      cases hi
      exact hf

theorem Interruption.ends_ofEvaluationError (e : EvaluationError) :
    Ends fault (.error (ofEvaluationError e)) := by
  unfold ofEvaluationError
  split
  · exact .rejected _
  · exact .crashed _

theorem Direct.ends_answer (op : Operator) (query : Bytes) : Ends fault (answer op query) := by
  unfold answer
  dsimp only
  cases Operand.parse (Form.value? (Form.decode query) "v1")
      (Form.value? (Form.decode query) "v2") with
  | error e =>
    cases e with
    | invalid => exact .rejected _
    | unreadable t => exact .crashed _
  | ok operands =>
    show Ends fault ((((op.apply operands.1 [operands.2]).bind ensureFinite).mapError _).bind _)
    cases (op.apply operands.1 [operands.2]).bind ensureFinite with
    | error e => exact Interruption.ends_ofEvaluationError e
    | ok result => exact .ok (show (200 : ℕ) < 400 by decide)

theorem Calculation.decode_error {limit : ℤ} {body : Bytes} {i : Interruption}
    (h : decode limit body = .error i) : ∃ r, i = .rejected r := by
  unfold decode at h
  split_ifs at h
  · cases h
    exact ⟨_, rfl⟩
  · cases hbody : Json.ofBytes body with
    | ok v =>
      rw [hbody] at h
      cases h
    | error e =>
      rw [hbody] at h
      cases h
      cases e <;> exact ⟨_, rfl⟩

theorem Fault.ends_evaluator (e : Expression) {i : Interruption}
    (h : Fault.evaluator fault e = .error i) : Ends fault (.error i) := by
  cases fault with
  | some f =>
    cases h
    exact .fault rfl
  | none =>
    change e.evaluate.mapError _ = _ at h
    cases he : e.evaluate with
    | ok x =>
      rw [he] at h
      cases h
    | error err =>
      rw [he] at h
      cases h
      exact Interruption.ends_ofEvaluationError err

theorem Calculation.ends_answer (limit : ℤ) (body : Bytes) :
    Ends fault (answer limit (Fault.evaluator fault) body) := by
  unfold answer
  cases hdecode : decode limit body with
  | error i =>
    obtain ⟨r, rfl⟩ := decode_error hdecode
    exact .rejected r
  | ok value =>
    show Ends fault (((Expression.validate limit value).mapError _).bind _)
    cases Expression.validate limit value with
    | error e => exact .rejected _
    | ok tree =>
      show Ends fault ((Fault.evaluator fault tree).bind _)
      cases hevaluate : Fault.evaluator fault tree with
      | error i => exact Fault.ends_evaluator tree hevaluate
      | ok x =>
        show Ends fault (((ensureFinite x).mapError _).bind _)
        cases ensureFinite x with
        | error e => exact Interruption.ends_ofEvaluationError e
        | ok y => exact .ok (show (200 : ℕ) < 400 by decide)

/-- An evaluation that is reached and breaks down decides the answer. -/
theorem Calculation.answer_of_fault {limit : ℤ} {body : Bytes} {value : Json.Value}
    {tree : Expression} (hbody : Json.ofBytes body = .ok value)
    (htree : Expression.validate limit value = .ok tree) (f : Fault) :
    answer limit (Fault.evaluator (some f)) body = .error f.interruption := by
  have hdecode : decode limit body = .ok value := by
    unfold decode
    rw [if_neg fun h => not_isBlankBody_of_ofBytes hbody (isBlank_iff.1 h), hbody]
    rfl
  unfold answer
  rw [hdecode]
  show ((Expression.validate limit value).mapError _).bind _ = _
  rw [htree]
  rfl

/-! ## Requests that no endpoint takes -/

namespace Service

variable {settings : Settings} {r : Request}

/-- A service without a static folder, with the evaluator of a fault. -/
def faulty (settings : Settings) (files : Files) (fault : Option Fault) : Service :=
  ⟨settings, files, Fault.evaluator fault⟩

theorem folder?_eq_none (hstatic : settings.staticFolder = none) (files : Files)
    (fault : Option Fault) : (faulty settings files fault).folder? = none := by
  unfold folder?
  rw [show (faulty settings files fault).settings.staticFolder = none from hstatic]
  rfl

/-- Without a site, what no endpoint takes falls through. -/
theorem outcome_eq_fallback (hstatic : settings.staticFolder = none) (files : Files)
    (fault : Option Fault) (h : ¬r.Fits) :
    (faulty settings files fault).outcome r = (faulty settings files fault).fallback r := by
  rw [outcome, route?_of_not_fits _ h, folder?_eq_none hstatic]
  rfl

/-- **A request is redirected on account of its path alone.** -/
theorem outcome_of_isRedirected (hstatic : settings.staticFolder = none) (files : Files)
    (fault : Option Fault) (h : r.IsRedirected) :
    (faulty settings files fault).outcome r =
      .ok (.redirect (Location.ofPath (otherSlash r.path) r.query)) := by
  have hfits : ¬r.Fits := by
    rintro ⟨e, he, hpath, -⟩
    exact Request.not_isRedirected_of_hasPath he hpath h
  rw [outcome_eq_fallback hstatic files fault hfits, fallback_of_isRedirected
    (folder?_eq_none hstatic files fault) h]

/-- **A request that no endpoint takes and that is not redirected** is for nothing. -/
theorem outcome_of_not_fits (hstatic : settings.staticFolder = none) (files : Files)
    (fault : Option Fault) (h : ¬r.Fits) (hredirected : ¬r.IsRedirected) :
    (faulty settings files fault).outcome r = .error .notFound := by
  rw [outcome_eq_fallback hstatic files fault h, fallback_of_not_isRedirected
    (folder?_eq_none hstatic files fault) hredirected]

/-- **How a request ends.** -/
theorem ends_outcome (hstatic : settings.staticFolder = none) (files : Files)
    (fault : Option Fault) (r : Request) :
    Ends fault ((faulty settings files fault).outcome r) := by
  by_cases hredirected : r.IsRedirected
  · rw [outcome_of_isRedirected hstatic files fault hredirected]
    exact .ok (show (307 : ℕ) < 400 by decide)
  · by_cases hfits : r.Fits
    · obtain ⟨e, -, hpath, hmethod⟩ := hfits
      rw [outcome, route?_of_fits _ hpath hmethod]
      cases e with
      | direct op => exact Direct.ends_answer op r.query
      | calculate => exact Calculation.ends_answer _ _
      | index => exact .ok (show (200 : ℕ) < 400 by decide)
    · rw [outcome_of_not_fits hstatic files fault hfits hredirected]
      exact .notFound

/-- The response to an expression whose evaluation breaks down. -/
theorem tells_of_fault (settings : Settings) (files : Files) {f : Fault} (hf : f.IsAdmissible)
    (query : Bytes) {body : Bytes} {value : Json.Value} {tree : Expression}
    (hbody : Json.ofBytes body = .ok value)
    (htree : Expression.validate settings.depth value = .ok tree) :
    ((faulty settings files (some f)).answer (calculateRequest query body)).1.Tells
      f.interruption.told.1 [("error", .text f.interruption.told.2)] := by
  have houtcome : (faulty settings files (some f)).outcome (calculateRequest query body) =
      .error f.interruption := Calculation.answer_of_fault hbody htree f
  unfold answer
  rw [houtcome]
  exact (Fault.isOrdinary hf).tells_told _

/-- **What the response tells**: a request that fails does so by an ordinary interruption. -/
theorem answer_cases (hstatic : settings.staticFolder = none) (files : Files)
    (hfault : ∀ f ∈ fault, f.IsAdmissible) (r : Request) :
    ((faulty settings files fault).answer r).1.status < 400 ∨
      ∃ i, Ends fault (.error i) ∧ i.IsOrdinary ∧
        ((faulty settings files fault).answer r).1.Tells i.told.1 [("error", .text i.told.2)] := by
  have hends := ends_outcome hstatic files fault r
  unfold answer
  cases houtcome : (faulty settings files fault).outcome r with
  | ok response =>
    rw [houtcome] at hends
    cases hends with
    | ok h => exact .inl h
  | error i =>
    rw [houtcome] at hends
    have hordinary := hends.isOrdinary hfault
    exact .inr ⟨i, hends, hordinary, hordinary.tells_told r⟩

/-- **A response with the status of a failure tells a message.** -/
theorem exists_tells (hstatic : settings.staticFolder = none) (files : Files)
    (hfault : ∀ f ∈ fault, f.IsAdmissible) {response : Response}
    (hresponse : ((faulty settings files fault).answer r).1 = response)
    (h : 400 ≤ response.status) :
    ∃ m, response.Tells response.status [("error", .text m)] := by
  subst hresponse
  obtain hlt | ⟨i, -, -, htells⟩ := answer_cases hstatic files hfault r
  · exact absurd h (not_le.2 hlt)
  · exact ⟨i.told.2, htells.status_eq ▸ htells⟩

/-- No response has the status of a wrong method. -/
theorem status_ne (hstatic : settings.staticFolder = none) (files : Files)
    (hfault : ∀ f ∈ fault, f.IsAdmissible) (r : Request) :
    ((faulty settings files fault).answer r).1.status ≠ 405 := by
  intro hstatus
  obtain hlt | ⟨i, -, hordinary, htells⟩ := answer_cases hstatic files hfault r
  · rw [hstatus] at hlt
    exact absurd hlt (by decide)
  · exact hordinary.status_told.2 (htells.status_eq.symm.trans hstatus)

/-- The status of a failure that no response has of itself is that of the fault. -/
theorem exists_refusal (hstatic : settings.staticFolder = none) (files : Files)
    (hfault : ∀ f ∈ fault, f.IsAdmissible) {status : ℕ} (hle : 400 ≤ status)
    (hstatus : status ∉ [400, 404, 500])
    (h : ((faulty settings files fault).answer r).1.status = status) :
    ∃ detail, fault = some (.refusal status detail) := by
  obtain hlt | ⟨i, hends, -, htells⟩ := answer_cases hstatic files hfault r
  · rw [h] at hlt
    exact absurd hle (not_le.2 hlt)
  · obtain ⟨detail, headers, rfl⟩ :=
      Interruption.exists_of_told (htells.status_eq.symm.trans h) hstatus
    refine ⟨detail, hends.fault_eq ?_⟩
    rintro rfl
    exact hstatus (by decide)

/-- What no endpoint takes and what is not redirected is answered as not being there. -/
theorem tells_of_not_fits (hstatic : settings.staticFolder = none) (files : Files)
    (fault : Option Fault) (h : ¬r.Fits) (hredirected : ¬r.IsRedirected) :
    ((faulty settings files fault).answer r).1.Tells 404
      [("error", .text Interruption.notFoundMessage)] := by
  unfold answer
  rw [outcome_of_not_fits hstatic files fault h hredirected]
  exact Interruption.tells_report 404 _

/-- A known path with a method that no endpoint has for it is answered as not being there. -/
theorem tells_of_hasPath (hstatic : settings.staticFolder = none) (files : Files)
    (fault : Option Fault) (h : ¬r.Fits) (hpath : ∃ e ∈ Endpoint.all, e.hasPath r.path = true) :
    ((faulty settings files fault).answer r).1.Tells 404
      [("error", .text Interruption.notFoundMessage)] := by
  obtain ⟨e, he, hpath⟩ := hpath
  exact tells_of_not_fits hstatic files fault h (Request.not_isRedirected_of_hasPath he hpath)

theorem answer_of_isRedirected (hstatic : settings.staticFolder = none) (files : Files)
    (fault : Option Fault) (h : r.IsRedirected) :
    ((faulty settings files fault).answer r).1 =
      .redirect (Location.ofPath (otherSlash r.path) r.query) := by
  unfold answer
  rw [outcome_of_isRedirected hstatic files fault h]
  rfl

end Service

/-- **Every failure has one shape.** Let a service have no static folder, and let its evaluation
work as usual or break down, with an error or in a refusal with the status of a failure and words
that can be written. A response with the status of a failure has for its body an object with one
member, a message. The status is never that of a wrong method, and that of data that cannot be
processed only if a refusal has it. If no endpoint has the method and the path of a request, the
response says that there is nothing, unless no endpoint at all has that path and one has it with a
slash more or fewer at its end; then the request is redirected to that path, where it is answered in
the same way if its method is wrong. A crash is told in words that do not depend on its cause; a
refusal keeps its status and its words, unless it is one of those for a path that is not there. -/
theorem failure_shape {settings : Settings} (hstatic : settings.staticFolder = none)
    (files : Files) (hfault : ∀ f ∈ fault, f.IsAdmissible) :
    let service := Service.faulty settings files fault
    let nothing : Json.Members := [("error", .text Interruption.notFoundMessage)]
    (∀ r : Request,
      let response := (service.answer r).1
      (400 ≤ response.status → ∃ m, response.Tells response.status [("error", .text m)]) ∧
        response.status ≠ 405 ∧
        (response.status = 422 → ∃ detail, fault = some (.refusal 422 detail)) ∧
        (¬r.Fits → ¬r.IsRedirected → response.Tells 404 nothing) ∧
        (¬r.Fits → (∃ e ∈ Endpoint.all, e.hasPath r.path = true) → response.Tells 404 nothing) ∧
        (r.IsRedirected → response.status = 307 ∧
          response.location = some (Location.ofPath (Service.otherSlash r.path) r.query) ∧
          (¬r.withOtherSlash.Fits → (service.answer r.withOtherSlash).1.Tells 404 nothing)) ∧
        ∀ cause, service.outcome r = .error (.crashed cause) →
          response = Interruption.report 500 Interruption.crashMessage) ∧
      ∀ query body value tree, Json.ofBytes body = .ok value →
        Expression.validate settings.depth value = .ok tree →
        let response := (service.answer (calculateRequest query body)).1
        (∀ m, fault = some (.unforeseen m) →
          response.Tells 500 [("error", .text Interruption.crashMessage)]) ∧
        ∀ status detail, fault = some (.refusal status detail) →
          ((status = 404 ∨ status = 405) → response.Tells 404 nothing) ∧
          (¬(status = 404 ∨ status = 405) → response.Tells status [("error", .text detail)]) := by
  intro service nothing
  refine ⟨fun r => ⟨Service.exists_tells hstatic files hfault rfl,
    Service.status_ne hstatic files hfault r,
    Service.exists_refusal hstatic files hfault (by decide) (by decide),
    Service.tells_of_not_fits hstatic files fault, Service.tells_of_hasPath hstatic files fault,
    ?_, ?_⟩, ?_⟩
  · intro hredirected
    rw [Service.answer_of_isRedirected hstatic files fault hredirected]
    exact ⟨rfl, rfl, fun hfits =>
      Service.tells_of_hasPath hstatic files fault hfits hredirected.2⟩
  · intro cause hcause
    unfold Service.answer
    rw [hcause]
    rfl
  · intro query body value tree hbody htree
    refine ⟨fun m hm => ?_, fun status detail hrefusal => ?_⟩
    · subst hm
      exact Service.tells_of_fault settings files (hfault _ rfl) query hbody htree
    · subst hrefusal
      have htells := Service.tells_of_fault settings files (hfault _ rfl) query hbody htree
      have htold : (Fault.refusal status detail).interruption.told =
          if status = 404 ∨ status = 405 then (404, Interruption.notFoundMessage)
          else (status, detail) := rfl
      rw [htold] at htells
      constructor
      · intro hmissing
        rwa [if_pos hmissing] at htells
      · intro hother
        rwa [if_neg hother] at htells

/-- A refusal of an expression that is a number. -/
theorem failure_shape_refusal :
    let fault : Option Fault := some (.refusal 422 "no")
    let service := Service.faulty .standard ⟨[], []⟩ fault
    Settings.standard.staticFolder = none ∧ (∀ f ∈ fault, f.IsAdmissible) ∧
      (service.answer (calculateRequest [] (Utf8.encodeLone "1"))).1.Tells 422
        [("error", .text "no")] := by
  intro fault service
  have hfault : ∀ f ∈ fault, f.IsAdmissible := by
    intro f hf
    obtain rfl : Fault.refusal 422 "no" = f := Option.some.inj hf
    exact ⟨by decide, Text.writable_ofString "no"⟩
  have hbody : Json.ofBytes (Utf8.encodeLone "1") = .ok (.int 1) :=
    Json.ofBytes_write (v := .int 1) (.int (by decide))
  obtain ⟨-, hevaluation⟩ := @failure_shape fault .standard rfl ⟨[], []⟩ hfault
  obtain ⟨-, hrefusal⟩ := hevaluation [] _ _ (.literal 1) hbody (by rfl)
  exact ⟨rfl, hfault, (hrefusal 422 "no" rfl).2 (by decide)⟩

/-- A wrong method at a path with a slash too many: no endpoint has the method and the path, with
the slash or without, but the response is a redirect. -/
theorem answer_redirects_wrong_method :
    let r : Request := ⟨"POST", "/api/add/", [], []⟩
    Settings.standard.staticFolder = none ∧ ¬r.Fits ∧ ¬r.withOtherSlash.Fits ∧
      ((Service.ofSettings .standard ⟨[], []⟩).answer r).1.status = 307 ∧
      ((Service.ofSettings .standard ⟨[], []⟩).answer r).1.status ≠ 404 := by
  intro r
  have hfits : ¬r.Fits := by
    unfold Request.Fits
    decide
  have hother : ¬r.withOtherSlash.Fits := by
    unfold Request.Fits
    decide
  have hstatus : ((Service.ofSettings .standard ⟨[], []⟩).answer r).1.status = 307 := by
    decide +kernel
  refine ⟨rfl, hfits, hother, hstatus, ?_⟩
  rw [hstatus]
  decide

end Abacus
