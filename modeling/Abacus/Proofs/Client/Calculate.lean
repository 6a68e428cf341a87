import Mathlib
import Abacus.Client.Question
import Abacus.Proofs.Http.Url
import Abacus.Proofs.Json.Writable
import Abacus.Proofs.Service.Calculate

/-!
# Expressions that are sent to a service

A client that sends an expression to a service gets back what it would find out by itself: the value
of the expression, or the message of its rejection.

* `Session.Serves`: the far end of a session is a service;
* `Session.Serves.exchange_eq`, `Client.send_of_serves`: what a call to a service brings back;
* `Question.request_calculation`, `Client.send_calculation`: the request for an expression, and what
  sending it brings back;
* `Question.body_eq_ok`: the body for an expression that can be written;
* `Client.calculate_computes`: the verdict on the expression is what the client gets.
-/

namespace Abacus

/-- The far end of a session is a service that takes every connection. -/
structure Session.Serves (s : Session) (settings : Settings) : Prop where
  peer : s.peer = .service settings
  refusals : s.refusals = 0

/-- The request that a service receives for an expression. -/
theorem Question.request_calculation {url : Url} (hurl : url.query = none) (body : Bytes) :
    (Question.calculation url body).request = calculateRequest [] body := by
  have htarget : url.target Endpoint.calculate.path = ("/api/calculate" : Text) := by
    rw [Url.target, Url.base, hurl]
    rfl
  rw [Question.calculation, htarget]
  rfl

/-- **A service answers every call**, and takes the next one. -/
theorem Session.Serves.exchange_eq {settings : Settings} {s : Session} (hs : s.Serves settings)
    (call : Call) :
    ∃ s', s.exchange call =
        (some ((Service.ofSettings settings s.files).answer call.request).1, s') ∧
      s'.Serves settings ∧ s'.files = s.files ∧ s'.events = s.events ++ [.call call true] := by
  refine ⟨(s.note (.call call true)).record
    ((Service.ofSettings settings s.files).answer call.request).2, ?_, ⟨hs.peer, hs.refusals⟩, rfl,
    rfl⟩
  rw [exchange, hs.refusals, if_neg (Nat.lt_irrefl 0), hs.peer]

/-- A client gets the value of the body that a service answers with. -/
theorem Client.send_of_serves {settings : Settings} {s : Session} (hs : s.Serves settings)
    (call : Call) {v : Json.Value}
    (h : Json.ofBytes ((Service.ofSettings settings s.files).answer call.request).1.body = .ok v) :
    ∃ s', send call s = (.ok v, s') ∧ s'.Serves settings ∧ s'.files = s.files := by
  obtain ⟨s', hexchange, hs', hfiles, -⟩ := hs.exchange_eq call
  refine ⟨s', ?_, hs', hfiles⟩
  rw [send, hexchange]
  dsimp only
  rw [h]
  rfl

/-- **Sending a body to a service brings back the verdict on it.** -/
theorem Client.send_calculation {settings : Settings} {s : Session} (hs : s.Serves settings)
    {url : Url} (hurl : url.query = none) {body : Bytes} {verdict : Verdict}
    (h : Decides settings.depth body verdict) :
    ∃ s', send (Question.calculation url body) s = (.ok (.object verdict.members), s') ∧
      s'.Serves settings ∧ s'.files = s.files := by
  apply send_of_serves hs
  rw [Question.request_calculation hurl, answer_of_decides h]
  exact Verdict.ofBytes_body h.isFinite

/-! ## The body for an expression -/

/-- The body for an expression that can be written, which is not null, is its compact text. -/
theorem Question.body_eq_ok {e : Json.Value} (hnull : e ≠ .null) (hfinite : e.floatsFinite = true)
    (hwritable : e.Writable) :
    Question.body e = .ok (Utf8.encodeLone (e.write Json.compact)) := by
  have hencode := Utf8.encode?_eq_some (Json.Value.writable_write hwritable)
  cases e with
  | null => exact absurd rfl hnull
  | bool | int | float | text | array | object =>
    rw [Question.body, hfinite, hencode]
    · rfl
    · simp

namespace Client

variable {c : Client} {settings : Settings} {s : Session} {e : Json.Value}

/-- What the client gets is the verdict on the expression. -/
theorem calculate_of_computes {bits : BitVec 32} (hhost : c.host = .v4 bits)
    (hport : c.port ≤ 65535) (hs : s.Serves settings) (hnull : e ≠ .null)
    (hreadable : e.Readable Json.nestingLimit) (hwritable : e.Writable) {verdict : Verdict}
    (h : Computes settings.depth e verdict) :
    (c.calculate e s).1 = .ok (.object verdict.members) := by
  obtain ⟨url, hconnect, hurl⟩ := exists_connect hhost hport s
  have hnoted : (s.note (.connect c.address)).Serves settings := ⟨hs.peer, hs.refusals⟩
  obtain ⟨s', hsend, -, -⟩ := send_calculation hnoted hurl
    (decides_of_ofBytes (Json.ofBytes_write hreadable) h)
  rw [calculate, hconnect]
  dsimp only
  rw [Question.body_eq_ok hnull (Json.Value.floatsFinite_of_readable hreadable) hwritable]
  dsimp only
  rw [hsend]

/-- **A calculation over a service is what it would be in place.** An expression other than null,
with numbers that can be told, no surrogates and a nesting that can be followed, is read from the
bytes of its text as it is, and a client whose host is a short address gets the verdict on it: its
value if that is finite, and otherwise the message of its one rejection. -/
theorem calculate_computes {bits : BitVec 32} (hhost : c.host = .v4 bits)
    (hport : c.port ≤ 65535) (hs : s.Serves settings) (hnull : e ≠ .null)
    (hreadable : e.Readable Json.nestingLimit) (hwritable : e.Writable) :
    (∃ body, Question.body e = .ok body ∧ Json.ofBytes body = .ok e) ∧
      ∃ verdict, Computes settings.depth e verdict ∧
        (∀ other, Computes settings.depth e other → other = verdict) ∧
        (c.calculate e s).1 = .ok (.object verdict.members) ∧
        (∀ r, (c.calculate e s).1 =
            .ok (.object [("action", .text "calculate"), ("result", .float r)]) ↔
          ∃ tree, Expression.validate settings.depth e = .ok tree ∧ tree.evaluate = .ok r ∧
            r.isFinite = true) ∧
        ∀ m, (c.calculate e s).1 = .ok (.object [("error", .text m)]) ↔
          ∃ r, Computes settings.depth e (.rejection r) ∧ r.message = m := by
  obtain ⟨verdict, hverdict⟩ := exists_computes settings.depth e
  have hcalculate := calculate_of_computes hhost hport hs hnull hreadable hwritable hverdict
  refine ⟨⟨_, Question.body_eq_ok hnull (Json.Value.floatsFinite_of_readable hreadable) hwritable,
    Json.ofBytes_write hreadable⟩, verdict, hverdict, fun _ h => h.unique hverdict, hcalculate,
    fun r => ?_, fun m => ?_⟩
  · rw [hcalculate, Except.ok.injEq, Json.Value.object.injEq, ← Computes.value_iff]
    exact Verdict.members_eq_value_iff.trans
      ⟨fun h => h ▸ hverdict, fun h => hverdict.unique h⟩
  · rw [hcalculate, Except.ok.injEq, Json.Value.object.injEq, Verdict.members_eq_error_iff]
    constructor
    · rintro ⟨r, rfl, hm⟩
      exact ⟨r, hverdict, hm⟩
    · rintro ⟨r, hr, hm⟩
      exact ⟨r, hverdict.unique hr, hm⟩

/-- A sum of an integer and a floating-point number. -/
theorem calculate_computes_sum :
    let e : Json.Value :=
      .object [(("op" : Text), .text "add"), ("args", .array [.int 1, .float 0.5])]
    let s := Session.fresh ⟨[], []⟩ (.service .standard) 0
    s.Serves .standard ∧ e.Readable Json.nestingLimit ∧ e.Writable ∧
      (standard.calculate e s).1 =
        .ok (.object [("action", .text "calculate"), ("result", .float 1.5)]) := by
  intro e s
  have hs : s.Serves .standard := ⟨rfl, rfl⟩
  have hreadable : e.Readable Json.nestingLimit := by
    refine .object (by decide) ?_
    simp only [List.mem_cons, List.not_mem_nil, or_false]
    rintro m (rfl | rfl)
    · exact .text _
    · refine .array ?_
      simp only [List.mem_cons, List.not_mem_nil, or_false]
      rintro v (rfl | rfl)
      · exact .int (by decide)
      · exact .float (by decide)
  have hwritable : e.Writable := by
    refine .object ?_ ?_
    · simp only [List.mem_cons, List.not_mem_nil, or_false]
      rintro m (rfl | rfl) <;> exact Text.writable_ofString _
    · simp only [List.mem_cons, List.not_mem_nil, or_false]
      rintro m (rfl | rfl)
      · exact .text (Text.writable_ofString _)
      · refine .array ?_
        simp only [List.mem_cons, List.not_mem_nil, or_false]
        rintro v (rfl | rfl)
        · exact .int 1
        · exact .float 0.5
  obtain ⟨-, verdict, -, -, -, hvalue, -⟩ :=
    @calculate_computes standard .standard s e 0x7F000001 rfl (by decide) hs (by simp [e])
      hreadable hwritable
  refine ⟨hs, hreadable, hwritable,
    (hvalue 1.5).2 ⟨.operation .add (.literal 1) [.literal 0.5], ?_, ?_, ?_⟩⟩
  · rfl
  · rfl
  · decide

end Client

end Abacus
