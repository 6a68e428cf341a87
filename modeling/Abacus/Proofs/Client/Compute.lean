import Mathlib
import Abacus.Proofs.Client.Calculate
import Abacus.Proofs.Http.Form
import Abacus.Proofs.Number.Size
import Abacus.Proofs.Service.Direct

/-!
# Questions that are asked of a service

A client that asks for the result of an operator over two finite doubles has them understood as they
are. Each is written as a text, both texts are encoded into a query, the service reads the fields of
the query, checks the texts and converts them, and what comes out are the same two doubles.

* `Question.fields_float`, `Question.decode_query`: the fields of such a question, and that they are
  read back;
* `hasOperands_query`: the service reads the operands of the question;
* `Question.exists_call`: the call for the question, which is short enough, and its request;
* `Client.compute_transparent`: what the client gets is the result of the operator or the message
  about it.
-/

namespace Abacus

variable {x y : Float}

/-! ## The query -/

namespace Question

theorem fields_float (x y : Float) :
    fields (.float x) (.float y) = [(("v1" : Text), Number.text x), ("v2", Number.text y)] := rfl

/-- The query of a question. -/
def query (x y : Float) : Bytes := Utf8.encodeLone (Form.encode (fields (.float x) (.float y)))

/-- **The texts of the operands are read back from the query**, with all signs in them. -/
theorem decode_query (x y : Float) : Form.decode (query x y) = fields (.float x) (.float y) := by
  apply Form.decode_encode
  simp only [fields_float, List.forall_mem_cons, List.not_mem_nil, false_imp_iff, implies_true,
    and_true]
  exact ⟨⟨Text.writable_ofString _, Number.writable_text x⟩, Text.writable_ofString _,
    Number.writable_text y⟩

end Question

/-- The text of a finite double gives this double. -/
theorem Operand.gives_text (hx : x.isFinite = true) : Gives (some (Number.text x)) x := by
  have hnumeral := Number.isNumeral_text hx
  have hfigure := Number.isFigure_of_isNumeral hnumeral
  have htrim : (Number.text x).trim = Number.text x :=
    Text.trimWith_of_forall fun c hc => CodePoint.isBlank_of_isFigure (hfigure c hc)
  refine ⟨Number.text x, rfl, ?_, ?_, ?_, hx⟩
  · intro c hc hseparator
    exact CodePoint.not_isFigure_of_isSeparator hseparator (hfigure c hc)
  · rw [htrim]
    exact hnumeral
  · rw [htrim]
    exact Number.ofText?_text hx

/-- **The operands of a question are the ones that the service reads.** -/
theorem hasOperands_query (hx : x.isFinite = true) (hy : y.isFinite = true) :
    HasOperands (Question.query x y) x y := by
  unfold HasOperands
  rw [Question.decode_query, Question.fields_float, Operand.parse_eq_ok_iff]
  exact ⟨Operand.gives_text hx, Operand.gives_text hy⟩

/-! ## The call -/

namespace Question

/-- The query of a question is not too long for a target. -/
theorem length_encode_le (hx : x.isFinite = true) (hy : y.isFinite = true) :
    (Form.encode (fields (.float x) (.float y))).length ≤ Target.limit := by
  have hlength : ∀ f ∈ fields (.float x) (.float y), f.1.length + f.2.length ≤ 1502 := by
    have hxlength := Number.length_text_le hx
    have hylength := Number.length_text_le hy
    have hname : (Text.ofString "v1").length = 2 ∧ (Text.ofString "v2").length = 2 := ⟨rfl, rfl⟩
    simp only [fields_float, List.forall_mem_cons, List.not_mem_nil, false_imp_iff, implies_true,
      and_true]
    omega
  refine (Form.length_encode_le hlength).trans ?_
  show 2 * (12 * 1502 + 2) ≤ 65536
  decide

/-- The call for a question about two doubles. -/
theorem call_eq {url : Url} (hurl : url.query = none) (op : Operator) (hx : x.isFinite = true)
    (hy : y.isFinite = true) :
    call url (Text.ofString op.name) (.float x) (.float y) =
      .ok ⟨"GET", (Endpoint.direct op).path ++ CodePoint.ofChar '?' ::
        Form.encode (fields (.float x) (.float y)), []⟩ := by
  have hpath : Target.path (Endpoint.root ++ Text.ofString op.name) =
      .ok (Endpoint.direct op).path := by
    cases op <;> rfl
  have hwritable : ((fields (.float x) (.float y)).any fun f =>
      f.2.any CodePoint.isSurrogate) = false := by
    simp only [fields_float, List.any_cons, List.any_nil, (Number.writable_text x).any_eq_false,
      (Number.writable_text y).any_eq_false, Bool.or_false]
  have hresource : url.resource (Endpoint.direct op).path = (Endpoint.direct op).path := by
    rw [Url.resource, hurl]
    rfl
  unfold call
  rw [hpath]
  show (Target.withQuery (url.resource _) _ >>= _) = _
  rw [hresource, Target.withQuery, hwritable, if_neg Bool.false_ne_true,
    if_neg (length_encode_le hx hy).not_gt, List.append_assoc]
  rfl

/-- **The call for a question is the request for it.** -/
theorem exists_call {url : Url} (hurl : url.query = none) (op : Operator)
    (hx : x.isFinite = true) (hy : y.isFinite = true) :
    ∃ c, call url (Text.ofString op.name) (.float x) (.float y) = .ok c ∧
      c.request = Direct.request op (query x y) := by
  refine ⟨_, call_eq hurl op hx hy, ?_⟩
  have hmark : CodePoint.ofChar '?' ∉ (Endpoint.direct op).path := by cases op <;> decide
  have hdecode : Percent.decode (Endpoint.direct op).path = (Endpoint.direct op).path := by
    cases op <;> rfl
  unfold Call.request
  dsimp only
  rw [Text.cutAt_append_cons hmark]
  dsimp only
  rw [hdecode]
  rfl

end Question

/-! ## What the client gets -/

namespace Client

variable {c : Client} {settings : Settings} {s : Session} {op : Operator}

/-- The client gets the verdict on the operands. -/
theorem compute_of_settles {bits : BitVec 32} (hhost : c.host = .v4 bits)
    (hport : c.port ≤ 65535) (hs : s.Serves settings) (hx : x.isFinite = true)
    (hy : y.isFinite = true) {v : Verdict} (hv : op.Settles x y v) :
    (c.compute (Text.ofString op.name) (.float x) (.float y) s).1 =
      .ok (.object (Direct.members op x y v)) := by
  obtain ⟨url, hconnect, hurl⟩ := exists_connect hhost hport s
  obtain ⟨call, hcall, hrequest⟩ := Question.exists_call hurl op hx hy
  have hnoted : (s.note (.connect c.address)).Serves settings := ⟨hs.peer, hs.refusals⟩
  have htells := Direct.tells_of_settles (hasOperands_query hx hy) hv settings s.files
  rw [← hrequest] at htells
  obtain ⟨s', hsend, -, -⟩ := send_of_serves hnoted call htells.ofBytes_body
  rw [compute, hconnect]
  dsimp only
  rw [hcall]
  dsimp only
  rw [hsend]

/-- **A question to a service is understood as it is asked.** Whatever two finite doubles a client
with a short host asks about, their texts are read back from the query as they were written and are
converted to the same doubles, and the client gets the result of the operator over them together
with both, if there is one and it is finite, and otherwise the message about it. The message about
invalid parameters is never what it gets. -/
theorem compute_transparent {bits : BitVec 32} (hhost : c.host = .v4 bits)
    (hport : c.port ≤ 65535) (hs : s.Serves settings) (op : Operator) (hx : x.isFinite = true)
    (hy : y.isFinite = true) :
    let got := (c.compute (Text.ofString op.name) (.float x) (.float y) s).1
    (∃ url call, c.connect s = .ok (url, s.note (.connect c.address)) ∧
        Question.call url (Text.ofString op.name) (.float x) (.float y) = .ok call ∧
        call.request = Direct.request op (Question.query x y)) ∧
      Form.decode (Question.query x y) =
        [(("v1" : Text), Number.text x), ("v2", Number.text y)] ∧
      HasOperands (Question.query x y) x y ∧
      ((∃ r, op.apply x [y] = .ok r ∧ r.isFinite = true ∧
          got = .ok (.object [("action", .text (Text.ofString op.name)), ("v1", .float x),
            ("v2", .float y), ("result", .float r)])) ∨
        (∃ r, op.apply x [y] = .ok r ∧ r.isFinite = false ∧
          got = .ok (.object [("error", .text (Rejection.plain .nonFiniteValue).message)])) ∨
        ∃ e r, op.apply x [y] = .error e ∧ e.rejection? = some r ∧
          got = .ok (.object [("error", .text r.message)])) ∧
      got ≠ .ok (.object [("error", .text (Rejection.plain .invalidParameters).message)]) := by
  obtain ⟨v, hv⟩ := op.exists_settles x y
  dsimp only
  rw [compute_of_settles hhost hport hs hx hy hv]
  obtain ⟨url, hconnect, hurl⟩ := exists_connect hhost hport s
  obtain ⟨call, hcall, hrequest⟩ := Question.exists_call hurl op hx hy
  refine ⟨⟨url, call, hconnect, hcall, hrequest⟩, Question.decode_query x y,
    hasOperands_query hx hy, ?_, ?_⟩
  · cases hv with
    | value h hr => exact .inl ⟨_, Operator.apply_pair_of_step hx hy h, hr, rfl⟩
    | nonFinite h hr => exact .inr (.inl ⟨_, Operator.apply_pair_of_step hx hy h, hr, rfl⟩)
    | divisionByZero h hzero =>
      subst h
      exact .inr (.inr ⟨_, _, (Operator.apply_pair_of_zero hx hy hzero).1, rfl, rfl⟩)
    | zeroDegreeRoot h hzero =>
      subst h
      exact .inr (.inr ⟨_, _, (Operator.apply_pair_of_zero hx hy hzero).2, rfl, rfl⟩)
  · intro h
    have hmembers : Direct.members op x y v =
        (Verdict.rejection (Rejection.plain .invalidParameters)).members :=
      Json.Value.object.inj (Except.ok.inj h)
    obtain ⟨r, rfl, -⟩ | ⟨kind, hkind, rfl⟩ := hv.cases
    · cases congrArg List.length hmembers
    · have hmessage : (Rejection.plain kind).message =
          (Rejection.plain .invalidParameters).message := by
        simpa [Direct.members, Verdict.members] using hmembers
      exact Rejection.message_ofOperands_ne kind hkind hmessage

/-- A large number and the negative zero: the plus sign of an exponent and the sign of a zero. -/
theorem compute_transparent_exponent :
    let s := Session.fresh ⟨[], []⟩ (.service .standard) 0
    s.Serves .standard ∧ Number.text 1e22 = ("1e+22" : Text) ∧
      Number.text (-0.0) = ("-0.0" : Text) ∧
      (standard.compute "add" (.float 1e22) (.float (-0.0)) s).1 =
        .ok (.object [("action", .text "add"), ("v1", .float 1e22), ("v2", .float (-0.0)),
          ("result", .float 1e22)]) := by
  intro s
  have hs : s.Serves .standard := ⟨rfl, rfl⟩
  have hx : (1e22 : Float).isFinite = true := by decide
  have hy : (-0.0 : Float).isFinite = true := by decide
  have hstep : Operator.add.step? 1e22 (-0.0) = some 1e22 := by decide +kernel
  have happly := Operator.apply_pair_of_step hx hy hstep
  refine ⟨hs, by decide +kernel, by decide +kernel, ?_⟩
  obtain ⟨-, -, -, ⟨r, hr, -, hgot⟩ | ⟨r, hr, hfinite, -⟩ | ⟨e, r, he, -⟩, -⟩ :=
    @compute_transparent _ _ standard .standard s 0x7F000001 rfl (by decide) hs .add hx hy
  · cases hr.symm.trans happly
    exact hgot
  · cases hr.symm.trans happly
    exact absurd hfinite (by decide)
  · cases he.symm.trans happly

end Client

end Abacus
