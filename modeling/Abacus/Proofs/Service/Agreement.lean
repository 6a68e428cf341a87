import Mathlib
import Abacus.Proofs.Expression.Grammar
import Abacus.Proofs.Json.Scalar
import Abacus.Proofs.Service.Calculate

/-!
# Direct questions agree with expressions

An operator over two numbers can be asked for in two ways, in a direct question and in an
expression. The numbers are read from texts of two kinds, and the answers differ in form, but both
tell the same result or the same rejection.

* `Operator.Settles`: what an operator over two finite numbers comes to;
* `Operator.exists_settles`, `Operator.Settles.compute_eq`: there always is such a verdict, and the
  computation behind a direct question comes to it;
* `Expression.validate_pair`, `computes_pair`: so does an expression of one operation over the two;
* `operationText`, `ofBytes_operationText`: such an expression, written with the texts of the
  numbers;
* `Direct.response_eq`: the response to a direct question;
* `direct_agrees_calculate`: the responses to both.
-/

namespace Abacus

/-- What an operator over two finite numbers comes to. -/
inductive Operator.Settles (op : Operator) (x y : Float) : Verdict → Prop
  /-- The step of the operator is finite. -/
  | value {r : Float} (h : op.step? x y = some r) (hr : r.isFinite = true) :
      Settles op x y (.value r)
  /-- The step of the operator is an infinity or no number. -/
  | nonFinite {r : Float} (h : op.step? x y = some r) (hr : r.isFinite = false) :
      Settles op x y (.rejection (Rejection.plain .nonFiniteValue))
  /-- A quotient by zero. -/
  | divisionByZero (h : op = .divide) (hy : (y == 0) = true) :
      Settles op x y (.rejection (Rejection.plain .divisionByZero))
  /-- A root of degree zero. -/
  | zeroDegreeRoot (h : op = .root) (hy : (y == 0) = true) :
      Settles op x y (.rejection (Rejection.plain .zeroDegreeRoot))

/-- The computation behind the answer to a direct question, once its operands are read. -/
def Direct.compute (op : Operator) (x y : Float) : Except Interruption Float :=
  ((op.apply x [y]).bind ensureFinite).mapError Interruption.ofEvaluationError

namespace Operator

variable {op : Operator} {x y : Float}

/-- Where the step has a value, no quotient by zero was taken. -/
theorem ne_zero_of_step? {r : Float} (h : op.step? x y = some r) (hop : op.IsGuarded) :
    (y == 0) = false := by
  rcases hop with rfl | rfl
  · unfold step? Arithmetic.quotient? at h
    split_ifs at h with hy
    exact Bool.eq_false_iff.2 hy
  · unfold step? Arithmetic.nthRoot? Arithmetic.quotient? at h
    split_ifs at h with hy
    · cases h
    · exact Bool.eq_false_iff.2 hy

theorem apply_pair_of_step (hx : x.isFinite = true) (hy : y.isFinite = true) {r : Float}
    (h : op.step? x y = some r) : op.apply x [y] = .ok r := by
  refine apply_eq_ok_iff.2 ⟨by simp [hx, hy], fun hop => ?_, ?_⟩
  · simpa using ne_zero_of_step? h hop
  · rw [fold?, h]
    rfl

theorem apply_pair_of_zero (hx : x.isFinite = true) (hy : y.isFinite = true)
    (hzero : (y == 0) = true) :
    divide.apply x [y] = .error .divisionByZero ∧ root.apply x [y] = .error .zeroDegreeRoot := by
  simp [apply, hx, hy, hzero]

/-- An operator over two numbers always comes to a verdict. -/
theorem exists_settles (op : Operator) (x y : Float) : ∃ v, op.Settles x y v := by
  by_cases hzero : op.IsGuarded → (y == 0) = false
  · obtain ⟨r, hr⟩ := step?_of_ne_zero hzero x
    cases hfinite : r.isFinite with
    | true => exact ⟨_, .value hr hfinite⟩
    | false => exact ⟨_, .nonFinite hr hfinite⟩
  · rw [Classical.not_imp, Bool.not_eq_false] at hzero
    obtain ⟨hdivide | hroot, hy⟩ := hzero
    · exact ⟨_, .divisionByZero hdivide hy⟩
    · exact ⟨_, .zeroDegreeRoot hroot hy⟩

/-- **The computation behind a direct question comes to the verdict.** -/
theorem Settles.compute_eq {v : Verdict} (h : op.Settles x y v) (hx : x.isFinite = true)
    (hy : y.isFinite = true) : Direct.compute op x y = v.outcome := by
  unfold Direct.compute
  cases h with
  | value h hr =>
    rw [apply_pair_of_step hx hy h, Except.bind, ensureFinite, hr]
    rfl
  | nonFinite h hr =>
    rw [apply_pair_of_step hx hy h, Except.bind, ensureFinite, hr]
    rfl
  | divisionByZero h hzero =>
    rw [h, (apply_pair_of_zero hx hy hzero).1]
    rfl
  | zeroDegreeRoot h hzero =>
    rw [h, (apply_pair_of_zero hx hy hzero).2]
    rfl

theorem Settles.unique {v w : Verdict} (hv : op.Settles x y v) (hw : op.Settles x y w)
    (hx : x.isFinite = true) (hy : y.isFinite = true) : v = w :=
  Verdict.outcome_injective ((hv.compute_eq hx hy).symm.trans (hw.compute_eq hx hy))

end Operator

/-! ## The expression -/

variable {limit : ℤ} {op : Operator} {members : Json.Members} {v w : Json.Value} {x y : Float}

theorem Expression.isNumber_of_validate (h : validate limit v = .ok (.literal x)) :
    IsNumber v x := by
  cases (walk_eq_ok_iff.1 h).1 with
  | literal hx => exact hx

/-- An operation over two numbers is an expression under every limit that admits any operation. -/
theorem Expression.validate_pair (hlimit : 1 ≤ limit) (h : IsOperation members op [v, w])
    (hv : IsNumber v x) (hw : IsNumber w y) :
    validate limit (.object members) = .ok (.operation op (.literal x) [.literal y]) := by
  refine walk_eq_ok_iff.2 ⟨.operation h (.cons (.literal hv) (.cons (.literal hw) .nil)), ?_⟩
  simp only [nesting, nestingOfAll]
  omega

/-- **The verdict on an operation over two numbers** is what the computation behind a direct
question comes to. -/
theorem computes_pair {verdict : Verdict} (hlimit : 1 ≤ limit)
    (h : Expression.IsOperation members op [v, w]) (hv : Expression.IsNumber v x)
    (hw : Expression.IsNumber w y) (hverdict : Direct.compute op x y = verdict.outcome) :
    Computes limit (.object members) verdict := by
  have hevaluate : (Expression.operation op (.literal x) [.literal y]).evaluate = op.apply x [y] :=
    Expression.evaluate_operation_literal op x [y]
  rw [Computes.iff_outcome, ← hverdict]
  unfold Calculation.compute Direct.compute Calculation.evaluator
  rw [Expression.validate_pair hlimit h hv hw]
  show (Expression.evaluate _).mapError _ >>= _ = _
  rw [hevaluate]
  cases op.apply x [y] <;> rfl

/-! ## Its text -/

/-- The text of an operation over two arguments that are given by their texts. -/
def operationText (op : Operator) (t u : Text) : Text :=
  ("\x7b\"op\":\"" : Text) ++ Text.ofString op.name ++ ("\",\"args\":[" : Text) ++ t ++
    ("," : Text) ++ u ++ ("]\x7d" : Text)

theorem operationText_eq (op : Operator) (t u : Text) :
    operationText op t u = CodePoint.ofChar '\x7b' ::
      (Json.compact.quote "op" ++ CodePoint.ofChar ':' ::
        ((Json.Value.text (Text.ofString op.name)).write Json.compact ++ CodePoint.ofChar ',' ::
          (Json.compact.quote "args" ++ CodePoint.ofChar ':' :: CodePoint.ofChar '[' ::
            (t ++ CodePoint.ofChar ',' ::
              (u ++ CodePoint.ofChar ']' :: [CodePoint.ofChar '\x7d']))))) := by
  unfold operationText
  simp only [List.append_assoc]
  cases op <;> rfl

section Reading

open Json Reader

variable {t u : Text}

/-- **The text of an operation is read as the operation over the values of the two texts**, if these
are no containers. -/
theorem reads_operationText (op : Operator) (ht : Json.Reads t v) (hv : ¬v.IsContainer)
    (hu : Json.Reads u w) (hw : ¬w.IsContainer) :
    Json.Reads (operationText op t u) (Index.operation op [v, w]) := by
  have hname : ReadsBack 0 (.text (Text.ofString op.name)) := readsBack_of_readable (.text _)
  unfold Json.Reads tokens
  rw [← @run_eq_ok_iff 0, operationText_eq, run_punctuation openObject_mem _ _ _ rfl,
    run_member hname (.inr ⟨rfl, rfl⟩) (by decide) comma_mem,
    run_punctuation comma_mem _ _ _ rfl, run_of_lexes (lexes_quote "args" _) _ _ rfl,
    run_punctuation colon_mem _ _ _ rfl, run_punctuation openArray_mem _ _ _ rfl,
    run_of_reads ht hv (.inr ⟨_, rfl, rfl⟩) comma_mem, run_punctuation comma_mem _ _ _ rfl,
    run_of_reads hu hw (.inl rfl) closeArray_mem, run_punctuation closeArray_mem _ _ _ rfl,
    run_punctuation closeObject_mem _ _ _ rfl, tokensFrom]
  rfl

end Reading

theorem Expression.IsNumber.not_isContainer (h : IsNumber v x) : ¬v.IsContainer := by
  unfold Json.Value.IsContainer
  cases h <;> simp

/-- The bytes of the text of an operation over two numbers. -/
theorem ofBytes_operationText {t u : Text} (op : Operator) (ht : Json.ofText t = .ok v)
    (hv : Expression.IsNumber v x) (hu : Json.ofText u = .ok w) (hw : Expression.IsNumber w y) :
    Json.ofBytes (Utf8.encodeLone (operationText op t u)) =
      .ok (Index.operation op [v, w]) := by
  apply Json.ofBytes_encodeLone
  rw [Json.ofDecoded_eq_ok_iff]
  apply reads_operationText op _ hv.not_isContainer _ hw.not_isContainer
  · exact Json.ofDecoded_eq_ok_iff.1 (Json.ofDecoded_of_ofText ht)
  · exact Json.ofDecoded_eq_ok_iff.1 (Json.ofDecoded_of_ofText hu)

/-! ## The responses -/

/-- A response has a status, and its JSON body is read as an object with given members. -/
structure Response.Tells (response : Response) (status : ℕ) (members : Json.Members) : Prop where
  status_eq : response.status = status
  media_eq : response.media = .json
  ofBytes_body : Json.ofBytes response.body = .ok (.object members)

theorem Response.tells_json {members : Json.Members} (status : ℕ)
    (h : (Json.Value.object members).Readable Json.nestingLimit) :
    (Response.json status (.object members)).Tells status members :=
  ⟨rfl, rfl, Json.ofBytes_write h⟩

theorem DirectAnswer.readable {a : DirectAnswer} (hleft : a.left.isFinite = true)
    (hright : a.right.isFinite = true) (hresult : a.result.isFinite = true) :
    (Json.Value.object a.toData).Readable Json.nestingLimit := by
  refine .object ?_ ?_
  · show [("action" : Text), "v1", "v2", "result"].Nodup
    decide
  · simp only [toData, List.forall_mem_cons, List.not_mem_nil, false_imp_iff, implies_true,
      and_true]
    exact ⟨.text _, .float hleft, .float hright, .float hresult⟩

/-- The operands in a query are read as two doubles. -/
def HasOperands (query : Bytes) (x y : Float) : Prop :=
  Operand.parse (Form.value? (Form.decode query) "v1") (Form.value? (Form.decode query) "v2") =
    .ok (x, y)

theorem Operand.isFinite_of_parse {s t : Option Text} (h : parse s t = .ok (x, y)) :
    x.isFinite = true ∧ y.isFinite = true := by
  unfold parse at h
  split_ifs at h
  obtain ⟨a, -, h⟩ := bind_eq_ok_iff.1 h
  obtain ⟨b, -, h⟩ := bind_eq_ok_iff.1 h
  split_ifs at h with hfinite
  cases h
  rwa [Bool.and_eq_true] at hfinite

namespace Direct

/-- The request that asks an operator for its result over the operands in a query. -/
def request (op : Operator) (query : Bytes) : Request :=
  ⟨"GET", (Endpoint.direct op).path, query, []⟩

theorem answer_of_operands {query : Bytes} (h : HasOperands query x y) :
    answer op query = (compute op x y).map fun r =>
      .json 200 (.object (DirectAnswer.mk (Text.ofString op.name) x y r).toData) := by
  unfold HasOperands at h
  unfold answer
  dsimp only
  rw [h]
  show ((compute op x y).bind fun r => .ok _) = _
  cases compute op x y <;> rfl

/-- A direct question is answered by its operator. -/
theorem outcome_request (settings : Settings) (files : Files) (op : Operator) (query : Bytes) :
    (Service.ofSettings settings files).outcome (request op query) = answer op query := by
  have hroute : (Service.ofSettings settings files).route? (request op query) =
      some (.endpoint (.direct op)) := by
    refine Service.route?_of_fits _ ?_ rfl
    rw [Endpoint.hasPath, Bool.or_eq_true]
    exact .inl (decide_eq_true rfl)
  unfold Service.outcome
  rw [hroute]
  rfl

/-- The response to a direct question tells the outcome of the computation behind it. -/
theorem response_eq {query : Bytes} (h : HasOperands query x y) (settings : Settings)
    (files : Files) :
    (Service.ofSettings settings files).answer (request op query) =
      Interruption.conclude (request op query) ((compute op x y).map fun r =>
        .json 200 (.object (DirectAnswer.mk (Text.ofString op.name) x y r).toData)) := by
  unfold Service.answer
  rw [outcome_request, answer_of_operands h]

end Direct

/-- **A direct question and an expression get the same answer.** Let the operands in a query and two
JSON texts be read as the same two doubles, and let the limit of a service admit any operation at
all. The texts between the marks of an operation are read as the operation over their values. The
service is asked for the result of the operator over the operands, and it is sent any body that is
read as such an operation. Either both responses tell the same finite result, the first one together
with the name of the operator and the operands, or both tell the message of the same rejection. -/
theorem direct_agrees_calculate {settings : Settings} (hdepth : 1 ≤ settings.depth) (files : Files)
    (op : Operator) {query : Bytes} {x y : Float} (hquery : HasOperands query x y) {t u : Text}
    {v w : Json.Value} (ht : Json.ofText t = .ok v) (hu : Json.ofText u = .ok w)
    (hv : Expression.validate settings.depth v = .ok (.literal x))
    (hw : Expression.validate settings.depth w = .ok (.literal y)) :
    Json.ofBytes (Utf8.encodeLone (operationText op t u)) = .ok (Index.operation op [v, w]) ∧
      ∀ members, Expression.IsOperation members op [v, w] →
        ∀ body, Json.ofBytes body = .ok (.object members) → ∀ query',
          let service := Service.ofSettings settings files
          let direct := (service.answer (Direct.request op query)).1
          let calculated := (service.answer (calculateRequest query' body)).1
          (∃ r, op.Settles x y (.value r) ∧
            direct.Tells 200 [("action", .text (Text.ofString op.name)), ("v1", .float x),
              ("v2", .float y), ("result", .float r)] ∧
            calculated.Tells 200 [("action", .text "calculate"), ("result", .float r)]) ∨
          ∃ e, op.Settles x y (.rejection e) ∧
            direct.Tells 400 [("error", .text e.message)] ∧
            calculated.Tells 400 [("error", .text e.message)] := by
  have hv := Expression.isNumber_of_validate hv
  have hw := Expression.isNumber_of_validate hw
  obtain ⟨hx, hy⟩ := Operand.isFinite_of_parse hquery
  refine ⟨ofBytes_operationText op ht hv hu hw, ?_⟩
  intro members hmembers body hbody query'
  obtain ⟨verdict, hsettles⟩ := op.exists_settles x y
  have hcompute := hsettles.compute_eq hx hy
  have hdecides : Decides settings.depth body verdict :=
    decides_of_ofBytes hbody (computes_pair (by omega) hmembers hv hw hcompute)
  have hcalculated := Response.tells_json verdict.status (Verdict.readable hdecides.isFinite)
  dsimp only
  rw [answer_of_decides hdecides, Direct.response_eq hquery, hcompute]
  cases verdict with
  | value r =>
    have hr : r.isFinite = true := hdecides.isFinite r rfl
    exact .inl ⟨r, hsettles, Response.tells_json 200 (DirectAnswer.readable hx hy hr), hcalculated⟩
  | rejection e => exact .inr ⟨e, hsettles, hcalculated, hcalculated⟩

/-- The sum of one and two, asked for in both ways. -/
theorem direct_agrees_calculate_sum :
    let query := Utf8.encodeLone "v1=1&v2=2"
    let body := Utf8.encodeLone (operationText .add "1" "2")
    let service := Service.ofSettings .standard ⟨[], []⟩
    HasOperands query 1 2 ∧ Json.ofText "1" = .ok (.int 1) ∧ Json.ofText "2" = .ok (.int 2) ∧
      (service.answer (Direct.request .add query)).1.Tells 200
          [("action", .text "add"), ("v1", .float 1), ("v2", .float 2), ("result", .float 3)] ∧
        (service.answer (calculateRequest [] body)).1.Tells 200
          [("action", .text "calculate"), ("result", .float 3)] := by
  intro query body service
  have hquery : HasOperands query 1 2 := by rfl
  have hone : Json.ofText "1" = .ok (.int 1) :=
    Json.ofDecoded_write (v := .int 1) (.int (by decide))
  have htwo : Json.ofText "2" = .ok (.int 2) :=
    Json.ofDecoded_write (v := .int 2) (.int (by decide))
  obtain ⟨hbody, hagree⟩ := @direct_agrees_calculate .standard (by decide) ⟨[], []⟩ .add query 1 2
    hquery "1" "2" (.int 1) (.int 2) hone htwo (by rfl) (by rfl)
  have hsum : Operator.Settles .add 1 2 (.value 3) := .value (by decide +kernel) (by decide)
  have hoperation : Expression.IsOperation
      [("op", .text (Text.ofString Operator.add.name)), ("args", .array [.int 1, .int 2])]
      .add [.int 1, .int 2] := ⟨rfl, rfl⟩
  refine ⟨hquery, hone, htwo, ?_⟩
  obtain ⟨r, hr, hdirect, hcalculated⟩ | ⟨e, he, -⟩ := hagree _ hoperation body hbody []
  · cases hr.unique hsum (by decide) (by decide)
    exact ⟨hdirect, hcalculated⟩
  · cases he.unique hsum (by decide) (by decide)

end Abacus
