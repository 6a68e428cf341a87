import Mathlib
import Abacus.Proofs.Json.Prefix
import Abacus.Proofs.Service.Route
import Abacus.Proofs.Service.Verdict

/-!
# Every body of an expression is answered

Whatever bytes are sent as an expression, the service answers with a finite value or with the
message of one rejection, decided by the first stage that fails.

* `IsBlankBody`, `HasText`: bodies that hold blanks only, and the text of any other body.
* `Decides`: the verdict on a body, by the first of all stages that fails.
* `decides_of_ofBytes`: a body that has a value is not blank, and gets the verdict on that value.
* `Decides.compute_eq`, `exists_decides`: the service comes to that verdict, and there always is
  one.
* `calculate_decides`: the response to the request.
-/

namespace Abacus

/-- All bytes of a body are blanks of ASCII. -/
def IsBlankBody (body : Bytes) : Prop := ∀ b ∈ body, b.toNat = 0x20 ∨ 0x9 ≤ b.toNat ∧ b.toNat ≤ 0xD

/-- A body that is not blank holds a text in the encoding that it announces. -/
def HasText (body : Bytes) (t : Text) : Prop :=
  ¬IsBlankBody body ∧ (Json.Encoding.detect body).decode? body = some t

/-- The verdict on a body under a limit on the nesting of operations. -/
inductive Decides (limit : ℤ) (body : Bytes) : Verdict → Prop
  /-- The body is blank. -/
  | blank (h : IsBlankBody body) :
      Decides limit body (.rejection (Rejection.plain .missingExpression))
  /-- The bytes are no text in the encoding that they announce. -/
  | undecodable (h : ¬IsBlankBody body)
      (ht : (Json.Encoding.detect body).decode? body = none) :
      Decides limit body (.rejection (Rejection.plain .invalidBody))
  /-- The first obstacle in the text is a fault. -/
  | malformed {t : Text} {fault : Json.Fault} {offset : ℕ} (h : HasText body t)
      (ho : Json.Meets t (.fault fault offset)) :
      Decides limit body (.rejection (Rejection.plain .invalidBody))
  /-- The first obstacle in the text is an integer with too many digits. -/
  | integerTooLong {t : Text} {digits : ℕ} (h : HasText body t)
      (ho : Json.Meets t (.integerTooLong digits)) :
      Decides limit body (.rejection (Rejection.plain .invalidBody))
  /-- The text begins with what goes too deep, whatever follows it. -/
  | tooDeep {front rest : Text} {c : Json.Container} (h : HasText body (front ++ rest))
      (ho : ∀ rest', Json.Meets (front ++ rest') (.tooDeep c)) :
      Decides limit body (.rejection (Rejection.depthLimitExceeded (Text.ofInt limit)))
  /-- The text has a value, and the verdict is the one on that value. -/
  | decoded {t : Text} {value : Json.Value} {v : Verdict} (h : HasText body t)
      (hvalue : Json.Reads t value) (hv : Computes limit value v) : Decides limit body v

theorem Percent.val_ofByte (b : UInt8) : (Percent.ofByte b).val = b.toNat :=
  Nat.mod_eq_of_lt (b.toNat_lt.trans (by decide))

theorem isAsciiBlank_ofByte_iff {b : UInt8} : (Percent.ofByte b).isAsciiBlank = true ↔
    b.toNat = 0x20 ∨ 0x9 ≤ b.toNat ∧ b.toNat ≤ 0xD := by
  rw [CodePoint.isAsciiBlank, Percent.val_ofByte, Bool.or_eq_true, Bool.and_eq_true,
    decide_eq_true_eq, decide_eq_true_eq, decide_eq_true_eq]

theorem isBlank_iff {body : Bytes} : Calculation.isBlank body = true ↔ IsBlankBody body := by
  simp only [Calculation.isBlank, List.all_eq_true, isAsciiBlank_ofByte_iff, IsBlankBody]

/-- The bytes of a blank body are those of as many blanks. -/
theorem IsBlankBody.encodeLone_eq {body : Bytes} (h : IsBlankBody body) :
    Utf8.encodeLone (body.map Percent.ofByte) = body := by
  induction body with
  | nil => rfl
  | cons b body ih =>
    obtain ⟨hb, hbody⟩ := List.forall_mem_cons.1 h
    have hsmall : (Percent.ofByte b).val < 0x80 := by
      rw [Percent.val_ofByte]
      omega
    rw [List.map_cons, Utf8.encodeLone, List.flatMap_cons, Utf8.encodePoint_eq, if_pos hsmall,
      Percent.val_ofByte, UInt8.ofNat_toNat, List.singleton_append]
    exact congrArg (b :: ·) (ih hbody)

/-- **A body that has a value is not blank.** -/
theorem not_isBlankBody_of_ofBytes {body : Bytes} {v : Json.Value} (h : Json.ofBytes body = .ok v) :
    ¬IsBlankBody body := by
  intro hblank
  have hblanks : ∀ c ∈ body.map Percent.ofByte, c.isAsciiBlank = true := by
    simp only [List.forall_mem_map, isAsciiBlank_ofByte_iff]
    exact hblank
  have hmark : (body.map Percent.ofByte).head? ≠ some Json.Token.mark := fun hhead =>
    absurd (hblanks _ (List.mem_of_mem_head? hhead)) (by decide)
  have hzero : ∀ c ∈ (body.map Percent.ofByte).take 2, c ≠ 0 := by
    rintro c hc rfl
    exact absurd (hblanks 0 (List.mem_of_mem_take hc)) (by decide)
  rw [← hblank.encodeLone_eq, Json.ofBytes, Json.Encoding.decode?_encodeLone hmark hzero] at h
  exact Json.not_reads_of_blank hblanks v (Json.ofDecoded_eq_ok_iff.1 h)

/-- **The verdict on the value of a body is the verdict on the body.** -/
theorem decides_of_ofBytes {limit : ℤ} {body : Bytes} {v : Json.Value} {verdict : Verdict}
    (h : Json.ofBytes body = .ok v) (hv : Computes limit v verdict) :
    Decides limit body verdict := by
  have hblank := not_isBlankBody_of_ofBytes h
  rw [Json.ofBytes] at h
  split at h
  · next t ht => exact .decoded ⟨hblank, ht⟩ (Json.ofDecoded_eq_ok_iff.1 h) hv
  · cases h

namespace Calculation

theorem decode_of_text {limit : ℤ} {body : Bytes} {t : Text} (h : HasText body t) :
    decode limit body = (Json.ofDecoded t).mapError (ofDecodeError limit) := by
  rw [decode, if_neg fun hb => h.1 (isBlank_iff.1 hb), Json.ofBytes, h.2]

/-- A text with an obstacle is decoded to the interruption by its report. -/
theorem decode_of_meets {limit : ℤ} {body : Bytes} {t : Text} {o : Json.Reader.Obstacle}
    (h : HasText body t) (ho : Json.Meets t o) :
    decode limit body = .error (ofDecodeError limit (Json.Reader.report t o)) := by
  rw [decode_of_text h, Json.ofDecoded_eq_error_iff.2 ⟨o, ho, rfl⟩]
  rfl

end Calculation

namespace Decides

open Calculation (decode compute)

variable {limit : ℤ} {body : Bytes} {v w : Verdict}

/-- **The service comes to the verdict.** -/
theorem compute_eq (h : Decides limit body v) :
    decode limit body >>= compute limit = v.outcome := by
  cases h with
  | blank h =>
    rw [decode, if_pos (isBlank_iff.2 h)]
    rfl
  | undecodable h ht =>
    rw [decode, if_neg fun hb => h (isBlank_iff.1 hb), Json.ofBytes, ht]
    rfl
  | malformed h ho =>
    rw [Calculation.decode_of_meets h ho]
    rfl
  | integerTooLong h ho =>
    rw [Calculation.decode_of_meets h ho]
    rfl
  | tooDeep h ho =>
    rw [Calculation.decode_of_meets h (ho _)]
    rfl
  | decoded h hvalue hv =>
    rw [Calculation.decode_of_text h, Json.ofDecoded_eq_ok_iff.2 hvalue]
    exact hv.compute_eq

/-- The verdict decides the answer. -/
theorem answer_eq (h : Decides limit body v) :
    Calculation.answer limit Calculation.evaluator body =
      v.outcome.map fun x => (Verdict.value x).response := by
  rw [Calculation.answer_eq, h.compute_eq]

theorem unique (hv : Decides limit body v) (hw : Decides limit body w) : v = w :=
  Verdict.outcome_injective (hv.compute_eq.symm.trans hw.compute_eq)

theorem isFinite (h : Decides limit body v) : v.IsFinite := by
  rintro x rfl
  cases h with
  | decoded _ _ hv => exact hv.isFinite

/-- The message of a rejection is printable. -/
theorem printable {r : Rejection} (h : Decides limit body (.rejection r)) :
    r.message.Printable := by
  cases h with
  | blank => exact Rejection.printable_plain _
  | undecodable => exact Rejection.printable_plain _
  | malformed => exact Rejection.printable_plain _
  | integerTooLong => exact Rejection.printable_plain _
  | tooDeep => exact Rejection.printable_validation (.depthLimitExceeded limit)
  | decoded _ _ hv => exact hv.printable

theorem isWritable (h : Decides limit body v) : v.IsWritable := by
  rintro r rfl
  exact h.printable.writable

end Decides

/-- **Every body gets a verdict.** -/
theorem exists_decides (limit : ℤ) (body : Bytes) : ∃ v, Decides limit body v := by
  by_cases hblank : IsBlankBody body
  · exact ⟨_, .blank hblank⟩
  cases ht : (Json.Encoding.detect body).decode? body with
  | none => exact ⟨_, .undecodable hblank ht⟩
  | some t =>
    have htext : HasText body t := ⟨hblank, ht⟩
    cases hvalue : Json.ofDecoded t with
    | ok value =>
      obtain ⟨v, hv⟩ := exists_computes limit value
      exact ⟨v, .decoded htext (Json.ofDecoded_eq_ok_iff.1 hvalue) hv⟩
    | error e =>
      obtain ⟨o, ho, -⟩ := Json.ofDecoded_eq_error_iff.1 hvalue
      cases o with
      | fault fault offset => exact ⟨_, .malformed htext ho⟩
      | integerTooLong digits => exact ⟨_, .integerTooLong htext ho⟩
      | tooDeep c =>
        obtain ⟨front, rest, rfl, hfront⟩ := Json.exists_prefix_of_meets_tooDeep ho
        exact ⟨_, .tooDeep htext hfront⟩

/-- The request that asks for the value of an expression. -/
def calculateRequest (query body : Bytes) : Request := ⟨"POST", "/api/calculate", query, body⟩

/-- The response to the request tells the verdict on its body. -/
theorem answer_of_decides {settings : Settings} {body : Bytes} {v : Verdict}
    (h : Decides settings.depth body v) (files : Files) (query : Bytes) :
    ((Service.ofSettings settings files).answer (calculateRequest query body)).1 = v.response := by
  have hroute : (Service.ofSettings settings files).route? (calculateRequest query body) =
      some (.endpoint .calculate) := Service.route?_of_fits _ rfl rfl
  rw [Service.answer, Service.outcome, hroute]
  dsimp only [Service.routeAnswer, Service.endpointAnswer]
  rw [← v.conclude_eq (calculateRequest query body), ← h.answer_eq]
  rfl

/-- **Every body of an expression is answered**: the response tells the one verdict that the stages
decide on, a finite value or the message of a rejection, in well-formed bytes that are read back as
what was told. -/
theorem calculate_decides (settings : Settings) (files : Files) (query body : Bytes) :
    ∃ v, Decides settings.depth body v ∧ (∀ w, Decides settings.depth body w → w = v) ∧
      v.IsFinite ∧
      let response :=
        ((Service.ofSettings settings files).answer (calculateRequest query body)).1
      response.status = v.status ∧ response.media = .json ∧
        Json.ofBytes response.body = .ok (.object v.members) ∧
        Utf8.decode? response.body = some ((Json.Value.object v.members).write Json.compact) := by
  obtain ⟨v, hv⟩ := exists_decides settings.depth body
  refine ⟨v, hv, fun w hw => hw.unique hv, hv.isFinite, ?_⟩
  dsimp only
  rw [answer_of_decides hv]
  exact ⟨rfl, rfl, Verdict.ofBytes_body hv.isFinite, Verdict.decode?_body hv.isWritable⟩

end Abacus
