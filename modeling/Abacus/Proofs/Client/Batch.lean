import Mathlib
import Abacus.Client.Batch
import Abacus.Proofs.Client.Calculate
import Abacus.Proofs.Files

/-!
# Batches are evaluated as if in place

What a client writes about the lines of a batch that it sends to a service is what it would write if
it evaluated them itself.

* `LocalRecord`: the record for a line that is evaluated in place;
* `Batch.record_eq`, `Batch.run_eq`: the record for one line, and those for all of them;
* `Client.sendFile_refines`: a batch from a file to a file.
-/

namespace Abacus

/-- The record for a line, if its expression is evaluated in place under a limit on the nesting of
operations. -/
inductive LocalRecord (limit : ℤ) (line : Text) : Text → Prop
  /-- The line is no JSON. -/
  | invalid {e : Json.DecodeError} (h : Json.ofText line = .error e) :
      LocalRecord limit line
        (line ++ (" -> ERROR: Invalid JSON expression" : Text) ++ ("\n" : Text))
  /-- The expression has a finite value. -/
  | value {v : Json.Value} {x : Float} (h : Json.ofText line = .ok v)
      (hv : Computes limit v (.value x)) :
      LocalRecord limit line (line ++ (" = " : Text) ++ Number.text x ++ ("\n" : Text))
  /-- The expression is rejected. -/
  | rejected {v : Json.Value} {r : Rejection} (h : Json.ofText line = .ok v)
      (hv : Computes limit v (.rejection r)) :
      LocalRecord limit line (line ++ (" -> ERROR: " : Text) ++ r.message ++ ("\n" : Text))

namespace LocalRecord

variable {limit : ℤ} {line t u : Text}

theorem unique (ht : LocalRecord limit line t) (hu : LocalRecord limit line u) : t = u := by
  cases ht with
  | invalid h =>
    cases hu with
    | invalid _ => rfl
    | value h' _ => cases h.symm.trans h'
    | rejected h' _ => cases h.symm.trans h'
  | value h hv =>
    cases hu with
    | invalid h' => cases h.symm.trans h'
    | value h' hv' =>
      cases h.symm.trans h'
      cases hv.unique hv'
      rfl
    | rejected h' hv' =>
      cases h.symm.trans h'
      cases hv.unique hv'
  | rejected h hv =>
    cases hu with
    | invalid h' => cases h.symm.trans h'
    | value h' hv' =>
      cases h.symm.trans h'
      cases hv.unique hv'
    | rejected h' hv' =>
      cases h.symm.trans h'
      cases hv.unique hv'
      rfl

/-- The record for a line that can be written can be written. -/
theorem writable (hline : line.Writable) (h : LocalRecord limit line t) : t.Writable := by
  cases h with
  | invalid h =>
    exact (hline.append (Text.writable_ofString _)).append (Text.writable_ofString _)
  | value h hv =>
    exact ((hline.append (Text.writable_ofString _)).append (Number.writable_text _)).append
      (Text.writable_ofString _)
  | rejected h hv =>
    exact ((hline.append (Text.writable_ofString _)).append hv.writable).append
      (Text.writable_ofString _)

end LocalRecord

/-! ## One line -/

namespace Batch

variable {limit : ℤ} {line : Text} {settings : Settings} {s : Session}

/-- A line with a value leads the service to the verdict on that value. -/
theorem decides_of_computes {v : Json.Value} {verdict : Verdict} (h : Json.ofText line = .ok v)
    (hv : Computes limit v verdict) : Decides limit (Utf8.encodeLone line) verdict :=
  decides_of_ofBytes (Json.ofBytes_encodeLone (Json.ofDecoded_of_ofText h)) hv

/-- What a record says of a verdict. -/
def said : Verdict → Text
  | .value x => (" = " : Text) ++ Number.text x
  | .rejection r => (" -> ERROR: " : Text) ++ r.message

theorem outcome_members (verdict : Verdict) :
    outcome (.object verdict.members) = .ok (said verdict) := by
  cases verdict <;> rfl

theorem localRecord_said {v : Json.Value} {verdict : Verdict} (h : Json.ofText line = .ok v)
    (hv : Computes limit v verdict) : LocalRecord limit line (format line (said verdict)) := by
  cases verdict with
  | value x =>
    rw [format, said, ← List.append_assoc line]
    exact .value h hv
  | rejection r =>
    rw [format, said, ← List.append_assoc line]
    exact .rejected h hv

/-- A reply that says something is recorded, unless the record has a surrogate. -/
theorem replyRecord_of_outcome {reply : Json.Value} {t : Text} (h : outcome reply = .ok t) :
    replyRecord line reply =
      if (format line t).any CodePoint.isSurrogate then .error .unencodable
      else .ok (format line t) := by
  rw [replyRecord, h]
  rfl

/-- A reply that says something is recorded if the record can be written. -/
theorem replyRecord_of_writable {reply : Json.Value} {t : Text} (h : outcome reply = .ok t)
    (ht : (format line t).Writable) : replyRecord line reply = .ok (format line t) := by
  rw [replyRecord_of_outcome h, ht.any_eq_false, if_neg Bool.false_ne_true]

/-- A reply that tells a verdict is recorded if the record can be written. -/
theorem replyRecord_members {verdict : Verdict} (h : (format line (said verdict)).Writable) :
    replyRecord line (.object verdict.members) = .ok (format line (said verdict)) :=
  replyRecord_of_writable (outcome_members verdict) h

/-- Sending a line with a value to a service brings back the verdict on that value. -/
theorem send_eq (hs : s.Serves settings) {url : Url} (hurl : url.query = none) {v : Json.Value}
    {verdict : Verdict} (h : Json.ofText line = .ok v)
    (hv : Computes settings.depth v verdict) :
    ∃ s', Client.send (Question.calculation url (Utf8.encodeLone line)) s =
        (.ok (.object verdict.members), s') ∧ s'.Serves settings ∧ s'.files = s.files :=
  Client.send_calculation hs hurl (decides_of_computes h hv)

/-- **The record for a line that is sent to a service** is the one for the line evaluated in place.
-/
theorem record_eq (hs : s.Serves settings) {url : Url} (hurl : url.query = none)
    (hline : line.Writable) (number : ℕ) :
    ∃ t s', record url number line s = (.ok t, s') ∧ LocalRecord settings.depth line t ∧
      s'.Serves settings ∧ s'.files = s.files := by
  rw [record, isValid]
  cases h : Json.ofText line with
  | error e => exact ⟨_, _, rfl, .invalid h, ⟨hs.peer, hs.refusals⟩, rfl⟩
  | ok v =>
    obtain ⟨verdict, hv⟩ := exists_computes settings.depth v
    obtain ⟨s', hsend, hs', hfiles⟩ := send_eq hs hurl h hv
    have hrecord := localRecord_said h hv
    refine ⟨_, s', ?_, hrecord, hs', hfiles⟩
    rw [hsend, ← replyRecord_members (hrecord.writable hline)]
    rfl

/-! ## All lines -/

/-- **The records for lines that are sent to a service**, one for each in order. -/
theorem run_eq (hs : s.Serves settings) {url : Url} (hurl : url.query = none)
    {lines : List Text} (hlines : ∀ line ∈ lines, Text.Writable line) (number : ℕ) :
    ∃ records s', run url number lines s = ⟨records, none, s'⟩ ∧
      List.Forall₂ (LocalRecord settings.depth) lines records ∧ s'.files = s.files := by
  induction lines generalizing number s with
  | nil => exact ⟨[], s, rfl, .nil, rfl⟩
  | cons line lines ih =>
    obtain ⟨t, s₁, hfirst, hrecord, hs₁, hfiles₁⟩ :=
      record_eq hs hurl (hlines line List.mem_cons_self) number
    obtain ⟨records, s₂, hrest, hrecords, hfiles₂⟩ :=
      ih hs₁ (fun l hl => hlines l (List.mem_cons_of_mem _ hl)) (number + 1)
    refine ⟨t :: records, s₂, ?_, .cons hrecord hrecords, hfiles₂.trans hfiles₁⟩
    rw [run, hfirst]
    dsimp only
    rw [hrest]

/-- The lines have only one list of records. -/
theorem records_unique {lines records others : List Text}
    (h : List.Forall₂ (LocalRecord limit) lines records)
    (hothers : List.Forall₂ (LocalRecord limit) lines others) : others = records := by
  induction h generalizing others with
  | nil =>
    cases hothers
    rfl
  | cons hfirst _ ih =>
    cases hothers with
    | cons hfirst' hrest' => rw [hfirst'.unique hfirst, ih hrest']

/-- The records for lines that can be written can be written. -/
theorem writable_records {lines records : List Text}
    (h : List.Forall₂ (LocalRecord limit) lines records)
    (hlines : ∀ line ∈ lines, Text.Writable line) : Text.Writable records.flatten := by
  induction h with
  | nil => exact Text.writable_nil
  | cons hfirst _ ih =>
    rw [List.flatten_cons]
    exact (hfirst.writable (hlines _ List.mem_cons_self)).append
      (ih fun line hline => hlines line (List.mem_cons_of_mem _ hline))

/-- A line with a value is never taken for a body without one. -/
theorem answer_ne {v : Json.Value} (h : Json.ofText line = .ok v) (settings : Settings)
    (files : Files) : ∀ kind ∈ Rejection.unread,
      Json.ofBytes ((Service.ofSettings settings files).answer
          (calculateRequest [] (Utf8.encodeLone line))).1.body ≠
        .ok (.object (Verdict.rejection (Rejection.plain kind)).members) := by
  intro kind hkind
  obtain ⟨verdict, hv⟩ := exists_computes settings.depth v
  have hdecides := decides_of_computes h hv
  rw [answer_of_decides hdecides, Verdict.ofBytes_body hdecides.isFinite]
  intro heq
  have hmembers : verdict.members = (Verdict.rejection (Rejection.plain kind)).members :=
    Json.Value.object.inj (Except.ok.inj heq)
  cases verdict with
  | value x => cases congrArg List.length hmembers
  | rejection r =>
    simp only [Verdict.members, List.cons.injEq, Prod.mk.injEq, Json.Value.text.injEq, and_true,
      true_and] at hmembers
    exact hv.message_ne kind hkind hmembers

/-- **The text of a batch can be written.** -/
theorem writable_content {files : Files} {input : Path} {text : Text}
    (h : content files input = .ok text) : text.Writable := by
  rw [content] at h
  split_ifs at h
  · exact Files.writable_readText (mapError_eq_ok_iff.1 h)
  · exact Unpacking.writable_unpack (mapError_eq_ok_iff.1 h)

end Batch

namespace Client

/-- The lines of a file are sent once its text, the connections and the output are there. -/
theorem sendFile_eq_sendLines {c : Client} {s s' : Session} {input output : Path} {text : Text}
    (htext : Batch.content s.files input = .ok text) {url : Url}
    (hconnect : c.connect s = .ok (url, s')) {place : Place}
    (hplace : s'.files.target output = .ok place) :
    c.sendFile input output s = sendLines url text.entries output place s' := by
  rw [sendFile, htext]
  dsimp only
  rw [hconnect]
  dsimp only
  rw [hplace]

/-- Lines that all get a record are counted. -/
theorem sendLines_of_run {url : Url} {lines records : List Text} {s s' : Session}
    (h : Batch.run url 1 lines s = ⟨records, none, s'⟩) (output : Path) (place : Place) :
    sendLines url lines output place s =
      (.ok lines.length,
        ({ s' with files := s'.files.write place records.flatten }).record
          [Batch.sent lines.length output]) := by
  rw [sendLines, h]

/-- **A batch over a service is what it would be in place.** A client whose host is a short address
writes one record for each entry of the text in order, the one for the entry evaluated in place, and
nothing else; it counts the entries, and the service takes none of those that are JSON for a body
without a value. -/
theorem sendFile_refines {c : Client} {bits : BitVec 32} (hhost : c.host = .v4 bits)
    (hport : c.port ≤ 65535) {settings : Settings} {s : Session} (hs : s.Serves settings)
    {input output : Path} {text : Text} (htext : Batch.content s.files input = .ok text)
    {place : Place} (hplace : s.files.target output = .ok place) :
    ∃ records, List.Forall₂ (LocalRecord settings.depth) text.entries records ∧
      (∀ others, List.Forall₂ (LocalRecord settings.depth) text.entries others →
        others = records) ∧
      (c.sendFile input output s).1 = .ok text.entries.length ∧
      (c.sendFile input output s).2.files = s.files.write place records.flatten ∧
      (c.sendFile input output s).2.files.content? place =
        some (.bytes (Utf8.encodeLone records.flatten)) ∧
      Utf8.decode? (Utf8.encodeLone records.flatten) = some records.flatten ∧
      ∀ line ∈ text.entries, ∀ v, Json.ofText line = .ok v → ∀ kind ∈ Rejection.unread,
        Json.ofBytes ((Service.ofSettings settings s.files).answer
            (calculateRequest [] (Utf8.encodeLone line))).1.body ≠
          .ok (.object (Verdict.rejection (Rejection.plain kind)).members) := by
  have hlines : ∀ line ∈ text.entries, Text.Writable line := fun line hline =>
    Text.writable_of_mem_entries (Batch.writable_content htext) hline
  obtain ⟨url, hconnect, hurl⟩ := exists_connect hhost hport s
  have hnoted : (s.note (.connect c.address)).Serves settings := ⟨hs.peer, hs.refusals⟩
  obtain ⟨records, s', hrun, hrecords, hfiles⟩ := Batch.run_eq hnoted hurl hlines 1
  have hsend := (sendFile_eq_sendLines htext hconnect hplace).trans
    (sendLines_of_run hrun output place)
  have hwritten : (c.sendFile input output s).2.files = s.files.write place records.flatten := by
    rw [hsend]
    exact congrArg (fun f => Files.write f place records.flatten) hfiles
  refine ⟨records, hrecords, fun others hothers => Batch.records_unique hrecords hothers, ?_,
    hwritten, ?_, ?_, fun line _ v hv => Batch.answer_ne hv settings s.files⟩
  · rw [hsend]
  · rw [hwritten]
    exact Files.content?_write s.files (Files.target_ne_nil hplace) _
  · exact Utf8.decode?_encodeLone (Batch.writable_records hrecords hlines)

/-- A batch with a number, a blank line and a line that is no JSON. -/
theorem sendFile_refines_two_entries :
    let files : Files :=
      ⟨[], [([("in.txt" : Text)], .file (.bytes (Utf8.encodeLone "1\n\n[1,\n")))]⟩
    let s := Session.fresh files (.service .standard) 0
    s.Serves .standard ∧
      Batch.content files (Path.ofText "in.txt") = .ok ("1\n\n[1,\n" : Text) ∧
      files.target (Path.ofText "out.txt") = .ok [("out.txt" : Text)] ∧
      (standard.sendFile (Path.ofText "in.txt") (Path.ofText "out.txt") s).1 = .ok 2 := by
  intro files s
  have hs : s.Serves .standard := ⟨rfl, rfl⟩
  have hread : files.readText (Path.ofText "in.txt") = .ok ("1\n\n[1,\n" : Text) := by
    decide +kernel
  have htext : Batch.content files (Path.ofText "in.txt") = .ok ("1\n\n[1,\n" : Text) := by
    rw [Batch.content, if_pos (by decide), hread]
    rfl
  have hplace : files.target (Path.ofText "out.txt") = .ok [("out.txt" : Text)] := by
    decide +kernel
  have hentries : Text.entries "1\n\n[1,\n" = [("1" : Text), "[1,"] := by decide +kernel
  obtain ⟨records, -, -, hcount, -⟩ :=
    @sendFile_refines standard 0x7F000001 rfl (by decide) _ s hs _ _ _ htext _ hplace
  rw [hentries] at hcount
  exact ⟨hs, htext, hplace, hcount⟩

end Client

end Abacus
