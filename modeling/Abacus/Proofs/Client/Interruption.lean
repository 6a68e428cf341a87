import Mathlib
import Abacus.Proofs.Client.Batch

/-!
# Batches that are interrupted

A far end that sends back any bodies at all may stop a batch at each of its lines. What is left
behind are the records for the lines before, and the posts up to the line where it stopped.

* `Batch.Tells`, `Batch.Receives`, `Batch.Handles`: what an object says of a line, what becomes of
  a line whose post is answered, and what becomes of a line when bodies wait to be sent back;
* `Batch.Proceeds`, `Batch.Ends`: lines that all get a record, and how any lines end;
* `Batch.Handles.record_eq`, `Batch.Proceeds.run_append`, `Batch.Ends.run_eq`: one line, lines with
  lines after them, and all lines of a batch;
* `Client.Leaves`: what a batch leaves behind;
* `Client.sendFile_interrupted`: a batch from a file to a file.
-/

namespace Abacus

open Session (Event)

/-- The far end of a session sends back bodies one after another and takes every connection. -/
structure Session.Awaits (s : Session) (bodies : List Bytes) : Prop where
  peer : s.peer = .replies bodies
  refusals : s.refusals = 0

/-- A session after some events, with the same files. -/
structure Session.Passes (s : Session) (es : List Event) (s' : Session) : Prop where
  files_eq : s'.files = s.files
  events_eq : s'.events = s.events ++ es

namespace Session

variable {s s' s'' : Session} {es es' : List Event}

theorem Passes.refl (s : Session) : s.Passes [] s := ⟨rfl, (List.append_nil _).symm⟩

theorem Passes.trans (h : s.Passes es s') (h' : s'.Passes es' s'') : s.Passes (es ++ es') s'' :=
  ⟨h'.files_eq.trans h.files_eq, by rw [h'.events_eq, h.events_eq, List.append_assoc]⟩

theorem passes_record (s : Session) (records : List Log.Record) : s.Passes [] (s.record records) :=
  ⟨rfl, (List.append_nil _).symm⟩

/-- A call takes the next body, if there is one. -/
theorem Awaits.exchange_eq {bodies : List Bytes} (hs : s.Awaits bodies) (call : Call) :
    ∃ s', s.exchange call = (bodies.head?.map reply, s') ∧ s'.Awaits bodies.tail ∧
      s.Passes [.call call !bodies.isEmpty] s' := by
  rw [exchange, hs.refusals, if_neg (Nat.lt_irrefl 0), hs.peer]
  cases bodies with
  | nil => exact ⟨_, rfl, ⟨hs.peer, hs.refusals⟩, rfl, rfl⟩
  | cons body rest => exact ⟨_, rfl, ⟨rfl, hs.refusals⟩, rfl, rfl⟩

end Session

namespace Batch

/-- What an object that is sent back says of a line. A result goes before an error. -/
inductive Tells (members : Json.Members) : Text → Prop
  | result {v : Json.Value} (h : Json.Members.get? members "result" = some v) :
      Tells members ((" = " : Text) ++ v.plainText)
  | error {v : Json.Value} (hresult : Json.Members.get? members "result" = none)
      (h : Json.Members.get? members "error" = some v) :
      Tells members ((" -> ERROR: " : Text) ++ v.plainText)

/-- What becomes of a line when a body is sent back: its record or a failure. -/
inductive Receives (line : Text) (body : Bytes) : Except ClientError Text → Prop
  /-- The body is no JSON. -/
  | undecodable {e : Json.DecodeError} (h : Json.ofBytes body = .error e) :
      Receives line body (.error (.undecodable e))
  /-- The body is JSON of another type than an object. -/
  | notAnObject {reply : Json.Value} (h : Json.ofBytes body = .ok reply)
      (hreply : ∀ members, reply ≠ .object members) :
      Receives line body (.error (.notAnObject reply))
  /-- The body is an object with neither a result nor an error. -/
  | noError {members : Json.Members} (h : Json.ofBytes body = .ok (.object members))
      (hresult : Json.Members.get? members "result" = none)
      (herror : Json.Members.get? members "error" = none) :
      Receives line body (.error .noError)
  /-- The record has a surrogate. -/
  | unencodable {members : Json.Members} {t : Text}
      (h : Json.ofBytes body = .ok (.object members)) (ht : Tells members t)
      (hrecord : ¬ Text.Writable (line ++ t ++ ("\n" : Text))) :
      Receives line body (.error .unencodable)
  /-- The record is written. -/
  | record {members : Json.Members} {t : Text}
      (h : Json.ofBytes body = .ok (.object members)) (ht : Tells members t)
      (hrecord : Text.Writable (line ++ t ++ ("\n" : Text))) :
      Receives line body (.ok (line ++ t ++ ("\n" : Text)))

/-- What becomes of a line when bodies wait to be sent back, and the bodies that wait afterwards.
-/
inductive Handles (line : Text) :
    List Bytes → Except ClientError Text → List Bytes → Prop
  /-- The line is no JSON: it is not posted. -/
  | invalid {e : Json.DecodeError} (h : Json.ofText line = .error e) (bodies : List Bytes) :
      Handles line bodies
        (.ok (line ++ (" -> ERROR: Invalid JSON expression" : Text) ++ ("\n" : Text))) bodies
  /-- The line is posted, and the next body is sent back. -/
  | answered {v : Json.Value} (h : Json.ofText line = .ok v) {body : Bytes}
      {outcome : Except ClientError Text} (hbody : Receives line body outcome)
      (rest : List Bytes) : Handles line (body :: rest) outcome rest
  /-- The line is posted, and there are no more bodies. -/
  | unreachable {v : Json.Value} (h : Json.ofText line = .ok v) :
      Handles line [] (.error .unreachable) []

/-- Lines that all get a record, and the bodies that wait afterwards. -/
inductive Proceeds : List Text → List Bytes → List Text → List Bytes → Prop
  | nil (bodies : List Bytes) : Proceeds [] bodies [] bodies
  | cons {line record : Text} {lines records : List Text} {bodies rest bodies' : List Bytes}
      (hline : Handles line bodies (.ok record) rest)
      (hlines : Proceeds lines rest records bodies') :
      Proceeds (line :: lines) bodies (record :: records) bodies'

/-- The posts of lines, one for each that is JSON, in order; `reached` says whether the far end took
them. -/
def posts (url : Url) (reached : Bool) (lines : List Text) : List Event :=
  (lines.filter isValid).map fun line =>
    .call (Question.calculation url (Utf8.encodeLone line)) reached

/-- How lines end when bodies wait to be sent back: the failure, if one of them fails, the records,
and the posts. -/
inductive Ends (url : Url) (lines : List Text) (bodies : List Bytes) :
    Option ClientError → List Text → List Event → Prop
  /-- All lines get a record. -/
  | finished {records : List Text} {rest : List Bytes} (h : Proceeds lines bodies records rest) :
      Ends url lines bodies none records (posts url true lines)
  /-- The lines before some line get a record, and that line fails. -/
  | interrupted {before after : List Text} {line : Text} (hlines : lines = before ++ line :: after)
      {records : List Text} {rest : List Bytes} (hbefore : Proceeds before bodies records rest)
      {e : ClientError} {rest' : List Bytes} (hline : Handles line rest (.error e) rest') :
      Ends url lines bodies (some e) records
        (posts url true before ++ posts url (!rest.isEmpty) [line])

variable {url : Url} {line : Text} {bodies rest : List Bytes} {s : Session}

/-! ## One line -/

theorem isValid_eq_true_iff : isValid line = true ↔ ∃ v, Json.ofText line = .ok v := by
  cases h : Json.ofText line with
  | error e => simp [isValid, h, Except.toOption]
  | ok v => simp [isValid, h, Except.toOption]

theorem isValid_eq_false_iff : isValid line = false ↔ ∃ e, Json.ofText line = .error e := by
  cases h : Json.ofText line with
  | error e => simp [isValid, h, Except.toOption]
  | ok v => simp [isValid, h, Except.toOption]

theorem Tells.outcome_eq {members : Json.Members} {t : Text} (h : Tells members t) :
    outcome (.object members) = .ok t := by
  cases h with
  | result h => rw [outcome, h]
  | error hresult h => rw [outcome, hresult, h]

/-- An object says something unless it has neither a result nor an error. -/
theorem exists_tells_or (members : Json.Members) :
    (∃ t, Tells members t) ∨
      Json.Members.get? members "result" = none ∧ Json.Members.get? members "error" = none := by
  cases hresult : Json.Members.get? members "result" with
  | some v => exact .inl ⟨_, .result hresult⟩
  | none =>
    cases herror : Json.Members.get? members "error" with
    | some v => exact .inl ⟨_, .error hresult herror⟩
    | none => exact .inr ⟨rfl, rfl⟩

theorem exists_receives (line : Text) (body : Bytes) : ∃ outcome, Receives line body outcome := by
  cases h : Json.ofBytes body with
  | error e => exact ⟨_, .undecodable h⟩
  | ok reply =>
    by_cases hreply : ∃ members, reply = .object members
    · obtain ⟨members, rfl⟩ := hreply
      rcases exists_tells_or members with ⟨t, ht⟩ | ⟨hresult, herror⟩
      · by_cases hrecord : Text.Writable (line ++ t ++ ("\n" : Text))
        · exact ⟨_, .record h ht hrecord⟩
        · exact ⟨_, .unencodable h ht hrecord⟩
      · exact ⟨_, .noError h hresult herror⟩
    · exact ⟨_, .notAnObject h (not_exists.1 hreply)⟩

theorem exists_handles (line : Text) (bodies : List Bytes) :
    ∃ outcome rest, Handles line bodies outcome rest := by
  cases h : Json.ofText line with
  | error e => exact ⟨_, _, .invalid h bodies⟩
  | ok v =>
    cases bodies with
    | nil => exact ⟨_, _, .unreachable h⟩
    | cons body rest =>
      obtain ⟨outcome, hbody⟩ := exists_receives line body
      exact ⟨_, _, .answered h hbody rest⟩

theorem outcome_eq_notAnObject {reply : Json.Value} (h : ∀ members, reply ≠ .object members) :
    outcome reply = .error (.notAnObject reply) := by
  cases reply with
  | object members => exact absurd rfl (h members)
  | null | bool | int | float | text | array => rfl

theorem replyRecord_of_error {reply : Json.Value} {e : ClientError} (h : outcome reply = .error e) :
    replyRecord line reply = .error e := by
  rw [replyRecord, h]
  rfl

/-- **What becomes of a line is made of the body that is sent back.** -/
theorem Receives.bind_eq {body : Bytes} {outcome : Except ClientError Text}
    (h : Receives line body outcome) :
    ((Json.ofBytes body).mapError ClientError.undecodable).bind (replyRecord line) = outcome := by
  cases h with
  | undecodable h =>
    rw [h]
    rfl
  | notAnObject h hreply =>
    rw [h]
    exact replyRecord_of_error (outcome_eq_notAnObject hreply)
  | noError h hresult herror =>
    rw [h]
    refine replyRecord_of_error ?_
    rw [Batch.outcome, hresult, herror]
  | unencodable h ht hrecord =>
    rw [h]
    exact (replyRecord_of_outcome ht.outcome_eq).trans (if_pos (Text.any_eq_true_iff.2 hrecord))
  | record h ht hrecord =>
    rw [h]
    exact replyRecord_of_writable ht.outcome_eq hrecord

theorem posts_of_ok {v : Json.Value} (h : Json.ofText line = .ok v) (url : Url) (reached : Bool) :
    posts url reached [line] =
      [.call (Question.calculation url (Utf8.encodeLone line)) reached] := by
  rw [posts, List.filter_singleton, isValid_eq_true_iff.2 ⟨_, h⟩]
  rfl

theorem posts_of_error {e : Json.DecodeError} (h : Json.ofText line = .error e) (url : Url)
    (reached : Bool) : posts url reached [line] = [] := by
  rw [posts, List.filter_singleton, isValid_eq_false_iff.2 ⟨_, h⟩]
  rfl

/-- **The record for a line, or its failure, is what the line and the next body make it**, and the
line is posted once if it is JSON. -/
theorem Handles.record_eq {outcome : Except ClientError Text}
    (h : Handles line bodies outcome rest) (hs : s.Awaits bodies) (url : Url) (number : ℕ) :
    ∃ s', record url number line s = (outcome, s') ∧ s'.Awaits rest ∧
      s.Passes (posts url (!bodies.isEmpty) [line]) s' := by
  obtain ⟨s', hexchange, hs', hpasses⟩ :=
    hs.exchange_eq (Question.calculation url (Utf8.encodeLone line))
  cases h with
  | invalid h =>
    rw [record, isValid_eq_false_iff.2 ⟨_, h⟩, posts_of_error h]
    exact ⟨_, rfl, ⟨hs.peer, hs.refusals⟩, Session.passes_record _ _⟩
  | answered h hbody =>
    rw [record, isValid_eq_true_iff.2 ⟨_, h⟩, if_pos rfl, Client.send, hexchange, posts_of_ok h]
    exact ⟨s', Prod.ext hbody.bind_eq rfl, hs', hpasses⟩
  | unreachable h =>
    rw [record, isValid_eq_true_iff.2 ⟨_, h⟩, if_pos rfl, Client.send, hexchange, posts_of_ok h]
    exact ⟨s', rfl, hs', hpasses⟩

/-- The post of a line that gets a record reaches the far end. -/
theorem Handles.posts_eq {record : Text} (h : Handles line bodies (.ok record) rest) (url : Url) :
    posts url (!bodies.isEmpty) [line] = posts url true [line] := by
  cases h with
  | invalid h => rw [posts_of_error h, posts_of_error h]
  | answered h _ => rfl

/-- The record for a line that can be written can be written. -/
theorem Handles.writable {record : Text} (hline : line.Writable)
    (h : Handles line bodies (.ok record) rest) : record.Writable := by
  cases h with
  | invalid h =>
    exact (hline.append (Text.writable_ofString _)).append (Text.writable_ofString _)
  | answered h hbody =>
    cases hbody with
    | record _ _ hrecord => exact hrecord

/-! ## All lines -/

variable {lines records : List Text}

theorem posts_cons (url : Url) (reached : Bool) (line : Text) (lines : List Text) :
    posts url reached (line :: lines) = posts url reached [line] ++ posts url reached lines := by
  rw [← List.singleton_append, posts, List.filter_append, List.map_append]
  rfl

theorem Proceeds.writable (h : Proceeds lines bodies records rest)
    (hlines : ∀ line ∈ lines, Text.Writable line) : Text.Writable records.flatten := by
  induction h with
  | nil => exact Text.writable_nil
  | cons hline _ ih =>
    rw [List.flatten_cons]
    exact (hline.writable (hlines _ List.mem_cons_self)).append
      (ih fun line hline => hlines line (List.mem_cons_of_mem _ hline))

/-- What became of lines, with the records for lines before them. -/
def Progress.after (records : List Text) (p : Progress) : Progress :=
  { p with records := records ++ p.records }

/-- **Lines that all get a record do not end a batch**: it goes on with the lines after them. -/
theorem Proceeds.run_append (h : Proceeds lines bodies records rest) (hs : s.Awaits bodies)
    (url : Url) (number : ℕ) (more : List Text) :
    ∃ s', s'.Awaits rest ∧ s.Passes (posts url true lines) s' ∧
      run url number (lines ++ more) s =
        (run url (number + lines.length) more s').after records := by
  induction h generalizing number s with
  | nil => exact ⟨s, hs, .refl s, rfl⟩
  | @cons line record lines records bodies _ _ hline _ ih =>
    obtain ⟨s₁, hrecord, hs₁, hpasses₁⟩ := hline.record_eq hs url number
    rw [hline.posts_eq] at hpasses₁
    obtain ⟨s₂, hs₂, hpasses₂, hrun⟩ := ih hs₁ (number + 1)
    refine ⟨s₂, hs₂, ?_, ?_⟩
    · rw [posts_cons]
      exact hpasses₁.trans hpasses₂
    · rw [List.cons_append, run, hrecord]
      dsimp only
      rw [hrun, List.length_cons, Nat.add_assoc, Nat.add_comm 1]
      rfl

/-- **Lines end**, whatever is sent back. -/
theorem exists_ends (url : Url) (lines : List Text) (bodies : List Bytes) :
    ∃ failure records es, Ends url lines bodies failure records es := by
  induction lines generalizing bodies with
  | nil => exact ⟨_, _, _, .finished (.nil bodies)⟩
  | cons line lines ih =>
    obtain ⟨outcome, rest, hline⟩ := exists_handles line bodies
    cases outcome with
    | error e => exact ⟨_, _, _, .interrupted (List.nil_append _).symm (.nil bodies) hline⟩
    | ok record =>
      obtain ⟨_, _, _, hends⟩ := ih rest
      cases hends with
      | finished hlines => exact ⟨_, _, _, .finished (.cons hline hlines)⟩
      | interrupted hlines hbefore hlast =>
        exact ⟨_, _, _, .interrupted (congrArg (line :: ·) hlines) (.cons hline hbefore) hlast⟩

/-- The records can be written if the lines can. -/
theorem Ends.writable {failure : Option ClientError} {es : List Event}
    (h : Ends url lines bodies failure records es) (hlines : ∀ line ∈ lines, Text.Writable line) :
    Text.Writable records.flatten := by
  cases h with
  | finished h => exact h.writable hlines
  | interrupted heq hbefore _ =>
    refine hbefore.writable fun line hline => hlines line ?_
    rw [heq]
    exact List.mem_append_left _ hline

/-- **What becomes of lines is how they end.** -/
theorem Ends.run_eq {failure : Option ClientError} {es : List Event}
    (h : Ends url lines bodies failure records es) (hs : s.Awaits bodies) (number : ℕ) :
    ∃ s', run url number lines s = ⟨records, failure, s'⟩ ∧ s.Passes es s' := by
  cases h with
  | finished h =>
    obtain ⟨s', -, hpasses, hrun⟩ := h.run_append hs url number []
    refine ⟨s', ?_, hpasses⟩
    rw [List.append_nil] at hrun
    rw [hrun, run, Progress.after, List.append_nil]
  | interrupted heq hbefore hline =>
    obtain ⟨s₁, hs₁, hpasses₁, hrun⟩ := hbefore.run_append hs url number _
    obtain ⟨s₂, hrecord, -, hpasses₂⟩ := hline.record_eq hs₁ url (number + _)
    refine ⟨s₂, ?_, hpasses₁.trans hpasses₂⟩
    rw [heq, hrun, run, hrecord, Progress.after, List.append_nil]

end Batch

namespace Client

/-- What a batch leaves behind: a file with records at a place, and events. -/
structure Leaves (s : Session) (place : Place) (records : List Text) (es : List Event)
    (s' : Session) : Prop where
  files_eq : s'.files = s.files.write place records.flatten
  content_eq : s'.files.content? place = some (.bytes (Utf8.encodeLone records.flatten))
  decode_eq : Utf8.decode? (Utf8.encodeLone records.flatten) = some records.flatten
  events_eq : s'.events = s.events ++ es

variable {s s' : Session} {place : Place} {lines records : List Text} {es : List Event}

theorem Leaves.record (h : Leaves s place records es s') (log : List Log.Record) :
    Leaves s place records es (s'.record log) :=
  ⟨h.files_eq, h.content_eq, h.decode_eq, h.events_eq⟩

/-- Records that can be written are left at a place that is not the root. -/
theorem leaves_write (h : s.Passes es s') (hplace : place ≠ [])
    (hrecords : Text.Writable records.flatten) :
    Leaves s place records es { s' with files := s'.files.write place records.flatten } :=
  ⟨congrArg (Files.write · _ _) h.files_eq, Files.content?_write _ hplace _,
    Utf8.decode?_encodeLone hrecords, h.events_eq⟩

/-- The failure of a line is the failure of the batch. -/
theorem sendLines_of_failure {url : Url} {e : ClientError}
    (h : Batch.run url 1 lines s = ⟨records, some e, s'⟩) (output : Path) (place : Place) :
    sendLines url lines output place s =
      (.error e, { s' with files := s'.files.write place records.flatten }) := by
  rw [sendLines, h]

/-- **Lines that are sent leave the finished ones behind.** -/
theorem sendLines_leaves {url : Url} {bodies : List Bytes} {failure : Option ClientError}
    (h : Batch.Ends url lines bodies failure records es) (hs : s.Awaits bodies)
    (hlines : ∀ line ∈ lines, Text.Writable line) (hplace : place ≠ []) (output : Path) :
    (sendLines url lines output place s).1 = failure.elim (.ok lines.length) .error ∧
      Leaves s place records es (sendLines url lines output place s).2 := by
  obtain ⟨s', hrun, hpasses⟩ := h.run_eq hs 1
  have hleaves := leaves_write hpasses hplace (h.writable hlines)
  cases failure with
  | none =>
    rw [sendLines_of_run hrun]
    exact ⟨rfl, hleaves.record _⟩
  | some e =>
    rw [sendLines_of_failure hrun]
    exact ⟨rfl, hleaves⟩

/-- **A batch that is interrupted leaves the finished lines behind.** If its text cannot be had,
nothing happens at all; if the address or the output cannot be used, nothing is posted. Otherwise
the lines end in one way, whatever is sent back. If there is a first line that fails, its failure is
that of the batch; the output holds the records for the lines before it and nothing else; and one
post was sent for each line up to it that is JSON, in order, with the UTF-8 bytes of the line. If no
line fails, the output holds a record for each, and the lines are counted. -/
theorem sendFile_interrupted (c : Client) (input output : Path) (s : Session) :
    (∀ e, Batch.content s.files input = .error e → c.sendFile input output s = (.error e, s)) ∧
      ∀ text, Batch.content s.files input = .ok text →
        (∀ e, Url.ofText c.address = .error e →
          c.sendFile input output s = (.error (.ofTargetError e), s)) ∧
        ∀ url, Url.ofText c.address = .ok url →
          (∀ e, s.files.target output = .error e →
            c.sendFile input output s = (.error (.access e), s.note (.connect c.address))) ∧
          ∀ place, s.files.target output = .ok place → ∀ bodies, s.Awaits bodies →
            (∀ line ∈ text.entries, Utf8.encode? line = some (Utf8.encodeLone line)) ∧
            (∃ failure records es, Batch.Ends url text.entries bodies failure records es) ∧
            ∀ failure records es, Batch.Ends url text.entries bodies failure records es →
              (c.sendFile input output s).1 =
                failure.elim (.ok text.entries.length) .error ∧
              Leaves s place records (.connect c.address :: es)
                (c.sendFile input output s).2 := by
  refine ⟨fun e he => by rw [sendFile, he], fun text htext => ⟨fun e he => ?_, fun url hurl => ?_⟩⟩
  · rw [sendFile, htext, connect, he]
  have hconnect : c.connect s = .ok (url, s.note (.connect c.address)) := by
    rw [connect, hurl]
  refine ⟨fun e he => ?_, fun place hplace bodies hs => ?_⟩
  · have htarget : (s.note (.connect c.address)).files.target output = .error e := he
    rw [sendFile, htext]
    dsimp only
    rw [hconnect]
    dsimp only
    rw [htarget]
  have hlines : ∀ line ∈ text.entries, Text.Writable line := fun line hline =>
    Text.writable_of_mem_entries (Batch.writable_content htext) hline
  have hawaits : (s.note (.connect c.address)).Awaits bodies := ⟨hs.peer, hs.refusals⟩
  refine ⟨fun line hline => Utf8.encode?_eq_some (hlines line hline),
    Batch.exists_ends _ _ _, fun failure records es hends => ?_⟩
  rw [sendFile_eq_sendLines htext hconnect hplace]
  obtain ⟨hanswer, hleaves⟩ :=
    sendLines_leaves hends hawaits hlines (Files.target_ne_nil hplace) output
  exact ⟨hanswer, hleaves.files_eq, hleaves.content_eq, hleaves.decode_eq,
    hleaves.events_eq.trans (List.append_assoc _ _ _)⟩

/-- The second line that is posted gets an array back. -/
theorem sendFile_interrupted_array :
    let files : Files :=
      ⟨[], [([("in.txt" : Text)], .file (.bytes (Utf8.encodeLone "1\nx\n2\n3\n")))]⟩
    let s := Session.fresh files
      (.replies [Utf8.encodeLone "\x7b\"result\":5\x7d", Utf8.encodeLone "[]"]) 0
    (standard.sendFile (Path.ofText "in.txt") (Path.ofText "out.txt") s).1 =
        .error (.notAnObject (.array [])) ∧
      (standard.sendFile (Path.ofText "in.txt") (Path.ofText "out.txt") s).2.files.content?
          [("out.txt" : Text)] =
        some (.bytes (Utf8.encodeLone "1 = 5\nx -> ERROR: Invalid JSON expression\n")) ∧
      (standard.sendFile (Path.ofText "in.txt") (Path.ofText "out.txt") s).2.events =
        [.connect "http://127.0.0.1:3000",
          .call ⟨"POST", "/api/calculate", Utf8.encodeLone "1"⟩ true,
          .call ⟨"POST", "/api/calculate", Utf8.encodeLone "2"⟩ true] := by
  intro files s
  have hread : files.readText (Path.ofText "in.txt") = .ok ("1\nx\n2\n3\n" : Text) := by
    decide +kernel
  have htext : Batch.content files (Path.ofText "in.txt") = .ok ("1\nx\n2\n3\n" : Text) := by
    rw [Batch.content, if_pos (by decide), hread]
    rfl
  have hplace : files.target (Path.ofText "out.txt") = .ok [("out.txt" : Text)] := by
    decide +kernel
  have hfirst : Json.ofBytes (Utf8.encodeLone "\x7b\"result\":5\x7d") =
      .ok (.object [("result", .int 5)]) := by
    have hreadable : (Json.Value.object [("result", .int 5)]).Readable Json.nestingLimit := by
      refine .object (by decide) fun m hm => ?_
      rw [List.mem_singleton.1 hm]
      exact .int (by decide)
    have hwrite : (Json.Value.object [("result", .int 5)]).write Json.compact =
        "\x7b\"result\":5\x7d" := by decide +kernel
    exact hwrite ▸ Json.ofBytes_write hreadable
  have hsecond : Json.ofBytes (Utf8.encodeLone "[]") = .ok (.array []) := by
    have hwrite : (Json.Value.array []).write Json.compact = "[]" := by decide +kernel
    exact hwrite ▸ Json.ofBytes_write (.array fun _ h => absurd h List.not_mem_nil)
  obtain ⟨_, hone⟩ := Batch.isValid_eq_true_iff.1 (by decide +kernel : Batch.isValid "1" = true)
  obtain ⟨_, hx⟩ := Batch.isValid_eq_false_iff.1 (by decide +kernel : Batch.isValid "x" = false)
  obtain ⟨_, htwo⟩ := Batch.isValid_eq_true_iff.1 (by decide +kernel : Batch.isValid "2" = true)
  have hlines : Text.entries "1\nx\n2\n3\n" = [("1" : Text), "x"] ++ ("2" : Text) :: ["3"] := by
    decide +kernel
  have hrecord : Text.Writable (("1" : Text) ++ (" = 5" : Text) ++ ("\n" : Text)) :=
    ((Text.writable_ofString _).append (Text.writable_ofString _)).append (Text.writable_ofString _)
  have hbefore := Batch.Proceeds.cons
    (.answered hone (.record hfirst (.result rfl) hrecord) [Utf8.encodeLone "[]"])
    (.cons (.invalid hx _) (.nil _))
  have hline := Batch.Handles.answered htwo (.notAnObject hsecond nofun) []
  have hurl := @Url.ofText_address standard 0x7F000001 rfl (by decide)
  obtain ⟨-, h⟩ := sendFile_interrupted standard (Path.ofText "in.txt") (Path.ofText "out.txt") s
  obtain ⟨-, -, h⟩ := ((h _ htext).2 _ hurl).2 _ hplace _ ⟨rfl, rfl⟩
  obtain ⟨hanswer, hleaves⟩ := h _ _ _ (.interrupted hlines hbefore hline)
  refine ⟨hanswer, hleaves.content_eq.trans ?_, hleaves.events_eq.trans ?_⟩
  · refine congrArg (fun t => some (Content.bytes (Utf8.encodeLone t))) ?_
    decide +kernel
  · rw [Batch.posts_cons, Batch.posts_of_ok hone, Batch.posts_of_error hx, Batch.posts_of_ok htwo]
    rfl

end Client

end Abacus
