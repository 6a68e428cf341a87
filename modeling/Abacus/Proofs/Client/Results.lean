import Mathlib
import Abacus.Proofs.Client.Interruption
import Abacus.Proofs.Service.Message
import Abacus.Proofs.Text.Line

/-!
# Results stay on their lines

The results of a batch have one line for each entry, whatever the entries hold and wherever the
service sends the posts of a client: what is quoted in a message cannot end a line.

* `IsResult`: the line about an entry; `IsResult.singleLine`, `IsResult.writable`: it is one line
  that can be written; `IsResult.lines_flatten_eq`: so are those about several entries;
* `Service.reply_cases`: what a posted expression brings back;
* `Batch.record_concludes`, `Batch.run_concludes`: one entry, and all of them up to a failure;
* `Batch.run_posts`: the posts of the entries;
* `Client.sendFile_lines`: the file of results.
-/

namespace Abacus

/-- The line about an entry in the results, without its end. -/
inductive IsResult (service : Service) (entry : Text) : Text → Prop
  /-- The entry is no JSON. -/
  | invalid {e : Json.DecodeError} (h : Json.ofText entry = .error e) :
      IsResult service entry (entry ++ (" -> ERROR: Invalid JSON expression" : Text))
  /-- The expression has a finite value. -/
  | value {v : Json.Value} {x : Float} (h : Json.ofText entry = .ok v)
      (hv : Computes service.settings.depth v (.value x)) (hx : x.isFinite = true) :
      IsResult service entry (entry ++ ((" = " : Text) ++ Number.text x))
  /-- The service tells a message about the post of the entry. -/
  | failure {v : Json.Value} {url : Url} {i : Interruption} (h : Json.ofText entry = .ok v)
      (hi : service.outcome (Question.calculation url (Utf8.encodeLone entry)).request = .error i) :
      IsResult service entry (entry ++ ((" -> ERROR: " : Text) ++ i.told.2))

namespace IsResult

variable {settings : Settings} {files : Files} {entry t : Text}

/-- What a line about an entry adds to it is printable. -/
theorem exists_printable (h : IsResult (Service.ofSettings settings files) entry t) :
    ∃ u, u.Printable ∧ t = entry ++ u := by
  cases h with
  | invalid h => exact ⟨_, Text.printable_ofString _, rfl⟩
  | value h hv hx =>
    exact ⟨_, (Text.printable_ofString _).append (Number.printable_text _), rfl⟩
  | failure h hi =>
    exact ⟨_, (Text.printable_ofString _).append (Service.isPrintable hi).printable, rfl⟩

/-- **A line about an entry on one line is one line.** -/
theorem singleLine (hentry : entry.SingleLine)
    (h : IsResult (Service.ofSettings settings files) entry t) : t.SingleLine := by
  obtain ⟨u, hu, rfl⟩ := h.exists_printable
  exact hentry.append hu.singleLine

theorem writable (hentry : entry.Writable)
    (h : IsResult (Service.ofSettings settings files) entry t) : t.Writable := by
  obtain ⟨u, hu, rfl⟩ := h.exists_printable
  exact hentry.append hu.writable

/-- **The lines about entries on one line each**, put one after the other, can be written and are
cut apart again. -/
theorem lines_flatten_eq {entries results : List Text}
    (h : List.Forall₂ (IsResult (Service.ofSettings settings files)) entries results)
    (hsingle : ∀ entry ∈ entries, Text.SingleLine entry)
    (hwritable : ∀ entry ∈ entries, Text.Writable entry) :
    Text.Writable (results.map (· ++ ("\n" : Text))).flatten ∧
      Text.lines (results.map (· ++ ("\n" : Text))).flatten = results := by
  constructor
  · intro x hx
    obtain ⟨_, hmem, hx⟩ := List.mem_flatten.1 hx
    obtain ⟨t, ht, rfl⟩ := List.mem_map.1 hmem
    obtain ⟨entry, hentry, hresult⟩ := exists_of_mem_right h ht
    exact ((hresult.writable (hwritable entry hentry)).append (Text.writable_ofString _)) x hx
  · refine Text.lines_flatten fun t ht => ?_
    obtain ⟨entry, hentry, hresult⟩ := exists_of_mem_right h ht
    exact hresult.singleLine (hsingle entry hentry)

end IsResult

/-- How an entry ends: with its line in the results, or with a reply that is no JSON. -/
inductive Concludes (service : Service) (entry : Text) : Except ClientError Text → Prop
  | result {t : Text} (h : IsResult service entry t) :
      Concludes service entry (.ok (t ++ ("\n" : Text)))
  | undecodable (e : Json.DecodeError) : Concludes service entry (.error (.undecodable e))

/-- **What a posted expression brings back**: its value, nothing, or the message of an interruption.
-/
theorem Service.reply_cases {settings : Settings} (files : Files) {r : Request}
    (hpost : r.method = "POST") {verdict : Verdict}
    (hverdict : Decides settings.depth r.body verdict) :
    (∃ x, verdict = .value x ∧ Json.ofBytes ((ofSettings settings files).answer r).1.body =
        .ok (.object verdict.members)) ∨
      ((ofSettings settings files).answer r).1.body = [] ∨
      ∃ i, (ofSettings settings files).outcome r = .error i ∧
        Json.ofBytes ((ofSettings settings files).answer r).1.body =
          .ok (.object [("error", .text i.told.2)]) := by
  have hinterrupted : ∀ i, (ofSettings settings files).outcome r = .error i →
      Json.ofBytes ((ofSettings settings files).answer r).1.body =
        .ok (.object [("error", .text i.told.2)]) := fun i h => by
    rw [answer, h]
    exact ((isPrintable h).isOrdinary.tells_told r).ofBytes_body
  obtain h | ⟨location, h⟩ | ⟨i, h⟩ := outcome_post settings files hpost
  · rw [hverdict.answer_eq] at h
    cases verdict with
    | value x =>
      refine .inl ⟨x, rfl, ?_⟩
      rw [answer, h]
      exact Verdict.ofBytes_body hverdict.isFinite
    | rejection rejection => exact .inr (.inr ⟨_, h, hinterrupted _ h⟩)
  · rw [answer, h]
    exact .inr (.inl rfl)
  · exact .inr (.inr ⟨i, h, hinterrupted i h⟩)

namespace Batch

variable {settings : Settings} {s : Session} {line : Text}

/-- What becomes of an entry is made of the body that a service answers its post with. -/
theorem Receives.record_eq (hs : s.Serves settings) {url : Url} {v : Json.Value}
    (h : Json.ofText line = .ok v) {o : Except ClientError Text}
    (ho : Receives line ((Service.ofSettings settings s.files).answer
      (Question.calculation url (Utf8.encodeLone line)).request).1.body o) (number : ℕ) :
    ∃ s', Batch.record url number line s = (o, s') ∧ s'.Serves settings ∧
      s'.files = s.files := by
  obtain ⟨s', hexchange, hs', hfiles, -⟩ :=
    hs.exchange_eq (Question.calculation url (Utf8.encodeLone line))
  refine ⟨s', ?_, hs', hfiles⟩
  rw [Batch.record, isValid_eq_true_iff.2 ⟨_, h⟩, if_pos rfl, Client.send, hexchange]
  exact Prod.ext ho.bind_eq rfl

/-- What a service answers to the post of an entry concludes it. -/
theorem exists_receives_post (settings : Settings) (files : Files) (hline : line.Writable)
    {url : Url} {v : Json.Value} (h : Json.ofText line = .ok v) :
    ∃ o, Receives line ((Service.ofSettings settings files).answer
        (Question.calculation url (Utf8.encodeLone line)).request).1.body o ∧
      Concludes (Service.ofSettings settings files) line o := by
  have hwritten : ∀ {u : Text}, IsResult (Service.ofSettings settings files) line (line ++ u) →
      Text.Writable (line ++ u ++ ("\n" : Text)) := fun ht =>
    (ht.writable hline).append (Text.writable_ofString _)
  obtain ⟨verdict, hverdict⟩ := exists_computes settings.depth v
  have hdecides := decides_of_computes h hverdict
  obtain ⟨x, rfl, hbody⟩ | hbody | ⟨i, hi, hbody⟩ := Service.reply_cases files
    (r := (Question.calculation url (Utf8.encodeLone line)).request) rfl hdecides
  · have ht : IsResult (Service.ofSettings settings files) line
        (line ++ ((" = " : Text) ++ Number.text x)) :=
      .value h hverdict hverdict.isFinite
    exact ⟨_, .record hbody (.result rfl) (hwritten ht), .result ht⟩
  · rw [hbody]
    cases hempty : Json.ofBytes [] with
    | ok v =>
      exact absurd (fun _ h => absurd h List.not_mem_nil) (not_isBlankBody_of_ofBytes hempty)
    | error e => exact ⟨_, .undecodable hempty, .undecodable e⟩
  · have ht := IsResult.failure h hi
    exact ⟨_, .record hbody (.error rfl rfl) (hwritten ht), .result ht⟩

/-- **What becomes of an entry that is sent to a service.** -/
theorem record_concludes (hs : s.Serves settings) (hline : line.Writable) (url : Url)
    (number : ℕ) :
    ∃ o s', record url number line s = (o, s') ∧ s'.Serves settings ∧ s'.files = s.files ∧
      Concludes (Service.ofSettings settings s.files) line o := by
  cases h : Json.ofText line with
  | error e =>
    rw [record, isValid_eq_false_iff.2 ⟨_, h⟩]
    exact ⟨_, _, rfl, ⟨hs.peer, hs.refusals⟩, rfl, .result (.invalid h)⟩
  | ok v =>
    obtain ⟨o, hreceives, ho⟩ := exists_receives_post settings s.files hline h
    obtain ⟨s', hrecord, hs', hfiles⟩ := hreceives.record_eq hs h number
    exact ⟨o, s', hrecord, hs', hfiles, ho⟩

/-- **What becomes of entries that are sent to a service**: lines in the results for those before
the first failure, if there is one, which is never a line that cannot be written. -/
theorem run_concludes (hs : s.Serves settings) {lines : List Text}
    (hlines : ∀ line ∈ lines, Text.Writable line) (url : Url) (number : ℕ) :
    ∃ done rest results failure s',
      run url number lines s = ⟨results.map (· ++ ("\n" : Text)), failure, s'⟩ ∧
        s'.files = s.files ∧ lines = done ++ rest ∧
        List.Forall₂ (IsResult (Service.ofSettings settings s.files)) done results ∧
        (failure = none → rest = []) ∧ failure ≠ some .unencodable := by
  induction lines generalizing number s with
  | nil => exact ⟨[], [], [], none, s, rfl, rfl, rfl, .nil, fun _ => rfl, by rintro ⟨⟩⟩
  | cons line lines ih =>
    obtain ⟨hline, hlines⟩ := List.forall_mem_cons.1 hlines
    obtain ⟨o, s₁, hrecord, hs₁, hfiles₁, ho⟩ := record_concludes hs hline url number
    rw [run, hrecord]
    cases ho with
    | undecodable e =>
      refine ⟨[], line :: lines, [], some (.undecodable e), s₁, rfl, hfiles₁, rfl, .nil, ?_, ?_⟩
      · rintro ⟨⟩
      · rintro ⟨⟩
    | result ht =>
      obtain ⟨done, rest, results, failure, s₂, hrun, hfiles₂, hsplit, hresults, hall, hne⟩ :=
        ih hs₁ hlines (number + 1)
      rw [hfiles₁] at hresults
      refine ⟨line :: done, rest, _ :: results, failure, s₂, ?_, hfiles₂.trans hfiles₁, ?_,
        .cons ht hresults, hall, hne⟩
      · dsimp only
        rw [hrun]
        rfl
      · rw [hsplit]
        rfl

/-- A line that is JSON is posted once to a service, which takes the next one. -/
theorem record_posts (hs : s.Serves settings) (url : Url) (number : ℕ) (line : Text) :
    (record url number line s).2.Serves settings ∧
      (record url number line s).2.events = s.events ++ posts url true [line] := by
  obtain ⟨s', hexchange, hs', -, hevents⟩ :=
    hs.exchange_eq (Question.calculation url (Utf8.encodeLone line))
  cases h : Json.ofText line with
  | error e =>
    rw [record, isValid_eq_false_iff.2 ⟨_, h⟩, posts_of_error h, List.append_nil]
    exact ⟨⟨hs.peer, hs.refusals⟩, rfl⟩
  | ok v =>
    rw [record, isValid_eq_true_iff.2 ⟨_, h⟩, if_pos rfl, Client.send, hexchange, posts_of_ok h]
    exact ⟨hs', hevents⟩

/-- **Lines that all get a record are posted in order.** -/
theorem run_posts (hs : s.Serves settings) {url : Url} {number : ℕ} {lines records : List Text}
    {s' : Session} (h : run url number lines s = ⟨records, none, s'⟩) :
    s'.events = s.events ++ posts url true lines := by
  induction lines generalizing number s records with
  | nil =>
    cases h
    exact (List.append_nil _).symm
  | cons line lines ih =>
    obtain ⟨hs₁, hevents⟩ := record_posts hs url number line
    rw [run] at h
    cases hrecord : record url number line s with
    | mk o s₁ =>
      rw [hrecord] at h hs₁ hevents
      cases o with
      | error e => cases h
      | ok record =>
        cases hrest : run url (number + 1) lines s₁ with
        | mk later failure s₂ =>
          simp only [hrest, Progress.mk.injEq] at h
          obtain ⟨-, rfl, rfl⟩ := h
          rw [ih hs₁ hrest, hevents, List.append_assoc, ← posts_cons]

end Batch

namespace Client

variable {settings : Settings} {s : Session}

/-- **What a client sends a service in a batch**: one post for each entry that is JSON, in order. It
counts the entries and writes the record of each. -/
theorem sendFile_sends {c : Client} {url : Url} (hurl : Url.ofText c.address = .ok url)
    (hquery : url.query = none) (hs : s.Serves settings) {input output : Path} {text : Text}
    (htext : Batch.content s.files input = .ok text) {place : Place}
    (hplace : s.files.target output = .ok place) :
    ∃ records, List.Forall₂ (LocalRecord settings.depth) text.entries records ∧
      (c.sendFile input output s).1 = .ok text.entries.length ∧
      (c.sendFile input output s).2.files = s.files.write place records.flatten ∧
      (c.sendFile input output s).2.events =
        s.events ++ .connect c.address :: Batch.posts url true text.entries := by
  have hlines : ∀ line ∈ text.entries, Text.Writable line := fun line hline =>
    Text.writable_of_mem_entries (Batch.writable_content htext) hline
  have hnoted : (s.note (.connect c.address)).Serves settings := ⟨hs.peer, hs.refusals⟩
  have hconnect : c.connect s = .ok (url, s.note (.connect c.address)) := by
    rw [connect, hurl]
  obtain ⟨records, s', hrun, hrecords, hfiles⟩ := Batch.run_eq hnoted hquery hlines 1
  rw [sendFile_eq_sendLines htext hconnect hplace, sendLines_of_run hrun]
  refine ⟨records, hrecords, rfl, congrArg (Files.write · _ _) hfiles, ?_⟩
  exact (Batch.run_posts hnoted hrun).trans (List.append_assoc _ _ _)

/-- A batch is sent, or fails before anything is sent; without an address that can be used only, it
may fail over a text that cannot be encoded. -/
theorem sendFile_eq_or (c : Client) (input output : Path) (s : Session) :
    (∃ e s', c.sendFile input output s = (.error e, s') ∧
        ∀ url, Url.ofText c.address = .ok url → e ≠ .unencodable) ∨
      ∃ text url place, Batch.content s.files input = .ok text ∧
        s.files.target output = .ok place ∧ c.sendFile input output s =
          sendLines url text.entries output place (s.note (.connect c.address)) := by
  cases htext : Batch.content s.files input with
  | error e =>
    refine .inl ⟨e, s, by rw [sendFile, htext], fun _ _ => ?_⟩
    rw [Batch.content] at htext
    split_ifs at htext
    · obtain ⟨_, -, rfl⟩ := mapError_eq_error_iff.1 htext
      rintro ⟨⟩
    · obtain ⟨_, -, rfl⟩ := mapError_eq_error_iff.1 htext
      rintro ⟨⟩
  | ok text =>
    cases hurl : Url.ofText c.address with
    | error e =>
      refine .inl ⟨.ofTargetError e, s, ?_, by rintro _ ⟨⟩⟩
      rw [sendFile, htext, connect, hurl]
    | ok url =>
      have hconnect : c.connect s = .ok (url, s.note (.connect c.address)) := by
        rw [connect, hurl]
      cases hplace : s.files.target output with
      | error e =>
        have htarget : (s.note (.connect c.address)).files.target output = .error e := hplace
        refine .inl ⟨.access e, s.note (.connect c.address), ?_, by rintro _ - ⟨⟩⟩
        rw [sendFile, htext]
        dsimp only
        rw [hconnect]
        dsimp only
        rw [htarget]
      | ok place =>
        exact .inr ⟨text, url, place, rfl, rfl, sendFile_eq_sendLines htext hconnect hplace⟩

/-- Entries that are sent to a service: the lines that are written, and how the batch ends. -/
theorem sendLines_concludes (hs : s.Serves settings) {lines : List Text}
    (hlines : ∀ line ∈ lines, Text.Writable line) (url : Url) (output : Path) (place : Place) :
    ∃ done rest results, lines = done ++ rest ∧
      List.Forall₂ (IsResult (Service.ofSettings settings s.files)) done results ∧
      (sendLines url lines output place s).2.files =
        s.files.write place (results.map (· ++ ("\n" : Text))).flatten ∧
      (sendLines url lines output place s).1 ≠ .error .unencodable ∧
      ∀ n, (sendLines url lines output place s).1 = .ok n → n = lines.length ∧ rest = [] := by
  obtain ⟨done, rest, results, failure, s', hrun, hfiles, hsplit, hresults, hall, hne⟩ :=
    Batch.run_concludes hs hlines url 1
  rw [sendLines, hrun]
  refine ⟨done, rest, results, hsplit, hresults, ?_⟩
  cases failure with
  | none =>
    refine ⟨congrArg (Files.write · _ _) hfiles, by rintro ⟨⟩, fun n hn => ?_⟩
    exact ⟨(Except.ok.inj hn).symm, hall rfl⟩
  | some e =>
    refine ⟨congrArg (Files.write · _ _) hfiles, fun h => hne ?_, by rintro _ ⟨⟩⟩
    rw [Except.error.inj h]

/-- **The results of a batch stay on their lines.** When a client sends a batch to a service with
any settings and counts `n` entries, the file of results is well-formed, is cut into exactly `n`
lines, and each of them is the entry of the batch at its place followed by a finite value, by the
message about what is no JSON, or by a message that the service tells about a request. No batch
fails because a line cannot be written. No message that the service tells about any request at all
holds an end of a line or a surrogate. -/
theorem sendFile_lines (c : Client) (hs : s.Serves settings) (input output : Path) :
    let service := Service.ofSettings settings s.files
    let sent := c.sendFile input output s
    (∀ n, sent.1 = .ok n →
      ∃ text place written, Batch.content s.files input = .ok text ∧
        s.files.target output = .ok place ∧ sent.2.files = s.files.write place written ∧
        sent.2.files.content? place = some (.bytes (Utf8.encodeLone written)) ∧
        Utf8.decode? (Utf8.encodeLone written) = some written ∧
        text.entries.length = n ∧ written.lines.length = n ∧
        List.Forall₂ (IsResult service) text.entries written.lines) ∧
      (∀ url, Url.ofText c.address = .ok url → sent.1 ≠ .error .unencodable) ∧
      ∀ r i, service.outcome r = .error i →
        (service.answer r).1.Tells i.told.1 [("error", .text i.told.2)] ∧
          i.told.2.SingleLine ∧ i.told.2.Writable := by
  intro service sent
  have hmessage : ∀ r i, service.outcome r = .error i →
      (service.answer r).1.Tells i.told.1 [("error", .text i.told.2)] ∧
        i.told.2.SingleLine ∧ i.told.2.Writable := by
    intro r i h
    obtain ⟨hordinary, hprintable⟩ := Service.isPrintable h
    refine ⟨?_, hprintable.singleLine, hprintable.writable⟩
    rw [Service.answer, h]
    exact hordinary.tells_told r
  obtain ⟨e, s', hsent, hne⟩ | ⟨text, url, place, htext, hplace, hsent⟩ :=
    c.sendFile_eq_or input output s
  · have hfailed : sent.1 = .error e := congrArg Prod.fst hsent
    rw [hfailed]
    refine ⟨?_, fun url hurl h => hne url hurl (Except.error.inj h), hmessage⟩
    rintro _ ⟨⟩
  · have hnoted : (s.note (.connect c.address)).Serves settings := ⟨hs.peer, hs.refusals⟩
    have hlines : ∀ line ∈ text.entries, Text.Writable line := fun line hline =>
      Text.writable_of_mem_entries (Batch.writable_content htext) hline
    obtain ⟨done, rest, results, hsplit, hresults, hfiles, hne, hall⟩ :=
      sendLines_concludes hnoted hlines url output place
    rw [← hsent] at hfiles hne hall
    refine ⟨fun n hn => ?_, fun _ _ => hne, hmessage⟩
    obtain ⟨rfl, rfl⟩ := hall n hn
    rw [List.append_nil] at hsplit
    subst hsplit
    obtain ⟨hwritable, hcut⟩ := IsResult.lines_flatten_eq hresults
      (fun _ => Text.singleLine_of_mem_entries) hlines
    refine ⟨text, place, _, htext, hplace, hfiles, ?_, Utf8.decode?_encodeLone hwritable, rfl, ?_,
      ?_⟩
    · rw [hfiles]
      exact Files.content?_write s.files (Files.target_ne_nil hplace) _
    · rw [hcut, hresults.length_eq]
    · rw [hcut]
      exact hresults

/-- A batch with a number and an operation whose operator is an array of texts that hold ends of
lines and a surrogate. -/
theorem sendFile_lines_hostile_operator :
    let text : Text :=
      "\x7b\"op\":[\"= 1\\n7 = 7.0\",\x7b\"\\u2028\":\"\\ud800\"\x7d],\"args\":[1]\x7d\n7\n"
    let files : Files := ⟨[], [([("in.txt" : Text)], .file (.bytes (Utf8.encodeLone text)))]⟩
    let s := Session.fresh files (.service .standard) 0
    s.Serves .standard ∧
      (standard.sendFile (Path.ofText "in.txt") (Path.ofText "out.txt") s).1 = .ok 2 ∧
      ∃ place written,
        (standard.sendFile (Path.ofText "in.txt")
            (Path.ofText "out.txt") s).2.files.content? place =
          some (.bytes (Utf8.encodeLone written)) ∧
        written.lines.length = 2 := by
  intro text files s
  have hs : s.Serves .standard := ⟨rfl, rfl⟩
  have hread : files.readText (Path.ofText "in.txt") = .ok text := by decide +kernel
  have htext : Batch.content files (Path.ofText "in.txt") = .ok text := by
    rw [Batch.content, if_pos (by decide), hread]
    rfl
  have hplace : files.target (Path.ofText "out.txt") = .ok [("out.txt" : Text)] := by
    decide +kernel
  have hurl := @Url.ofText_address standard 0x7F000001 rfl (by decide)
  obtain ⟨-, -, hcount, -⟩ := sendFile_sends hurl rfl hs htext hplace
  have hentries : text.entries.length = 2 := by decide +kernel
  rw [hentries] at hcount
  obtain ⟨hwritten, -⟩ :=
    @sendFile_lines .standard s standard hs (Path.ofText "in.txt") (Path.ofText "out.txt")
  obtain ⟨-, place, written, -, -, -, hcontent, -, -, hlines, -⟩ := hwritten 2 hcount
  exact ⟨hs, hcount, place, written, hcontent, hlines⟩

end Client

end Abacus
