import Mathlib
import Abacus.Program
import Abacus.Proofs.Client.Readiness
import Abacus.Proofs.Files
import Abacus.Proofs.Schema

/-!
# A run stops the process that it started

Whatever the input is and however the batch ends, there is one start of a process, the calls come
after it, and then the process is told to stop and has ended.

* `CommandLine.passes_of_parse`, `CommandLine.isValid_of_parse`: the values of a command passed
  their check;
* `Program.startProcess_spec`: a session after the start of a process;
* `Program.sendWhenReady_of_le`, `Program.sendWhenReady_of_lt`: what the client does meanwhile;
* `Program.runFile_eq`: how the outcome and the events of a run are put together;
* `Program.run_stops`: all of it for the program.
-/

namespace Abacus

open Session (Event)

/-- The values of a command passed their check. -/
inductive Command.Passes (files : Files) : Command → Prop
  | serve {members : Json.Members} {o : Overlay}
    (h : Overlay.ofData files members = .ok (.valid o)) : Passes files (.serve o)
  | run {members : Json.Members} {o : RunOptions}
    (h : RunOptions.ofData files members = .ok (.valid o)) : Passes files (.run o)

namespace CommandLine

theorem checked_eq_ok_iff {α : Type} {c : Except AccessError (Checked α)} {a : α} :
    checked c = .ok a ↔ c = .ok (.valid a) := by
  rcases c with e | x
  · exact ⟨fun h => (nomatch h), fun h => (nomatch h)⟩
  · cases x with
    | valid b => simp [checked]
    | invalid issues => exact ⟨fun h => (nomatch h), fun h => (nomatch h)⟩

/-- **The command that words give passed its check.** -/
theorem passes_of_parse {files : Files} {words : List Text} {command : Command}
    (h : parse files words = .ok command) : command.Passes files := by
  obtain ⟨classes, -, h⟩ := bind_eq_ok_iff.1 h
  obtain ⟨⟨extras, name, rest⟩, -, h⟩ := bind_eq_ok_iff.1 h
  dsimp only at h
  split_ifs at h
  · obtain ⟨r, -, h⟩ := bind_eq_ok_iff.1 h
    obtain ⟨-, -, h⟩ := bind_eq_ok_iff.1 h
    obtain ⟨o, ho, h⟩ := bind_eq_ok_iff.1 h
    cases h
    exact .serve (checked_eq_ok_iff.1 ho)
  · obtain ⟨r, -, h⟩ := bind_eq_ok_iff.1 h
    obtain ⟨-, -, h⟩ := bind_eq_ok_iff.1 h
    obtain ⟨o, ho, h⟩ := bind_eq_ok_iff.1 h
    cases h
    exact .run (checked_eq_ok_iff.1 ho)

/-- The options of a run passed their check. -/
theorem isValid_of_parse {files : Files} {words : List Text} {options : RunOptions}
    (h : parse files words = .ok (.run options)) : options.IsValid files := by
  cases passes_of_parse h with
  | run hdata => exact RunOptions.isValid_of_ofData hdata

end CommandLine

/-- The input of a run has a name, so that its results have a path. -/
theorem RunOptions.IsValid.exists_results? {files : Files} {options : RunOptions}
    (h : options.IsValid files) (hhome : files.content? files.home = none) :
    ∃ output, options.input.results? = some output := by
  obtain ⟨content, hfile⟩ := h.isFile
  have hparts := Files.parts_ne_nil_of_find hhome hfile
  rw [Path.results?, List.isEmpty_eq_false_iff.2 hparts]
  exact ⟨_, rfl⟩

namespace Program

/-! ## The process -/

/-- The settings of a server for a run. -/
def runSettings (port : ℕ) : Settings := { Settings.standard with port := port }

/-- The client of a run. -/
def runClient (port : ℕ) : Client := { Client.standard with port := port }

variable {s : Session} {port : ℕ}

/-- **After the start of a process** a server listens; the files are as before, and connections are
refused as often. -/
theorem startProcess_spec (port : ℕ) (s : Session) :
    (startProcess port s).files = s.files ∧
      (startProcess port s).peer = .service (runSettings port) ∧
      (startProcess port s).refusals = s.refusals ∧
      (startProcess port s).events = s.events ++ [Event.start, .listen (runSettings port)] := by
  have hlevel : Log.level? (Text.capitals "INFO") = some 20 := by decide
  have hconfigure : ∀ l : Logger,
      l.configure (runSettings port).logLevel = .ok { l.attached with level := 20 } := by
    intro l
    show l.configure "INFO" = _
    rw [Logger.configure, hlevel]
  have hstart : startProcess port s = (Server.start (runSettings port) (s.note .start)).2 := rfl
  rw [hstart, Server.start, hconfigure]
  simp [Server.listen, Session.record, Session.note]

/-! ## The client -/

variable {settings : Settings} {input output : Path}

/-- **Refused too often**, the client gives up before it looks at the batch. -/
theorem sendWhenReady_of_le (hport : port ≤ 65535) (h : 20 ≤ s.refusals) :
    ∃ url s', sendWhenReady (runClient port) input output s =
        (.error (.notStarted port), s') ∧ s.Follows s' ∧
      s'.events = s.events ++ Event.connect (runClient port).address ::
        Client.refusedAttempts url Client.usualDelay 20 := by
  have hhost : (runClient port).host = .v4 0x7F000001 := rfl
  have hle : ((Client.usualRetries : ℕ) : ℤ) ≤ s.refusals := Int.ofNat_le.2 h
  obtain ⟨url, s', hwait, hfollows, hevents⟩ :=
    (runClient port).waitUntilReady_of_le hhost hport hle (Session.Clock.refusal?_usualDelay _)
  refine ⟨url, s', ?_, hfollows, hevents⟩
  rw [sendWhenReady, hwait]
  rfl

/-- **Not refused too often**, the client sends the batch to the service. -/
theorem sendWhenReady_of_lt (hport : port ≤ 65535) (hpeer : s.peer = .service settings)
    (h : s.refusals < 20) :
    ∃ s', (runClient port).waitUntilReady Client.usualRetries Client.usualDelay s =
        (.ok true, s') ∧ s.Follows s' ∧ s'.Serves settings ∧
      sendWhenReady (runClient port) input output s =
        (runClient port).sendFile input output s' := by
  have hhost : (runClient port).host = .v4 0x7F000001 := rfl
  have hlt : (s.refusals : ℤ) < (Client.usualRetries : ℕ) := Int.ofNat_lt.2 h
  obtain ⟨url, s', hwait, hfollows, hserves, -⟩ :=
    (runClient port).waitUntilReady_of_lt hhost hport hpeer hlt
      (Session.Clock.refusal?_usualDelay _)
  refine ⟨s', hwait, hfollows, hserves, ?_⟩
  rw [sendWhenReady, hwait]

/-! ## The run -/

/-- The outcome of a run is that of the client, after which the process is stopped. -/
theorem runFile_eq {options : RunOptions} (hname : options.input.results? = some output)
    (s : Session) :
    let sent := sendWhenReady (runClient options.port) options.input output
      (startProcess options.port s)
    (runFile options s).1 = (sent.1.map fun _ => ()).mapError ProgramError.client ∧
      (runFile options s).2.files = sent.2.files ∧
      (runFile options s).2.events = sent.2.events ++ [Event.terminate, Event.join] := by
  dsimp only
  have hclient : ({ Client.standard with port := options.port } : Client) =
    runClient options.port := rfl
  unfold runFile
  rw [hname]
  dsimp only
  rw [hclient]
  generalize sendWhenReady (runClient options.port) options.input output
    (startProcess options.port s) = sent
  obtain ⟨outcome, s'⟩ := sent
  cases outcome with
  | error e => simp [stopProcess, Session.note, Except.map, Except.mapError]
  | ok n => simp [stopProcess, Session.note, Session.record, Except.map, Except.mapError]

/-- Traffic is nothing about the process. -/
theorem not_process_of_isTraffic {e : Event} (he : e.IsTraffic) :
    e ≠ Event.start ∧ e ≠ Event.terminate ∧ e ≠ Event.join := by
  cases e <;> simp_all [Event.IsTraffic]

/-- The events of a run: those of its process, and what the client does in between. -/
theorem exists_middle {s' : Session} (h : (startProcess port s).IsLonger s') :
    ∃ middle, s'.events ++ [Event.terminate, Event.join] =
        s.events ++ Event.start :: middle ++ [Event.terminate, Event.join] ∧
      ∀ e ∈ middle, e ≠ Event.start ∧ e ≠ Event.terminate ∧ e ≠ Event.join := by
  obtain ⟨es, hes, htraffic⟩ := h
  obtain ⟨-, -, -, hevents⟩ := startProcess_spec port s
  refine ⟨.listen (runSettings port) :: es, ?_, ?_⟩
  · rw [hes, hevents]
    simp
  · intro e he
    rcases List.mem_cons.1 he with rfl | he
    · simp
    · exact not_process_of_isTraffic (htraffic e he)

/-- **A run stops the process that it started.** Let words give the command to run a file with
options that passed their check, and let no file stand where the home directory should be. Whatever
the files are and however often connections are refused, the events of the run are one start of a
process, then all that the client does, then one termination and one join. After twenty refusals the
run fails because the server did not start; nothing but calls for the index was sent, and the files
are as before. After fewer, the outcome is that of the batch, an error included, on a service with
the files from before. The run succeeds only so, and then the results stand where the name of the
input says. -/
theorem run_stops {words : List Text} (env : Environment) {options : RunOptions}
    (hparse : CommandLine.parse s.files words = .ok (.run options))
    (hhome : s.files.content? s.files.home = none) :
    ∃ output, options.input.results? = some output ∧
      let client := runClient options.port
      let ready := (client.waitUntilReady Client.usualRetries Client.usualDelay
        (startProcess options.port s)).2
      let sent := client.sendFile options.input output ready
      let outcome := (run words env s).1
      let final := (run words env s).2
      (∃ middle, final.events = s.events ++ Event.start :: middle ++ [Event.terminate, Event.join] ∧
        ∀ e ∈ middle, e ≠ Event.start ∧ e ≠ Event.terminate ∧ e ≠ Event.join) ∧
      (20 ≤ s.refusals → outcome = .error (.client (.notStarted options.port)) ∧
        final.files = s.files ∧
        ∃ url, final.events = s.events ++ [Event.start, .listen (runSettings options.port),
          .connect client.address] ++ Client.refusedAttempts url Client.usualDelay 20 ++
            [Event.terminate, Event.join]) ∧
      (s.refusals < 20 → ready.files = s.files ∧ ready.Serves (runSettings options.port) ∧
        outcome = (sent.1.map fun _ => ()).mapError ProgramError.client ∧
        final.files = sent.2.files) ∧
      (outcome = .ok () ↔ s.refusals < 20 ∧ ∃ n, sent.1 = .ok n) ∧
      (outcome = .ok () → ∃ place t, s.files.target output = .ok place ∧
        final.files = s.files.write place t ∧
        final.files.content? place = some (.bytes (Utf8.encodeLone t))) := by
  have hvalid := CommandLine.isValid_of_parse hparse
  obtain ⟨output, hname⟩ := hvalid.exists_results? hhome
  have hrun : run words env s = runFile options s := by
    rw [run, hparse]
  obtain ⟨houtcome, hfiles, hevents⟩ := runFile_eq hname s
  obtain ⟨hstartFiles, hstartPeer, hstartRefusals, hstartEvents⟩ :=
    startProcess_spec options.port s
  refine ⟨output, hname, ?_⟩
  dsimp only
  rw [hrun, houtcome, hfiles, hevents]
  rcases le_or_gt 20 s.refusals with hle | hlt
  · -- Nobody answers, and the batch is not looked at.
    obtain ⟨url, s', hsend, hfollows, hlonger⟩ := @sendWhenReady_of_le
      (startProcess options.port s) options.port options.input output hvalid.port_le
      (hstartRefusals.symm ▸ hle)
    rw [hsend]
    refine ⟨exists_middle hfollows.isLonger,
      fun _ => ⟨rfl, hfollows.files_eq.trans hstartFiles, url, ?_⟩,
      fun hlt => absurd hlt (not_lt.2 hle), ?_, ?_⟩
    · rw [hlonger, hstartEvents]
      simp
    · exact iff_of_false (by rintro ⟨⟩) fun h => absurd h.1 (not_lt.2 hle)
    · rintro ⟨⟩
  · -- The service answers, and the batch decides the outcome.
    obtain ⟨s', hwait, hfollows, hserves, hsend⟩ := @sendWhenReady_of_lt
      (startProcess options.port s) options.port _ options.input output hvalid.port_le hstartPeer
      (hstartRefusals.symm ▸ hlt)
    have hready : s'.files = s.files := hfollows.files_eq.trans hstartFiles
    obtain ⟨hlonger, hcases⟩ := (runClient options.port).sendFile_cases options.input output s'
    rw [hsend, hwait]
    refine ⟨exists_middle (hfollows.isLonger.trans hlonger), fun hle => absurd hlt (not_lt.2 hle),
      fun _ => ⟨hready, hserves, rfl, rfl⟩, ?_, ?_⟩
    · cases hsent : ((runClient options.port).sendFile options.input output s').1 with
      | error e => exact iff_of_false (by rintro ⟨⟩) (by rintro ⟨-, n, ⟨⟩⟩)
      | ok n => exact iff_of_true rfl ⟨hlt, n, rfl⟩
    · intro hok
      rcases hcases with ⟨⟨e, he⟩, -⟩ | ⟨place, t, hplace, hwritten⟩
      · rw [he] at hok
        cases hok
      · rw [hready] at hplace hwritten
        refine ⟨place, t, hplace, hwritten, ?_⟩
        rw [hwritten]
        exact Files.content?_write s.files (Files.target_ne_nil hplace) t

/-- A file with one number, after three refusals. -/
theorem run_stops_one_number :
    let files : Files := ⟨[], [([("in.txt" : Text)], .file (.bytes (Utf8.encodeLone "1\n")))]⟩
    let s := Session.fresh files (.replies []) 3
    let words : List Text := ["run", "in.txt"]
    CommandLine.parse s.files words = .ok (.run ⟨Path.ofText "in.txt", 3000⟩) ∧
      s.files.content? s.files.home = none ∧ (run words [] s).1 = .ok () ∧
      ∃ place t, s.files.target (Path.ofText "in_txt_results.txt") = .ok place ∧
        (run words [] s).2.files.content? place = some (.bytes (Utf8.encodeLone t)) := by
  intro files s words
  have hparse : CommandLine.parse s.files words = .ok (.run ⟨Path.ofText "in.txt", 3000⟩) := by
    decide +kernel
  have hhome : s.files.content? s.files.home = none := rfl
  have hresults : (Path.ofText "in.txt").results? = some (Path.ofText "in_txt_results.txt") := by
    decide +kernel
  have hok : (run words [] s).1 = .ok () := by
    have hisOk : (run words [] s).1.isOk = true := by decide +kernel
    cases h : (run words [] s).1 with
    | error e =>
      rw [h] at hisOk
      cases hisOk
    | ok => rfl
  obtain ⟨output, houtput, -, -, -, -, hwritten⟩ := run_stops [] hparse hhome
  cases hresults.symm.trans houtput
  obtain ⟨place, t, hplace, -, hcontent⟩ := hwritten hok
  exact ⟨hparse, hhome, hok, place, t, hplace, hcontent⟩

end Program

end Abacus
