import Mathlib
import Abacus.Proofs.CommandLine
import Abacus.Proofs.Files.Frame
import Abacus.Proofs.Path.Results

/-!
# A run keeps its input

Whatever becomes of a run, it writes one file at most, and that file is not the one that it reads.

* `Program.runFile_cases`, `Program.run_cases`: what a run does to the files;
* `Program.run_keeps_input`: the input is still there, and what has changed are the results.
-/

namespace Abacus

namespace Program

variable {s : Session} {options : RunOptions} {output : Path}

/-- **What a run does to the files**: nothing if it fails early, or it writes the results. -/
theorem runFile_cases (hport : options.port ≤ 65535)
    (hname : options.input.results? = some output) (s : Session) :
    ((∃ e, (runFile options s).1 = .error e) ∧ (runFile options s).2.files = s.files) ∨
      ∃ place t, s.files.target output = .ok place ∧
        (runFile options s).2.files = s.files.write place t := by
  obtain ⟨houtcome, hfiles, -⟩ := runFile_eq hname s
  obtain ⟨hstartFiles, hstartPeer, hstartRefusals, -⟩ := startProcess_spec options.port s
  rw [houtcome, hfiles]
  rcases le_or_gt 20 s.refusals with hle | hlt
  · obtain ⟨url, s', hsend, hfollows, -⟩ := @sendWhenReady_of_le
      (startProcess options.port s) options.port options.input output hport
      (hstartRefusals.symm ▸ hle)
    rw [hsend]
    exact .inl ⟨⟨_, rfl⟩, hfollows.files_eq.trans hstartFiles⟩
  · obtain ⟨s', -, hfollows, -, hsend⟩ := @sendWhenReady_of_lt
      (startProcess options.port s) options.port _ options.input output hport hstartPeer
      (hstartRefusals.symm ▸ hlt)
    have hready : s'.files = s.files := hfollows.files_eq.trans hstartFiles
    obtain ⟨-, hcases⟩ := (runClient options.port).sendFile_cases options.input output s'
    rw [hsend, ← hready]
    rcases hcases with ⟨⟨e, he⟩, hsame⟩ | hwritten
    · rw [he]
      exact .inl ⟨⟨_, rfl⟩, hsame⟩
    · exact .inr hwritten

/-- What words for a run do to the files. -/
theorem run_cases {path : Text} (hname : (Path.ofText path).results? = some output)
    (env : Environment) (s : Session) :
    ((∃ e, (run ["run", path] env s).1 = .error e) ∧
        (run ["run", path] env s).2.files = s.files) ∨
      ∃ place t, s.files.target output = .ok place ∧
        (run ["run", path] env s).2.files = s.files.write place t := by
  rw [run]
  cases hparse : CommandLine.parse s.files ["run", path] with
  | error e => exact .inl ⟨⟨_, rfl⟩, rfl⟩
  | ok command =>
    cases CommandLine.eq_run_of_parse hparse
    exact runFile_cases (show 3000 ≤ 65535 by decide) hname s

/-- A run leaves the files as they are, or it writes the results. -/
theorem run_files {path : Text} (hname : (Path.ofText path).results? = some output)
    (env : Environment) (s : Session) :
    (run ["run", path] env s).2.files = s.files ∨ ∃ place t, s.files.target output = .ok place ∧
      (run ["run", path] env s).2.files = s.files.write place t :=
  (run_cases hname env s).imp_left And.right

/-- **A run keeps its input.** Let the path of a run have a name and lead to a file. Whatever the
environment is, however often connections are refused and however the run ends, the path leads to
that file with the content that it had. Only one file can have changed, the one at the path of the
results. That path has the folder of the input, and for its name the stem and the extensions of the
input, the dots of the extensions made into underscores, with a few letters more; it is not the path
of the input, and does not lead there. -/
theorem run_keeps_input (env : Environment) {s : Session} {path : Text} {content : Content}
    (hname : (Path.ofText path).name ≠ [])
    (hfile : s.files.find (Path.ofText path) = .ok (some (.file content))) :
    let input := Path.ofText path
    let final := (run ["run", path] env s).2.files
    ∃ stem extensions, Path.Cut input.name stem extensions ∧
      let output : Path := ⟨input.root, input.parts.dropLast ++
        [stem ++ extensions.flatten.map Path.blend ++ ("_results.txt" : Text)]⟩
      input.results? = some output ∧ output ≠ input ∧
        final.find input = .ok (some (.file content)) ∧ final.home = s.files.home ∧
        ∀ place, final.entry? place ≠ s.files.entry? place →
          s.files.resolve output = .ok place ∧ s.files.resolve input ≠ .ok place := by
  intro input final
  obtain ⟨stem, extensions, hcut, hresults, hne⟩ := Path.exists_results? hname
  obtain ⟨q, hq, hentry⟩ := Files.exists_resolve_of_find hfile
  have hinput : s.files.resolve ⟨input.root, input.parts.dropLast ++ [input.name]⟩ = .ok q :=
    Path.eq_concat hname ▸ hq
  refine ⟨stem, extensions, hcut, hresults, fun heq => hne ?_, ?_⟩
  · exact (Path.name_concat _ _ _).symm.trans (congrArg Path.name heq)
  · obtain hsame | ⟨place, t, htarget, hwritten⟩ := run_files hresults env s
    · have hsame : final = s.files := hsame
      rw [hsame]
      exact ⟨hfile, rfl, fun place hplace => absurd rfl hplace⟩
    · obtain ⟨hplace, hdirectory⟩ := Files.target_eq_ok htarget
      have hwritten : final = s.files.write place t := hwritten
      have hother : q ≠ place := Files.resolve_ne_of_name hinput hplace hne.symm
        (Path.resultsOf_ne_up stem extensions)
      rw [hwritten]
      refine ⟨(Files.find_put hdirectory _ hq hother).trans hfile, rfl, fun p hp => ?_⟩
      obtain rfl : p = place := by
        by_contra helsewhere
        exact hp <| Files.entry?_put_of_ne s.files _ helsewhere
      exact ⟨hplace, fun h => hother (Except.ok.inj (hq.symm.trans h))⟩

/-- A hidden file with two dots in a row. -/
theorem run_keeps_input_hidden :
    let content : Content := .bytes (Utf8.encodeLone "1\n")
    let s := Session.fresh ⟨[], [([(".in..txt" : Text)], .file content)]⟩ (.replies []) 3
    let input := Path.ofText ".in..txt"
    input.name ≠ [] ∧ s.files.find input = .ok (some (.file content)) ∧
      input.results? = some (Path.ofText ".in__txt_results.txt") ∧
      (run ["run", ".in..txt"] [] s).2.files.find input = .ok (some (.file content)) := by
  intro content s input
  have hname : input.name ≠ [] := by decide +kernel
  have hfile : s.files.find input = .ok (some (.file content)) := by decide +kernel
  obtain ⟨stem, extensions, -, -, -, hkept, -⟩ := run_keeps_input [] hname hfile
  exact ⟨hname, hfile, by decide +kernel, hkept⟩

end Program

end Abacus
