import Mathlib
import Abacus.Proofs.Path.Alike
import Abacus.Proofs.Program.Input

/-!
# The results of two runs

Two inputs in one folder have their results in one file exactly if their names are alike. Otherwise
a run on one of them keeps the results of the other.

* `Batch.extensions`, `Batch.IsName`: the names of files that can be sent;
* `Files.find_write`, `Program.find_results`: what stands at the path of the results after a run;
* `Program.find_of_run`: what a run keeps in its folder;
* `Program.runs_keep_results`: two runs, one after the other.
-/

namespace Abacus

namespace Batch

/-- The extensions of the files that can be sent. -/
def extensions : List Text := [".txt", ".jsonl", ".zip", ".tar.xz", ".7z"]

/-- The names of the files that can be sent: anything at all with one of the extensions. -/
def IsName (name : Text) : Prop :=
  ∃ stem extension, stem ≠ [] ∧ extension ∈ extensions ∧ name = stem ++ extension

variable {name : Text}

theorem IsName.ne_nil (h : IsName name) : name ≠ [] := by
  obtain ⟨stem, extension, hstem, -, rfl⟩ := h
  exact List.append_ne_nil_of_left_ne_nil hstem _

/-- No extension ends with a dot. -/
theorem IsName.not_dot_suffix (h : IsName name) : ¬[Path.dot] <:+ name := by
  obtain ⟨stem, extension, -, hextension, rfl⟩ := h
  have hlast : ∀ t ∈ extensions, t ≠ [] ∧ t.getLast? ≠ some Path.dot := by decide
  obtain ⟨hne, hdot⟩ := hlast extension hextension
  rintro ⟨front, hfront⟩
  apply hdot
  rw [← List.getLast?_append_of_ne_nil stem hne, ← hfront, List.getLast?_concat]

end Batch

namespace Path

theorem results?_concat (root : Text) (folder : List Text) (name : Text) :
    (Path.mk root (folder ++ [name])).results? = some ⟨root, folder ++ [resultsName name]⟩ := by
  have hparts : (folder ++ [name]).isEmpty = false :=
    List.isEmpty_eq_false_iff.2 (List.append_ne_nil_of_right_ne_nil _ (List.cons_ne_nil _ _))
  rw [results?, hparts, if_neg Bool.false_ne_true, name_concat, List.dropLast_concat]

theorem resultsName_ne_up {name : Text} (h : name ≠ []) : resultsName name ≠ up := by
  obtain ⟨stem, hcut⟩ := exists_cut h
  rw [resultsName_eq_of_append hcut.eq_append]
  exact resultsOf_ne_up stem _

end Path

/-- A file that was opened for writing is found by its path. -/
theorem Files.find_write {f : Files} {p : Path} {place : Place} (h : f.target p = .ok place)
    (t : Text) : (f.write place t).find p = .ok (some (.file (.bytes (Utf8.encodeLone t)))) := by
  obtain ⟨hresolve, hdirectory⟩ := target_eq_ok h
  have hentry := entry?_put f place (.file (.bytes (Utf8.encodeLone t))) place
  rw [if_neg (target_ne_nil h), if_pos rfl] at hentry
  rw [find, write, resolve_put hdirectory _ hresolve]
  exact congrArg Except.ok hentry

namespace Program

variable {path : Text} {output : Path}

/-- **A run that succeeds leaves results** at their path. -/
theorem find_results (hname : (Path.ofText path).results? = some output) {env : Environment}
    {s : Session} (hok : (run ["run", path] env s).1 = .ok ()) :
    ∃ t, (run ["run", path] env s).2.files.find output =
      .ok (some (.file (.bytes (Utf8.encodeLone t)))) := by
  rcases run_cases hname env s with ⟨⟨e, he⟩, -⟩ | ⟨place, t, htarget, hwritten⟩
  · cases he.symm.trans hok
  · exact ⟨t, by rw [hwritten, Files.find_write htarget]⟩

/-- **A run keeps every file in its folder that has another name than its results.** -/
theorem find_of_run {root name other : Text} {folder : List Text} {content : Content}
    (hname : (Path.ofText path).results? = some ⟨root, folder ++ [other]⟩) (hne : name ≠ other)
    (hup : other ≠ Path.up) (env : Environment) {s : Session}
    (hfile : s.files.find ⟨root, folder ++ [name]⟩ = .ok (some (.file content))) :
    (run ["run", path] env s).2.files.find ⟨root, folder ++ [name]⟩ =
      .ok (some (.file content)) := by
  rcases run_files hname env s with hsame | ⟨place, t, htarget, hwritten⟩
  · rw [hsame, hfile]
  · obtain ⟨q, hq, -⟩ := Files.exists_resolve_of_find hfile
    obtain ⟨hplace, hdirectory⟩ := Files.target_eq_ok htarget
    rw [hwritten]
    exact (Files.find_put hdirectory _ hq (Files.resolve_ne_of_name hq hplace hne hup)).trans hfile

/-- **Two runs keep the results of both** unless the names of their inputs are alike. Let two names
of files that can be sent be given in one folder. The results for both have a path, and the two
paths are the same exactly if the names begin with equally many dots and behind these differ only
in that one has an underscore where the other has a dot. If they are not the same, then after a run
on one input and a later one on the other, with the files that the first has left, the results of
the first run are there as it left them; and each run that succeeds leaves results. -/
theorem runs_keep_results {root a b : Text} {folder : List Text} (ha : Batch.IsName a)
    (hb : Batch.IsName b) :
    let input : Path := ⟨root, folder ++ [a]⟩
    let other : Path := ⟨root, folder ++ [b]⟩
    ∃ output otherOutput, input.results? = some output ∧ other.results? = some otherOutput ∧
      (output = otherOutput ↔ Path.Alike a b) ∧
      (output ≠ otherOutput → ∀ (path otherPath : Text) (env otherEnv : Environment)
        (s later : Session), Path.ofText path = input → Path.ofText otherPath = other →
        let first := run ["run", path] env s
        let second := run ["run", otherPath] otherEnv later
        later.files = first.2.files →
        (∀ content, first.2.files.find output = .ok (some (.file content)) →
          second.2.files.find output = .ok (some (.file content))) ∧
        (first.1 = .ok () → ∃ content, first.2.files.find output = .ok (some (.file content))) ∧
        (second.1 = .ok () →
          ∃ content, second.2.files.find otherOutput = .ok (some (.file content)))) := by
  intro input other
  have hinput := Path.results?_concat root folder a
  have hother := Path.results?_concat root folder b
  refine ⟨_, _, hinput, hother, ?_, ?_⟩
  · rw [← Path.resultsName_eq_iff ha.ne_nil ha.not_dot_suffix hb.ne_nil hb.not_dot_suffix]
    simp
  · rintro hne path otherPath env otherEnv s later hpath hotherPath first second hlater
    have hnames : Path.resultsName a ≠ Path.resultsName b := fun heq => hne (by rw [heq])
    have hpathResults : (Path.ofText path).results? =
        some ⟨root, folder ++ [Path.resultsName a]⟩ := by rw [hpath, hinput]
    have hotherResults : (Path.ofText otherPath).results? =
        some ⟨root, folder ++ [Path.resultsName b]⟩ := by rw [hotherPath, hother]
    refine ⟨fun content hcontent => ?_, fun hok => ?_, fun hok => ?_⟩
    · rw [← hlater] at hcontent
      exact find_of_run hotherResults hnames (Path.resultsName_ne_up hb.ne_nil) otherEnv hcontent
    · obtain ⟨t, ht⟩ := find_results hpathResults hok
      exact ⟨_, ht⟩
    · obtain ⟨t, ht⟩ := find_results hotherResults hok
      exact ⟨_, ht⟩

/-- The same stem with two extensions. -/
theorem runs_keep_results_two_extensions :
    let lines : Entry := .file (.bytes (Utf8.encodeLone "1\n"))
    let files : Files := ⟨[], [([("a.txt" : Text)], lines), ([("a.jsonl" : Text)], lines)]⟩
    let results : Entry := .file (.bytes (Utf8.encodeLone "1 = 1.0\n"))
    let first := run ["run", "a.txt"] [] (Session.fresh files (.replies []) 0)
    let second := run ["run", "a.jsonl"] [] (Session.fresh first.2.files (.replies []) 0)
    Batch.IsName "a.txt" ∧ Batch.IsName "a.jsonl" ∧ ¬Path.Alike "a.txt" "a.jsonl" ∧
      first.2.files.find (Path.ofText "a_txt_results.txt") = .ok (some results) ∧
      second.2.files.find (Path.ofText "a_txt_results.txt") = .ok (some results) := by
  intro lines files results first second
  have ha : Batch.IsName "a.txt" := ⟨"a", ".txt", by decide, by decide, rfl⟩
  have hb : Batch.IsName "a.jsonl" := ⟨"a", ".jsonl", by decide, by decide, rfl⟩
  have hfirst : first.2.files.find (Path.ofText "a_txt_results.txt") = .ok (some results) := by
    decide +kernel
  obtain ⟨output, otherOutput, houtput, hother, hiff, hkeep⟩ :=
    @runs_keep_results [] "a.txt" "a.jsonl" [] ha hb
  have hresults : output = Path.ofText "a_txt_results.txt" :=
    Option.some.inj (houtput.symm.trans (by decide +kernel))
  have hotherResults : otherOutput = Path.ofText "a_jsonl_results.txt" :=
    Option.some.inj (hother.symm.trans (by decide +kernel))
  have hne : output ≠ otherOutput := by
    rw [hresults, hotherResults]
    decide +kernel
  refine ⟨ha, hb, fun halike => hne (hiff.2 halike), hfirst, ?_⟩
  rw [← hresults] at hfirst ⊢
  exact (hkeep hne "a.txt" "a.jsonl" [] [] (Session.fresh files (.replies []) 0)
    (Session.fresh first.2.files (.replies []) 0) (by decide +kernel) (by decide +kernel) rfl).1
    _ hfirst

/-- Two names that differ in a dot before the extension share their results, and the second run
leaves its own in place of those of the first. -/
theorem runs_share_results_inner_dot :
    let one : Entry := .file (.bytes (Utf8.encodeLone "1\n"))
    let two : Entry := .file (.bytes (Utf8.encodeLone "2\n"))
    let files : Files := ⟨[], [([("a.b.txt" : Text)], one), ([("a_b.txt" : Text)], two)]⟩
    let first := run ["run", "a.b.txt"] [] (Session.fresh files (.replies []) 0)
    let second := run ["run", "a_b.txt"] [] (Session.fresh first.2.files (.replies []) 0)
    let output := Path.ofText "a_b_txt_results.txt"
    Batch.IsName "a.b.txt" ∧ Batch.IsName "a_b.txt" ∧ ("a.b.txt" : Text) ≠ "a_b.txt" ∧
      (Path.ofText "a.b.txt").results? = some output ∧
      (Path.ofText "a_b.txt").results? = some output ∧
      first.2.files.find output =
        .ok (some (.file (.bytes (Utf8.encodeLone "1 = 1.0\n")))) ∧
      second.2.files.find output =
        .ok (some (.file (.bytes (Utf8.encodeLone "2 = 2.0\n")))) :=
  ⟨⟨"a.b", ".txt", by decide, by decide, rfl⟩, ⟨"a_b", ".txt", by decide, by decide, rfl⟩,
    by decide, by decide +kernel, by decide +kernel, by decide +kernel, by decide +kernel⟩

end Program

end Abacus
