import Mathlib
import Abacus.Client.Batch
import Abacus.Proofs.Archive

/-!
# Batches in archives

* `Client.sendFile_unpacks`: a batch in an archive is sent like its first expression file, whatever
  the format of the archive and whatever else is in it, unless the format refuses its name;
  `Client.unpack_drive`: a name that one format refuses.
-/

namespace Abacus

open Files (pathError?)
open Unpacking (Sound expressionSuffixes firstExpressionFile? format? leadsOut ofContent textOf
  unpack)

/-- The text of an archive is what its content gives. -/
theorem Unpacking.unpack_eq {files : Files} {p : Path} {a : Archive}
    (hformat : format? p = some a.format) (hcontent : files.content p = .ok (.archive a)) :
    unpack files p = ofContent a.format (.archive a) := by
  rw [unpack, hformat, hcontent]
  rfl

theorem Batch.content_eq_unpack {files : Files} {p : Path} {format : ArchiveFormat}
    (hformat : format? p = some format) :
    Batch.content files p = (unpack files p).mapError .unpacking := by
  rw [Batch.content, Unpacking.suffix_of_format? hformat, if_neg Bool.false_ne_true]

theorem Batch.content_eq_of_bytes {files : Files} {p : Path} {data : Bytes} {t : Text}
    (hsuffix : expressionSuffixes.contains p.suffix = true)
    (hcontent : files.content p = .ok (.bytes data)) (ht : Utf8.decode? data = some t) :
    Batch.content files p = .ok (Text.normalizeNewlines t) := by
  rw [Batch.content, if_pos hsuffix, Files.readText_of_content hcontent ht]
  rfl

namespace Client

/-- A batch whose text cannot be had is not sent. -/
theorem sendFile_of_error {input : Path} {s : Session} {e : ClientError}
    (h : Batch.content s.files input = .error e) (c : Client) (output : Path) :
    c.sendFile input output s = (.error e, s) := by
  rw [sendFile, h]

/-- **The format of an archive does not matter**, but for names that one format refuses. Files are
packed in some order, with whatever else a tape archive may hold between them. If one of them is an
expression file, then the archive gives the text of the first one, and a batch from the archive goes
as it does from that file: the same calls, the same records, the same number. If its name cannot be
followed in the file system, the archive fails with that error in every format, and if the format
takes names for paths and this one for a path that leads out, then the archive counts as malformed.
If there is no expression file, it fails for that reason. When it fails, nothing else happens. -/
theorem sendFile_unpacks {members : List (Text × Bytes)} (hmembers : Sound members) {a : Archive}
    (ha : a.files = members) {s : Session} {packed : Path}
    (hformat : format? packed = some a.format)
    (hcontent : s.files.content packed = .ok (.archive a)) (c : Client) (output : Path) :
    let fails (e : UnpackingError) : Prop :=
      unpack s.files packed = .error e ∧
        c.sendFile packed output s = (.error (.unpacking e), s)
    match firstExpressionFile? members with
    | none => fails (.noExpressionFile a.format)
    | some (name, data) =>
      ∃ text, Utf8.decode? data = some text ∧
        if a.format = .sevenZip ∧ leadsOut name = true then fails (.malformed .sevenZip)
        else
          match pathError? (Path.ofText name) with
          | some e => fails (.access e)
          | none =>
            unpack s.files packed = .ok (Text.normalizeNewlines text) ∧
              ∀ plain, expressionSuffixes.contains plain.suffix = true →
                s.files.content plain = .ok (.bytes data) →
                c.sendFile packed output s = c.sendFile plain output s := by
  intro fails
  subst ha
  have hunpack := Unpacking.unpack_eq hformat hcontent
  have hfails : ∀ e, ofContent a.format (.archive a) = .error e → fails e := by
    intro e he
    rw [he] at hunpack
    refine ⟨hunpack, sendFile_of_error ?_ c output⟩
    rw [Batch.content_eq_unpack hformat, hunpack]
    rfl
  cases hfirst : firstExpressionFile? a.files with
  | none => exact hfails _ (Unpacking.ofContent_of_none hmembers hfirst)
  | some m =>
    obtain ⟨name, data⟩ := m
    obtain ⟨text, htext⟩ := Option.isSome_iff_exists.1
      (hmembers.texts _ (List.mem_of_find?_eq_some hfirst))
    have houtcome := Unpacking.ofContent_of_some hmembers hfirst htext
    refine ⟨text, htext, ?_⟩
    by_cases hrefused : a.format = .sevenZip ∧ leadsOut name = true
    · rw [if_pos hrefused] at houtcome ⊢
      exact hfails _ houtcome
    · rw [if_neg hrefused, textOf] at houtcome
      rw [if_neg hrefused]
      cases herror : pathError? (Path.ofText name) with
      | some e =>
        rw [herror] at houtcome
        exact hfails _ houtcome
      | none =>
        rw [herror] at houtcome
        have hok := hunpack.trans houtcome
        refine ⟨hok, fun plain hsuffix hplain => ?_⟩
        have hpacked : Batch.content s.files packed = .ok (Text.normalizeNewlines text) := by
          rw [Batch.content_eq_unpack hformat, hok]
          rfl
        rw [sendFile, sendFile, hpacked, Batch.content_eq_of_bytes hsuffix hplain htext]

/-- A tape archive in which a directory, a link to a file and a file without expressions stand
before the batch. -/
theorem sendFile_unpacks_after_decoys :
    let data : Bytes := Utf8.encodeLone "[1]\r\n"
    let members : List (Text × Bytes) := [("notes.md", Utf8.encodeLone "1"), ("in/a.jsonl", data)]
    let a : Archive := .tarXz
      [⟨"b.txt", .directory⟩, ⟨"notes.md", .file (Utf8.encodeLone "1")⟩,
        ⟨"../c.txt", .symbolicLink "in/a.jsonl"⟩, ⟨"in/a.jsonl", .hardLink "notes.md"⟩,
        ⟨"in/a.jsonl", .file data⟩]
    let files : Files :=
      ⟨[], [([("a.tar.xz" : Text)], .file (.archive a)), ([("a.txt" : Text)], .file (.bytes data))]⟩
    let s := Session.fresh files (.service .standard) 0
    Sound members ∧ a.files = members ∧
      format? (Path.ofText "a.tar.xz") = some a.format ∧
      unpack files (Path.ofText "a.tar.xz") = .ok ("[1]\n" : Text) ∧
      standard.sendFile (Path.ofText "a.tar.xz") (Path.ofText "out.txt") s =
        standard.sendFile (Path.ofText "a.txt") (Path.ofText "out.txt") s := by
  intro data members a files s
  have hmembers : Sound members :=
    ⟨by decide +kernel, by decide +kernel, by decide +kernel⟩
  have hformat : format? (Path.ofText "a.tar.xz") = some a.format := by decide +kernel
  have hfirst : firstExpressionFile? members = some (("in/a.jsonl" : Text), data) := by
    decide +kernel
  have hrefused : ¬(a.format = .sevenZip ∧ leadsOut ("in/a.jsonl" : Text) = true) := by
    decide +kernel
  have herror : pathError? (Path.ofText "in/a.jsonl") = none := by decide +kernel
  have hall := sendFile_unpacks hmembers (a := a) rfl (s := s) hformat (by decide +kernel)
    standard (Path.ofText "out.txt")
  rw [hfirst] at hall
  obtain ⟨text, htext, hall⟩ := hall
  dsimp only at hall
  rw [if_neg hrefused, herror] at hall
  obtain ⟨hunpack, hsend⟩ := hall
  have hread : text = ("[1]\r\n" : Text) := by
    have hdecode : Utf8.decode? data = some ("[1]\r\n" : Text) := by decide +kernel
    exact Option.some_injective _ (htext.symm.trans hdecode)
  refine ⟨hmembers, rfl, hformat, ?_, hsend _ (by decide +kernel) (by decide +kernel)⟩
  rw [hread] at hunpack
  exact hunpack

/-- One file with a colon in its name, packed in each format: two archives give its text, and the
third one counts as malformed. -/
theorem unpack_drive :
    let data : Bytes := Utf8.encodeLone "1\n"
    let members : List (Text × Bytes) := [("a:b.txt", data)]
    let files : Files :=
      ⟨[], [([("z.zip" : Text)], .file (.archive (.zip members))),
        ([("z.tar.xz" : Text)], .file (.archive (.tarXz [⟨"a:b.txt", .file data⟩]))),
        ([("z.7z" : Text)], .file (.archive (.sevenZip members)))]⟩
    Sound members ∧
      unpack files (Path.ofText "z.zip") = .ok ("1\n" : Text) ∧
      unpack files (Path.ofText "z.tar.xz") = .ok ("1\n" : Text) ∧
      unpack files (Path.ofText "z.7z") = .error (.malformed .sevenZip) := by
  intro data members files
  have hmembers : Sound members :=
    ⟨by decide +kernel, by decide +kernel, by decide +kernel⟩
  exact ⟨hmembers, by decide +kernel, by decide +kernel, by decide +kernel⟩

end Client

end Abacus
