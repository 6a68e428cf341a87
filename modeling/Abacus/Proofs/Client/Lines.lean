import Mathlib
import Abacus.Proofs.Client.Results
import Abacus.Proofs.Json.Layout

/-!
# Texts of JSON on lines of their own

A batch is made of texts of JSON, one on each line. Three code points end a line and may stand in a
string of JSON as they are. A text without them is sent as it is, and gets one record. A text that
holds one of them is cut apart inside a string, so that more is counted than there are texts.

* `IsRawBreak`, `IsJsonLine`: the three code points, and texts of JSON on lines of their own;
* `IsJsonLine.exists_quotes`: whatever ends a line in such a text is one of the three, in a string;
* `IsJsonLine.entries_eq`, `IsJsonLine.two_le_length_entries`: the entries of such a text;
* `length_flatMap_entries`: those of several;
* `Client.sendFile_texts`: a batch that is made of them.
-/

namespace Abacus

/-- The code points that end a line and may stand in a string of JSON as they are: U+0085, U+2028
and U+2029. -/
def IsRawBreak (c : CodePoint) : Prop := c.val = 0x85 ∨ c.val = 0x2028 ∨ c.val = 0x2029

/-- A text of JSON without line feeds and carriage returns. -/
structure IsJsonLine (t : Text) : Prop where
  valid : ∃ v, Json.ofText t = .ok v
  noFeed : CodePoint.ofChar '\n' ∉ t
  noReturn : CodePoint.ofChar '\r' ∉ t

/-- No code point of a text is a raw break. -/
def IsUnbroken (t : Text) : Prop := ∀ c ∈ t, ¬IsRawBreak c

theorem IsRawBreak.isLineBreak {c : CodePoint} (h : IsRawBreak c) : c.isLineBreak = true := by
  simp only [IsRawBreak, CodePoint.isLineBreak, Bool.or_eq_true, Bool.and_eq_true,
    decide_eq_true_eq] at *
  omega

namespace IsJsonLine

variable {t : Text}

theorem laidOut (h : IsJsonLine t) : Json.LaidOut t :=
  let ⟨_, hv⟩ := h.valid
  (Json.ofDecoded_eq_ok_iff.1 (Json.ofDecoded_of_ofText hv)).laidOut

theorem exists_isVisible (h : IsJsonLine t) : ∃ c ∈ t, Json.IsVisible c :=
  let ⟨_, hv⟩ := h.valid
  (Json.ofDecoded_eq_ok_iff.1 (Json.ofDecoded_of_ofText hv)).exists_isVisible

/-- **What ends a line in a text of JSON is a raw break between quotes.** -/
theorem exists_quotes (h : IsJsonLine t) {c : CodePoint} (hc : c ∈ t)
    (hbreak : c.isLineBreak = true) :
    IsRawBreak c ∧
      ∃ a b, t = a ++ c :: b ∧ CodePoint.ofChar '"' ∈ a ∧ CodePoint.ofChar '"' ∈ b := by
  have hvisible : ¬Json.IsVisible c :=
    Json.not_isVisible_of_isBlank (CodePoint.isBlank_of_isLineBreak hbreak)
  have hspace : Json.Token.isSpace c = false := by
    rw [Json.Token.isSpace, ← Bool.not_eq_true]
    simp only [Bool.or_eq_true, decide_eq_true_eq]
    rintro (((rfl | rfl) | rfl) | rfl)
    · exact absurd hbreak (by decide)
    · exact absurd hbreak (by decide)
    · exact h.noFeed hc
    · exact h.noReturn hc
  obtain ⟨a, b, ht⟩ := List.append_of_mem hc
  obtain ⟨hcontrol, ha, hb⟩ := h.laidOut.quoted ht hspace hvisible
  refine ⟨?_, a, b, ht, ha, hb⟩
  simp only [CodePoint.isLineBreak, Bool.or_eq_true, Bool.and_eq_true, decide_eq_true_eq] at hbreak
  rw [IsRawBreak]
  omega

/-- A text without raw breaks is its own entry. -/
theorem entries_eq (h : IsJsonLine t) (hunbroken : IsUnbroken t) : t.entries = [t.trim] := by
  obtain ⟨c, hc, hvisible⟩ := h.exists_isVisible
  refine Text.entries_of_singleLine (fun d hd => ?_) hc ?_
  · exact Bool.eq_false_iff.2 fun hbreak => hunbroken d hd (h.exists_quotes hd hbreak).1
  · exact Bool.eq_false_iff.2 fun hblank => Json.not_isVisible_of_isBlank hblank hvisible

/-- **A text with a raw break has several entries**: one ends before it and another begins after
it. -/
theorem two_le_length_entries (h : IsJsonLine t) (hbroken : ¬IsUnbroken t) :
    2 ≤ t.entries.length := by
  simp only [IsUnbroken, not_forall, not_not] at hbroken
  obtain ⟨c, hc, hraw⟩ := hbroken
  obtain ⟨-, a, b, rfl, ha, hb⟩ := h.exists_quotes hc hraw.isLineBreak
  have hquote : (CodePoint.ofChar '"').isBlank = false := by decide
  have hfront := Text.entries_ne_nil (fun hr => h.noReturn (List.mem_append_left _ hr)) ha hquote
  have hback := Text.entries_ne_nil
    (fun hr => h.noReturn (List.mem_append_right _ (List.mem_cons_of_mem _ hr))) hb hquote
  rw [Text.entries_append_cons hraw.isLineBreak h.noReturn, List.length_append]
  have := List.length_pos_of_ne_nil hfront
  have := List.length_pos_of_ne_nil hback
  omega

end IsJsonLine

/-- **The entries of texts of JSON** are no fewer than the texts, and no more only if none of them
holds a raw break. -/
theorem length_flatMap_entries {texts : List Text} (h : ∀ t ∈ texts, IsJsonLine t) :
    texts.length ≤ (texts.flatMap Text.entries).length ∧
      ((texts.flatMap Text.entries).length = texts.length ↔ ∀ t ∈ texts, IsUnbroken t) := by
  induction texts with
  | nil => simp
  | cons t texts ih =>
    obtain ⟨ht, htexts⟩ := List.forall_mem_cons.1 h
    obtain ⟨hle, hiff⟩ := ih htexts
    rw [List.flatMap_cons, List.length_append, List.length_cons, List.forall_mem_cons, ← hiff]
    by_cases hunbroken : IsUnbroken t
    · rw [ht.entries_eq hunbroken, List.length_singleton]
      exact ⟨by omega, by simp only [hunbroken, true_and]; omega⟩
    · have htwo := ht.two_le_length_entries hunbroken
      exact ⟨by omega, by simp only [hunbroken, false_and, iff_false]; omega⟩

theorem flatMap_entries_eq {texts : List Text} (h : ∀ t ∈ texts, IsJsonLine t)
    (hunbroken : ∀ t ∈ texts, IsUnbroken t) : texts.flatMap Text.entries = texts.map Text.trim := by
  rw [List.map_eq_flatMap]
  exact List.flatMap_congr fun t ht => (h t ht).entries_eq (hunbroken t ht)

/-- Texts of JSON are posted without the blanks around them. -/
theorem Batch.posts_trim {texts : List Text} (h : ∀ t ∈ texts, IsJsonLine t) (url : Url)
    (reached : Bool) :
    posts url reached (texts.map Text.trim) =
      texts.map fun t => .call (Question.calculation url (Utf8.encodeLone t.trim)) reached := by
  have hvalid : ∀ line ∈ texts.map Text.trim, isValid line = true := by
    simp only [List.forall_mem_map]
    intro t ht
    obtain ⟨v, hv⟩ := (h t ht).valid
    exact isValid_eq_true_iff.2 ⟨v, Json.ofText_trim hv⟩
  rw [posts, List.filter_eq_self.2 hvalid, List.map_map]
  rfl

namespace Client

/-- **A batch of texts of JSON, one on each line.** A client whose address can be used sends a
service a file of such texts, joined by line feeds. It counts no fewer lines than there are texts,
and as many only if no text holds a raw break. Then each text is posted once, in order, without the
blanks around it, and each gets the record for it evaluated in place. -/
theorem sendFile_texts {c : Client} {url : Url} (hurl : Url.ofText c.address = .ok url)
    (hquery : url.query = none) {settings : Settings} {s : Session} (hs : s.Serves settings)
    {input output : Path} {texts : List Text} (htexts : ∀ t ∈ texts, IsJsonLine t)
    (hcontent : Batch.content s.files input = .ok (Text.joinWith "\n" texts)) {place : Place}
    (hplace : s.files.target output = .ok place) :
    ∃ n, (c.sendFile input output s).1 = .ok n ∧ texts.length ≤ n ∧
      (n = texts.length ↔ ∀ t ∈ texts, IsUnbroken t) ∧
      ((∀ t ∈ texts, IsUnbroken t) →
        (c.sendFile input output s).2.events = s.events ++ .connect c.address ::
            texts.map (fun t => .call (Question.calculation url (Utf8.encodeLone t.trim)) true) ∧
          ∃ records,
            List.Forall₂ (fun t record => LocalRecord settings.depth t.trim record) texts records ∧
            (c.sendFile input output s).2.files = s.files.write place records.flatten) := by
  have hentries := Text.entries_joinWith fun t ht => (htexts t ht).noReturn
  obtain ⟨hle, hiff⟩ := length_flatMap_entries htexts
  obtain ⟨records, hrecords, hcount, hfiles, hevents⟩ :=
    sendFile_sends hurl hquery hs hcontent hplace
  rw [hentries] at hrecords hcount hevents
  refine ⟨_, hcount, hle, hiff, fun hunbroken => ?_⟩
  rw [flatMap_entries_eq htexts hunbroken] at hrecords hevents
  rw [Batch.posts_trim htexts] at hevents
  exact ⟨hevents, records, List.forall₂_map_left_iff.1 hrecords, hfiles⟩

/-- One text with a raw break in a string that nothing reads: two lines are counted. -/
theorem sendFile_texts_next_line :
    let t : Text := "\x7b\"op\":\"add\",\"args\":[1,2],\"note\":\"a\u0085b\"\x7d"
    let files : Files := ⟨[], [([("in.jsonl" : Text)], .file (.bytes (Utf8.encodeLone t)))]⟩
    let s := Session.fresh files (.service .standard) 0
    IsJsonLine t ∧
      ∃ n, (standard.sendFile (Path.ofText "in.jsonl") (Path.ofText "out.txt") s).1 = .ok n ∧
        n ≠ 1 := by
  intro t files s
  have hs : s.Serves .standard := ⟨rfl, rfl⟩
  have hvalid : Batch.isValid t = true := by decide +kernel
  have hline : IsJsonLine t :=
    ⟨Batch.isValid_eq_true_iff.1 hvalid, by decide +kernel, by decide +kernel⟩
  have hread : files.readText (Path.ofText "in.jsonl") = .ok t := by decide +kernel
  have hcontent : Batch.content files (Path.ofText "in.jsonl") = .ok (Text.joinWith "\n" [t]) := by
    rw [Batch.content, if_pos (by decide), hread]
    rfl
  have hplace : files.target (Path.ofText "out.txt") = .ok [("out.txt" : Text)] := by
    decide +kernel
  have hurl := @Url.ofText_address standard 0x7F000001 rfl (by decide)
  obtain ⟨n, hcount, -, hiff, -⟩ :=
    sendFile_texts hurl rfl hs (List.forall_mem_singleton.2 hline) hcontent hplace
  refine ⟨hline, n, hcount, fun hn => ?_⟩
  have hunbroken := hiff.1 hn t List.mem_cons_self
  exact hunbroken 0x85 (by decide +kernel) (.inl rfl)

end Client

end Abacus
