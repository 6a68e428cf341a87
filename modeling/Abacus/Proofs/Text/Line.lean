import Mathlib
import Abacus.Proofs.Text.Cutting
import Abacus.Proofs.Text.Printable

/-!
# Lines and entries

A text on one line stays whole when a text is cut into lines, and texts on one line that each get a
line feed at their end are the lines of what they make together. An end of a line separates the
entries before it from those after it, and a text has an entry wherever it has something that is
not blank.

* `lines_flatten`: the lines of texts that are put under one another;
* `singleLine_of_mem_entries`: every entry is on one line;
* `entries_append_cons`, `entries_joinWith`: the entries of texts with an end of a line between
  them;
* `entries_of_singleLine`, `entries_ne_nil`: the entry of a text on one line, and texts with
  entries.
-/

namespace Abacus

/-- What ends a line is blank. -/
theorem CodePoint.isBlank_of_isLineBreak {c : CodePoint} (h : c.isLineBreak = true) :
    c.isBlank = true := by
  simp only [isLineBreak, isBlank, blanks, List.any_cons, List.any_nil, Bool.or_eq_true,
    Bool.and_eq_true, decide_eq_true_eq, Bool.or_false] at *
  omega

namespace Text

variable {c : CodePoint} {t u : Text}

/-! ## Lines -/

theorem SingleLine.subset (ht : t.SingleLine) (h : ∀ c ∈ u, c ∈ t) : u.SingleLine :=
  fun c hc => ht c (h c hc)

theorem SingleLine.notMem_return (ht : t.SingleLine) : CodePoint.ofChar '\r' ∉ t :=
  fun h => absurd (ht _ h) (by decide)

/-- A text without carriage returns has its newlines in their usual form. -/
theorem normalizeNewlines_of_notMem (ht : CodePoint.ofChar '\r' ∉ t) : normalizeNewlines t = t := by
  induction t with
  | nil => rfl
  | cons x t ih =>
    obtain ⟨hx, ht⟩ := not_or.1 (mt List.mem_cons.2 ht)
    cases t with
    | nil => rw [normalizeNewlines.eq_2, if_neg (Ne.symm hx), ih ht]
    | cons y t => rw [normalizeNewlines.eq_3, if_neg (Ne.symm hx), ih ht]

theorem cutLines_eq_nil_iff : cutLines t = [] ↔ t = [] := by
  cases t with
  | nil => simp [cutLines]
  | cons x t =>
    rw [cutLines]
    split_ifs
    · simp
    · cases cutLines t <;> simp

theorem cutLines_cons_of_isLineBreak (hc : c.isLineBreak = true) (t : Text) :
    cutLines (c :: t) = [] :: cutLines t := by
  rw [cutLines, if_pos hc]

theorem cutLines_singleton (hc : c.isLineBreak = false) : cutLines [c] = [[c]] := by
  rw [cutLines, if_neg (Bool.eq_false_iff.1 hc), cutLines]

theorem cutLines_cons (hc : c.isLineBreak = false) {line : Text} {lines : List Text}
    (h : cutLines t = line :: lines) : cutLines (c :: t) = (c :: line) :: lines := by
  rw [cutLines, if_neg (Bool.eq_false_iff.1 hc), h]

/-- A text on one line is one line. -/
theorem cutLines_of_singleLine (ht : t.SingleLine) (hne : t ≠ []) : cutLines t = [t] := by
  induction t with
  | nil => exact absurd rfl hne
  | cons x t ih =>
    obtain ⟨hx, ht⟩ := List.forall_mem_cons.1 ht
    cases t with
    | nil => exact cutLines_singleton hx
    | cons y t => exact cutLines_cons hx (ih ht (List.cons_ne_nil _ _))

/-- The first line ends where a line ends first. -/
theorem cutLines_append (ht : t.SingleLine) (hc : c.isLineBreak = true) (u : Text) :
    cutLines (t ++ c :: u) = t :: cutLines u := by
  induction t with
  | nil => exact cutLines_cons_of_isLineBreak hc u
  | cons x t ih =>
    obtain ⟨hx, ht⟩ := List.forall_mem_cons.1 ht
    exact cutLines_cons hx (ih ht)

/-- **Texts on one line, put under one another, are the lines of what they make.** -/
theorem lines_flatten {ts : List Text} (h : ∀ t ∈ ts, SingleLine t) :
    lines (ts.map (· ++ ("\n" : Text))).flatten = ts := by
  have hreturn : CodePoint.ofChar '\r' ∉ (ts.map (· ++ ("\n" : Text))).flatten := by
    rw [List.mem_flatten]
    rintro ⟨_, hmem, hr⟩
    obtain ⟨t, ht, rfl⟩ := List.mem_map.1 hmem
    rcases List.mem_append.1 hr with hr | hr
    · exact (h t ht).notMem_return hr
    · exact absurd hr (by decide)
  rw [lines, normalizeNewlines_of_notMem hreturn]
  clear hreturn
  induction ts with
  | nil => rfl
  | cons t ts ih =>
    obtain ⟨ht, hts⟩ := List.forall_mem_cons.1 h
    have hend : (CodePoint.ofChar '\n').isLineBreak = true := by decide
    rw [List.map_cons, List.flatten_cons, List.append_assoc]
    exact (cutLines_append ht hend _).trans (congrArg (t :: ·) (ih hts))

theorem singleLine_of_mem_cutLines {line : Text} (h : line ∈ cutLines t) : line.SingleLine := by
  induction t generalizing line with
  | nil => exact absurd h List.not_mem_nil
  | cons x t ih =>
    rw [cutLines] at h
    split_ifs at h with hx
    · rcases List.mem_cons.1 h with rfl | h
      · exact fun _ hc => absurd hc List.not_mem_nil
      · exact ih h
    · have hx : x.isLineBreak = false := Bool.eq_false_iff.2 hx
      cases hlines : cutLines t with
      | nil =>
        rw [hlines, List.mem_singleton] at h
        rw [h]
        exact List.forall_mem_singleton.2 hx
      | cons first lines =>
        rw [hlines] at h ih
        rcases List.mem_cons.1 h with rfl | h
        · exact List.forall_mem_cons.2 ⟨hx, ih List.mem_cons_self⟩
        · exact ih (List.mem_cons_of_mem _ h)

/-- **Every entry is on one line.** -/
theorem singleLine_of_mem_entries {line : Text} (h : line ∈ t.entries) : line.SingleLine := by
  obtain ⟨untrimmed, hmem, rfl⟩ := List.mem_map.1 (List.mem_of_mem_filter h)
  exact (singleLine_of_mem_cutLines hmem).subset fun _ => mem_of_mem_trim

/-! ## Entries -/

/-- A line ends between the lines before and after it, but for one blank line perhaps. -/
theorem exists_cutLines_eq (hc : c.isLineBreak = true) (t u : Text) :
    ∃ between, (∀ line ∈ between, line = []) ∧
      cutLines (t ++ c :: u) = cutLines t ++ between ++ cutLines u := by
  induction t with
  | nil => exact ⟨[[]], by simp, cutLines_cons_of_isLineBreak hc u⟩
  | cons x t ih =>
    obtain ⟨between, hbetween, heq⟩ := ih
    cases hx : x.isLineBreak with
    | true =>
      refine ⟨between, hbetween, ?_⟩
      rw [List.cons_append, cutLines_cons_of_isLineBreak hx, cutLines_cons_of_isLineBreak hx, heq]
      rfl
    | false =>
      cases hlines : cutLines t with
      | nil =>
        obtain rfl := cutLines_eq_nil_iff.1 hlines
        refine ⟨[], by simp, ?_⟩
        rw [cutLines_singleton hx]
        exact cutLines_cons hx (cutLines_cons_of_isLineBreak hc u)
      | cons line lines =>
        have hrest : cutLines (t ++ c :: u) = line :: (lines ++ between ++ cutLines u) := by
          rw [heq, hlines]
          rfl
        refine ⟨between, hbetween, ?_⟩
        rw [cutLines_cons hx hlines]
        exact cutLines_cons hx hrest

theorem entries_eq (ht : CodePoint.ofChar '\r' ∉ t) :
    t.entries = ((cutLines t).map trim).filter fun line => !line.isEmpty := by
  rw [entries, lines, normalizeNewlines_of_notMem ht]

/-- **An end of a line separates entries.** -/
theorem entries_append_cons (hc : c.isLineBreak = true)
    (h : CodePoint.ofChar '\r' ∉ t ++ c :: u) : entries (t ++ c :: u) = t.entries ++ u.entries := by
  obtain ⟨between, hbetween, heq⟩ := exists_cutLines_eq hc t u
  have ht : CodePoint.ofChar '\r' ∉ t := fun hmem => h (List.mem_append_left _ hmem)
  have hu : CodePoint.ofChar '\r' ∉ u := fun hmem =>
    h (List.mem_append_right _ (List.mem_cons_of_mem _ hmem))
  have hblank : (between.map trim).filter (fun line => !line.isEmpty) = [] := by
    rw [List.filter_eq_nil_iff]
    simp only [List.forall_mem_map]
    intro line hline
    rw [hbetween line hline]
    decide
  rw [entries_eq h, entries_eq ht, entries_eq hu, heq, List.map_append, List.map_append,
    List.filter_append, List.filter_append, hblank, List.append_nil]

/-- The entries of texts that are joined by line feeds are those of each. -/
theorem entries_joinWith {ts : List Text} (h : ∀ t ∈ ts, CodePoint.ofChar '\r' ∉ t) :
    entries (joinWith "\n" ts) = ts.flatMap entries := by
  induction ts with
  | nil => rfl
  | cons t ts ih =>
    obtain ⟨ht, hts⟩ := List.forall_mem_cons.1 h
    cases ts with
    | nil => simp [joinWith]
    | cons u ts =>
      have hend : (CodePoint.ofChar '\n').isLineBreak = true := by decide
      have hjoin : joinWith "\n" (t :: u :: ts) =
          t ++ CodePoint.ofChar '\n' :: joinWith "\n" (u :: ts) := by
        rw [joinWith]
        · exact List.append_assoc _ _ _
        · simp
      have hreturn : CodePoint.ofChar '\r' ∉ joinWith "\n" (t :: u :: ts) := fun hmem => by
        rcases mem_joinWith hmem with hmem | ⟨v, hv, hmem⟩
        · exact absurd hmem (by decide)
        · exact h v hv hmem
      rw [hjoin] at hreturn ⊢
      rw [entries_append_cons hend hreturn, ih hts]
      rfl

/-- Trimming leaves something of a text that is not blank. -/
theorem trim_ne_nil (hmem : c ∈ t) (hc : c.isBlank = false) : t.trim ≠ [] :=
  List.ne_nil_of_mem (mem_trimWith hmem hc)

/-- A text on one line that is not blank has itself for its entry. -/
theorem entries_of_singleLine (ht : t.SingleLine) (hmem : c ∈ t) (hc : c.isBlank = false) :
    t.entries = [t.trim] := by
  rw [entries_eq ht.notMem_return, cutLines_of_singleLine ht (List.ne_nil_of_mem hmem),
    List.map_singleton, List.filter_singleton, List.isEmpty_eq_false_iff.2 (trim_ne_nil hmem hc)]
  rfl

/-- A code point that is not blank stands on some line. -/
theorem exists_mem_cutLines (hmem : c ∈ t) (hc : c.isLineBreak = false) :
    ∃ line ∈ cutLines t, c ∈ line := by
  induction t with
  | nil => exact absurd hmem List.not_mem_nil
  | cons x t ih =>
    cases hx : x.isLineBreak with
    | true =>
      rw [cutLines_cons_of_isLineBreak hx]
      rcases List.mem_cons.1 hmem with rfl | hmem
      · rw [hx] at hc
        cases hc
      · obtain ⟨line, hline, hmem⟩ := ih hmem
        exact ⟨line, List.mem_cons_of_mem _ hline, hmem⟩
    | false =>
      cases hlines : cutLines t with
      | nil =>
        obtain rfl := cutLines_eq_nil_iff.1 hlines
        exact ⟨[x], by rw [cutLines_singleton hx]; exact List.mem_singleton_self _, hmem⟩
      | cons first lines =>
        rw [cutLines_cons hx hlines]
        rcases List.mem_cons.1 hmem with rfl | hmem
        · exact ⟨_, List.mem_cons_self, List.mem_cons_self⟩
        · obtain ⟨line, hline, hmem⟩ := ih hmem
          rw [hlines] at hline
          rcases List.mem_cons.1 hline with rfl | hline
          · exact ⟨_, List.mem_cons_self, List.mem_cons_of_mem _ hmem⟩
          · exact ⟨line, List.mem_cons_of_mem _ hline, hmem⟩

/-- **A text with something that is not blank has an entry.** -/
theorem entries_ne_nil (ht : CodePoint.ofChar '\r' ∉ t) (hmem : c ∈ t) (hc : c.isBlank = false) :
    t.entries ≠ [] := by
  have hbreak : c.isLineBreak = false :=
    Bool.eq_false_iff.2 fun h => Bool.eq_false_iff.1 hc (CodePoint.isBlank_of_isLineBreak h)
  obtain ⟨line, hline, hmem⟩ := exists_mem_cutLines hmem hbreak
  have hkept : (!line.trim.isEmpty) = true := by
    rw [List.isEmpty_eq_false_iff.2 (trim_ne_nil hmem hc)]
    rfl
  rw [entries_eq ht]
  exact List.ne_nil_of_mem (List.mem_filter.2 ⟨List.mem_map_of_mem hline, hkept⟩)

end Text

end Abacus
