import Mathlib
import Abacus.Archive.Unpacking
import Abacus.Proofs.Text.Cutting

/-!
# Paths and their texts

A path that a text writes is read back from its own text, so that a path may be handed on as a text.

* `Path.IsProper`, `Path.isProper_ofText`: the paths that texts write.
* `Path.ofText_text`: such a path is read back from its text.
* `Path.IsPlain`, `Path.ofText_of_isPlain`: the texts that are relative paths as they stand.
* `Path.suffixOf_of_suffixesOf`: the last of all extensions is the last extension.
* `Unpacking.suffix_of_format?`: a path that announces an archive is not that of an expression file.
-/

namespace Abacus

open Text (joinWith joinWith_splitOn mem_of_mem_splitOn splitOn splitOn_joinWith splitOn_ne_nil)

namespace Path

/-! ## Proper paths -/

/-- The paths that texts write: a root of at most two slashes, and parts that are neither empty nor
a single dot and hold no slash. -/
structure IsProper (p : Path) : Prop where
  root : p.root = [] ∨ p.root = [separator] ∨ p.root = [separator, separator]
  parts : ∀ part ∈ p.parts, part ≠ [] ∧ part ≠ "." ∧ separator ∉ part

theorem rootOf_cases (t : Text) :
    rootOf t = [] ∨ rootOf t = [separator] ∨ rootOf t = [separator, separator] := by
  rw [rootOf]
  split <;> simp

theorem mem_partsOf {t part : Text} (h : part ∈ partsOf t) :
    part ≠ [] ∧ part ≠ "." ∧ separator ∉ part := by
  obtain ⟨hmem, hpart⟩ := List.mem_filter.1 h
  rw [Bool.not_eq_true', Bool.or_eq_false_iff, List.isEmpty_eq_false_iff,
    decide_eq_false_iff_not] at hpart
  exact ⟨hpart.1, hpart.2, fun hc => (mem_of_mem_splitOn hmem hc).2 rfl⟩

theorem isProper_ofText (t : Text) : (ofText t).IsProper :=
  ⟨rootOf_cases t, fun _ hpart => mem_partsOf hpart⟩

/-! ## Reading a text back -/

variable {parts : List Text}

/-- Parts that are put together do not begin with a slash. -/
theorem takeWhile_joinWith (h : ∀ part ∈ parts, part ≠ [] ∧ separator ∉ part) :
    (joinWith [separator] parts).takeWhile (· = separator) = [] := by
  cases parts with
  | nil => rfl
  | cons part parts =>
    obtain ⟨hne, hsep⟩ := h part List.mem_cons_self
    obtain ⟨c, rest, rfl⟩ := List.exists_cons_of_ne_nil hne
    have hc : c ≠ separator := by
      rintro rfl
      exact hsep List.mem_cons_self
    have hhead : ∀ t : Text, (c :: t).takeWhile (· = separator) = [] := fun t =>
      List.takeWhile_cons_of_neg (by simpa using hc)
    cases parts with
    | nil => exact hhead rest
    | cons second parts => exact hhead _

/-- Parts that are put together are cut apart again. -/
theorem partsOf_joinWith (h : ∀ part ∈ parts, part ≠ [] ∧ part ≠ "." ∧ separator ∉ part) :
    partsOf (joinWith [separator] parts) = parts := by
  cases parts with
  | nil => rfl
  | cons part rest =>
    rw [partsOf, splitOn_joinWith (List.cons_ne_nil _ _) fun t ht => (h t ht).2.2,
      List.filter_eq_self]
    intro t ht
    obtain ⟨hne, hdot, -⟩ := h t ht
    rw [Bool.not_eq_true', Bool.or_eq_false_iff, List.isEmpty_eq_false_iff,
      decide_eq_false_iff_not]
    exact ⟨hne, hdot⟩

/-- A slash at the front is no part. -/
theorem partsOf_cons_separator (t : Text) : partsOf (separator :: t) = partsOf t := by
  rw [partsOf, splitOn, if_pos rfl]
  rfl

theorem rootOf_replicate_append {t : Text} (ht : t.takeWhile (· = separator) = []) {n : ℕ}
    (hn : n ≤ 2) :
    rootOf (List.replicate n separator ++ t) = List.replicate n separator := by
  have hlength :
      ((List.replicate n separator ++ t).takeWhile (· = separator)).length = n := by
    rw [List.takeWhile_append_of_pos fun c hc => by simp [List.eq_of_mem_replicate hc], ht,
      List.append_nil, List.length_replicate]
  rw [rootOf, hlength]
  interval_cases n <;> rfl

theorem partsOf_replicate_append (n : ℕ) (t : Text) :
    partsOf (List.replicate n separator ++ t) = partsOf t := by
  induction n with
  | zero => rfl
  | succ n ih => rw [List.replicate_succ, List.cons_append, partsOf_cons_separator, ih]

/-- **A path is read back from its text.** -/
theorem ofText_text {p : Path} (h : p.IsProper) : ofText p.text = p := by
  obtain ⟨root, parts⟩ := p
  obtain ⟨n, hn, hroot⟩ : ∃ n ≤ 2, root = List.replicate n separator := by
    rcases h.root with rfl | rfl | rfl
    · exact ⟨0, by decide, rfl⟩
    · exact ⟨1, by decide, rfl⟩
    · exact ⟨2, by decide, rfl⟩
  subst hroot
  rw [text]
  split_ifs with hempty
  · -- A path without root and parts is written as a single dot.
    rw [Bool.and_eq_true, List.isEmpty_iff, List.isEmpty_iff] at hempty
    obtain ⟨hroot, hparts⟩ := hempty
    change List.replicate n separator = [] at hroot
    change parts = [] at hparts
    rw [hroot, hparts]
    decide
  · have hhead := takeWhile_joinWith fun part hpart => ⟨(h.parts part hpart).1,
      (h.parts part hpart).2.2⟩
    rw [ofText, rootOf_replicate_append hhead hn, partsOf_replicate_append,
      partsOf_joinWith h.parts]

/-! ## Plain texts -/

/-- A relative path as it stands: between its slashes there is neither nothing nor one or two dots,
and it does not hold the code point zero. -/
structure IsPlain (t : Text) : Prop where
  parts : ∀ part ∈ splitOn separator t, part ≠ [] ∧ part ≠ "." ∧ part ≠ up
  nonzero : ∀ c ∈ t, c.val ≠ 0

instance (t : Text) : Decidable (IsPlain t) :=
  -- The code points of the text are run through, not all that there are.
  decidable_of_iff
    ((∀ part ∈ splitOn separator t, part ≠ [] ∧ part ≠ "." ∧ part ≠ up) ∧
      t.all (fun c => c.val ≠ 0) = true)
    ⟨fun h => ⟨h.1, fun c hc => of_decide_eq_true (List.all_eq_true.1 h.2 c hc)⟩,
      fun h => ⟨h.parts, List.all_eq_true.2 fun c hc => decide_eq_true (h.nonzero c hc)⟩⟩

variable {t : Text}

theorem IsPlain.isProper (h : IsPlain t) : (Path.mk [] (splitOn separator t)).IsProper :=
  ⟨.inl rfl, fun part hpart => ⟨(h.parts part hpart).1, (h.parts part hpart).2.1,
    fun hc => (mem_of_mem_splitOn hpart hc).2 rfl⟩⟩

theorem text_splitOn (t : Text) : (Path.mk [] (splitOn separator t)).text = t := by
  have hparts : (splitOn separator t).isEmpty = false :=
    List.isEmpty_eq_false_iff.2 (splitOn_ne_nil separator t)
  rw [text, hparts, Bool.and_false, if_neg Bool.false_ne_true]
  exact joinWith_splitOn separator t

/-- **A plain text is the path of its pieces.** -/
theorem ofText_of_isPlain (h : IsPlain t) : ofText t = ⟨[], splitOn separator t⟩ := by
  have hback := ofText_text h.isProper
  rwa [text_splitOn] at hback

theorem text_ofText_of_isPlain (h : IsPlain t) : (ofText t).text = t := by
  rw [ofText_of_isPlain h, text_splitOn]

theorem partsOf_of_isPlain (h : IsPlain t) : partsOf t = splitOn separator t :=
  congrArg Path.parts (ofText_of_isPlain h)

/-! ## Extensions -/

/-- What stands behind the last dot of a name. -/
theorem takeWhile_reverse_append {before after : Text} (h : dot ∉ after) :
    ((before ++ dot :: after).reverse.takeWhile (· ≠ dot)).reverse = after := by
  have hafter : ∀ c ∈ after.reverse, decide (c ≠ dot) = true := by
    intro c hc
    rw [decide_eq_true_eq]
    rintro rfl
    exact h (List.mem_reverse.1 hc)
  rw [List.reverse_append, List.reverse_cons, List.append_assoc,
    List.takeWhile_append_of_pos hafter, List.singleton_append,
    List.takeWhile_cons_of_neg (by simp), List.append_nil, List.reverse_reverse]

/-- The last extension is what stands behind the last dot, if there is more on both sides of it. -/
theorem suffixOf_append {before after : Text} (hbefore : before ≠ []) (hafter : after ≠ [])
    (h : dot ∉ after) : suffixOf (before ++ dot :: after) = dot :: after := by
  have hlength : ¬(before ++ dot :: after).length ≤ after.length + 1 := by
    have := List.length_pos_of_ne_nil hbefore
    rw [List.length_append, List.length_cons]
    omega
  rw [suffixOf, takeWhile_reverse_append h, List.isEmpty_eq_false_iff.2 hafter,
    decide_eq_false hlength, Bool.or_self, if_neg Bool.false_ne_true]

/-- Pieces with a last one: what stands before it, and the piece. -/
theorem joinWith_concat {pieces : List Text} (hne : pieces ≠ []) (last : Text) :
    joinWith [dot] (pieces ++ [last]) = joinWith [dot] pieces ++ dot :: last := by
  induction pieces with
  | nil => exact absurd rfl hne
  | cons piece pieces ih =>
    cases pieces with
    | nil => exact List.append_assoc piece [dot] last
    | cons second pieces =>
      rw [List.cons_append, List.cons_append, Text.joinWith_cons_cons, ← List.cons_append,
        ih (List.cons_ne_nil _ _), Text.joinWith_cons_cons, List.append_assoc, List.append_assoc,
        List.append_assoc]

/-- **The last of all extensions is the last extension.** -/
theorem suffixOf_of_suffixesOf {name suffix : Text} {suffixes : List Text}
    (h : suffixesOf name = suffixes ++ [suffix]) : suffixOf name = suffix := by
  rw [suffixesOf, Text.list_splitOn] at h
  split_ifs at h with hend
  · exact absurd h.symm (List.append_ne_nil_of_right_ne_nil _ (List.cons_ne_nil _ _))
  · have hname : name.takeWhile (· = dot) ++ name.dropWhile (· = dot) = name :=
      List.takeWhile_append_dropWhile
    have hhead : ∀ t : Text, name.dropWhile (· = dot) ≠ dot :: t := by
      intro t ht
      have := List.head?_dropWhile_not (· = dot) name
      rw [ht] at this
      simp at this
    generalize name.dropWhile (· = dot) = rest at h hname hhead
    obtain ⟨first, pieces, hpieces⟩ := List.exists_cons_of_ne_nil (splitOn_ne_nil dot rest)
    rw [hpieces, List.tail_cons] at h
    obtain ⟨front, back, rfl, -, hback⟩ := List.map_eq_append_iff.1 h
    obtain ⟨last, rfl, rfl⟩ := List.map_eq_singleton_iff.1 hback
    have hrest : rest = joinWith [dot] (first :: front) ++ dot :: last := by
      rw [← joinWith_concat (List.cons_ne_nil _ _), List.cons_append, ← hpieces, joinWith_splitOn]
    have hmem : last ∈ splitOn dot rest := by
      rw [hpieces]
      simp
    subst hrest
    rw [← List.append_assoc] at hname
    rw [← hname]
    refine suffixOf_append ?_ ?_ fun hc => (mem_of_mem_splitOn hmem hc).2 rfl
    · intro hnil
      exact hhead last (by rw [(List.append_eq_nil_iff.1 hnil).2, List.nil_append])
    · rintro rfl
      apply hend
      rw [← hname]
      exact List.isSuffixOf_iff_suffix.2 (List.suffix_append _ _)

end Path

/-- **A path that announces an archive is not that of an expression file.** -/
theorem Unpacking.suffix_of_format? {p : Path} {format : ArchiveFormat}
    (h : format? p = some format) : expressionSuffixes.contains p.suffix = false := by
  have hsuffix : p.suffix = ".zip" ∨ p.suffix = ".xz" ∨ p.suffix = ".7z" := by
    rw [format?] at h
    split_ifs at h with hzip htar hseven
    · exact .inl hzip
    · obtain ⟨rest, hrest⟩ := List.isPrefixOf_iff_prefix.1 htar
      have hreverse : p.suffixes = (rest.reverse ++ [(".tar" : Text)]) ++ [(".xz" : Text)] := by
        rw [← List.reverse_reverse p.suffixes, ← hrest]
        simp
      exact .inr (.inl (Path.suffixOf_of_suffixesOf hreverse))
    · exact .inr (.inr hseven)
  rcases hsuffix with h | h | h <;> rw [h] <;> decide

end Abacus
