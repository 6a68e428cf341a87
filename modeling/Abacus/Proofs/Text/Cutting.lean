import Mathlib
import Abacus.Text.Line

/-!
# Cutting texts

* `splitOn_joinWith`, `cutAt_append_cons`: pieces that are put together with a code point that none
  of them holds are cut apart again.
* `joinWith_splitOn`, `mem_of_mem_splitOn`: a text is what its pieces make up, and the pieces do not
  hold the code point.
* `mem_joinWith`, `length_joinWith_le`: what is put together holds nothing but its pieces and what
  stands between them.
* `trimWith_congr`, `mem_trimWith`, `trimWith_append`: what trimming depends on, what it keeps, and
  what it takes.
* `mem_of_mem_trim`, `mem_normalizeNewlines`, `mem_of_mem_cutLines`, `mem_of_mem_entries`: trimming
  and cutting into lines bring in no code point but line feeds.
-/

namespace Abacus.Text

variable {c : CodePoint} {t : Text}

/-! ## Pieces between a code point -/

theorem joinWith_cons_cons (sep t u : Text) (pieces : List Text) :
    joinWith sep (t :: u :: pieces) = t ++ sep ++ joinWith sep (u :: pieces) := rfl

theorem mem_joinWith {sep : Text} {pieces : List Text} (h : c ∈ joinWith sep pieces) :
    c ∈ sep ∨ ∃ t ∈ pieces, c ∈ t := by
  induction pieces with
  | nil => exact absurd h List.not_mem_nil
  | cons t pieces ih =>
    cases pieces with
    | nil => exact .inr ⟨t, List.mem_cons_self, h⟩
    | cons u pieces =>
      rw [joinWith_cons_cons] at h
      rcases List.mem_append.1 h with h | h
      · rcases List.mem_append.1 h with h | h
        · exact .inr ⟨t, List.mem_cons_self, h⟩
        · exact .inl h
      · exact (ih h).imp_right fun ⟨v, hv, hc⟩ => ⟨v, List.mem_cons_of_mem _ hv, hc⟩

theorem length_joinWith_le {sep : Text} {pieces : List Text} {n : ℕ}
    (h : ∀ t ∈ pieces, t.length ≤ n) :
    (joinWith sep pieces).length ≤ pieces.length * (n + sep.length) := by
  induction pieces with
  | nil => exact Nat.zero_le _
  | cons t pieces ih =>
    obtain ⟨ht, hpieces⟩ := List.forall_mem_cons.1 h
    have hrest := ih hpieces
    cases pieces with
    | nil =>
      rw [joinWith, List.length_singleton]
      omega
    | cons u pieces =>
      rw [joinWith_cons_cons, List.length_append, List.length_append, List.length_cons, Nat.add_mul]
      omega

theorem splitOn_cons_of_ne {x : CodePoint} (hx : x ≠ c) {piece : Text} {pieces : List Text}
    (h : splitOn c t = piece :: pieces) : splitOn c (x :: t) = (x :: piece) :: pieces := by
  rw [splitOn, if_neg hx, h]

/-- A text without the code point is one piece. -/
theorem splitOn_of_notMem (ht : c ∉ t) : splitOn c t = [t] := by
  induction t with
  | nil => rfl
  | cons x t ih =>
    obtain ⟨hx, ht⟩ := not_or.1 (mt List.mem_cons.2 ht)
    exact splitOn_cons_of_ne (Ne.symm hx) (ih ht)

/-- The first piece ends at the first occurrence of the code point. -/
theorem splitOn_append_cons (ht : c ∉ t) (u : Text) :
    splitOn c (t ++ c :: u) = t :: splitOn c u := by
  induction t with
  | nil => rw [List.nil_append, splitOn, if_pos rfl]
  | cons x t ih =>
    obtain ⟨hx, ht⟩ := not_or.1 (mt List.mem_cons.2 ht)
    exact splitOn_cons_of_ne (Ne.symm hx) (ih ht)

/-- **Pieces that are put together are cut apart again.** -/
theorem splitOn_joinWith {pieces : List Text} (hne : pieces ≠ []) (h : ∀ t ∈ pieces, c ∉ t) :
    splitOn c (joinWith [c] pieces) = pieces := by
  induction pieces with
  | nil => exact absurd rfl hne
  | cons t pieces ih =>
    have ht := h t List.mem_cons_self
    cases pieces with
    | nil => exact splitOn_of_notMem ht
    | cons u pieces =>
      have hrest : ∀ v ∈ u :: pieces, c ∉ v := fun v hv => h v (List.mem_cons_of_mem _ hv)
      rw [joinWith_cons_cons, List.append_assoc, List.singleton_append, splitOn_append_cons ht,
        ih (List.cons_ne_nil _ _) hrest]

theorem splitOn_ne_nil (c : CodePoint) (t : Text) : splitOn c t ≠ [] := by
  cases t with
  | nil => exact List.cons_ne_nil _ _
  | cons x t =>
    rw [splitOn]
    split_ifs
    · exact List.cons_ne_nil _ _
    · split <;> exact List.cons_ne_nil _ _

/-- Nothing stands behind an occurrence at the end. -/
theorem splitOn_concat (c : CodePoint) (t : Text) : splitOn c (t ++ [c]) = splitOn c t ++ [[]] := by
  induction t with
  | nil => exact if_pos rfl
  | cons x t ih =>
    rw [List.cons_append]
    by_cases hx : x = c
    · have hcons : ∀ u, splitOn c (x :: u) = [] :: splitOn c u := fun u => by
        rw [splitOn, if_pos hx]
      rw [hcons, hcons, ih, List.cons_append]
    · obtain ⟨first, pieces, heq⟩ := List.exists_cons_of_ne_nil (splitOn_ne_nil c t)
      rw [heq, List.cons_append] at ih
      rw [splitOn_cons_of_ne hx heq, splitOn_cons_of_ne hx ih, List.cons_append]

/-- The library cuts lists in the same way. -/
theorem list_splitOn (c : CodePoint) (t : Text) : List.splitOn c t = splitOn c t := by
  induction t with
  | nil => rfl
  | cons x t ih =>
    rw [List.splitOn] at ih
    rw [List.splitOn, List.splitOnP_cons_eq_if_modifyHead, ih]
    by_cases hx : x = c
    · rw [if_pos (beq_iff_eq.2 hx), splitOn, if_pos hx]
    · obtain ⟨first, pieces, heq⟩ := List.exists_cons_of_ne_nil (splitOn_ne_nil c t)
      rw [if_neg (mt beq_iff_eq.1 hx), splitOn_cons_of_ne hx heq, heq]
      rfl

/-- Pieces do not hold the code point, nor anything that the text does not hold. -/
theorem mem_of_mem_splitOn {piece : Text} (hpiece : piece ∈ splitOn c t) {x : CodePoint}
    (hx : x ∈ piece) : x ∈ t ∧ x ≠ c := by
  induction t generalizing piece with
  | nil =>
    rw [List.mem_singleton.1 hpiece] at hx
    exact absurd hx List.not_mem_nil
  | cons y t ih =>
    by_cases hy : y = c
    · rw [splitOn, if_pos hy] at hpiece
      rcases List.mem_cons.1 hpiece with rfl | hpiece
      · exact absurd hx List.not_mem_nil
      · exact (ih hpiece hx).imp_left (List.mem_cons_of_mem _)
    · obtain ⟨first, pieces, heq⟩ := List.exists_cons_of_ne_nil (splitOn_ne_nil c t)
      rw [splitOn_cons_of_ne hy heq] at hpiece
      rw [heq] at ih
      rcases List.mem_cons.1 hpiece with rfl | hpiece
      · rcases List.mem_cons.1 hx with rfl | hx
        · exact ⟨List.mem_cons_self, hy⟩
        · exact (ih List.mem_cons_self hx).imp_left (List.mem_cons_of_mem _)
      · exact (ih (List.mem_cons_of_mem _ hpiece) hx).imp_left (List.mem_cons_of_mem _)

/-- **A text is put together again from its pieces.** -/
theorem joinWith_splitOn (c : CodePoint) (t : Text) : joinWith [c] (splitOn c t) = t := by
  induction t with
  | nil => rfl
  | cons x t ih =>
    obtain ⟨first, pieces, heq⟩ := List.exists_cons_of_ne_nil (splitOn_ne_nil c t)
    rw [heq] at ih
    by_cases hx : x = c
    · rw [splitOn, if_pos hx, heq, joinWith_cons_cons, ih, hx]
      rfl
    · rw [splitOn_cons_of_ne hx heq]
      cases pieces with
      | nil => rw [joinWith, ← ih, joinWith]
      | cons second pieces =>
        rw [joinWith_cons_cons] at ih ⊢
        rw [← ih]
        rfl

/-- A text is cut at the first occurrence of the code point. -/
theorem cutAt_append_cons (ht : c ∉ t) (u : Text) : cutAt c (t ++ c :: u) = (t, some u) := by
  induction t with
  | nil => rw [List.nil_append, cutAt, if_pos rfl]
  | cons x t ih =>
    obtain ⟨hx, ht⟩ := not_or.1 (mt List.mem_cons.2 ht)
    rw [List.cons_append, cutAt, if_neg (Ne.symm hx), ih ht]

theorem contains_eq_false_iff : contains t c = false ↔ c ∉ t := by
  rw [contains, List.any_eq_false]
  constructor
  · intro h hmem
    exact h c hmem (decide_eq_true rfl)
  · intro h x hx heq
    rw [of_decide_eq_true heq] at hx
    exact h hx

theorem cutAt_of_notMem (ht : c ∉ t) : cutAt c t = (t, none) := by
  induction t with
  | nil => rfl
  | cons x t ih =>
    obtain ⟨hx, ht⟩ := not_or.1 (mt List.mem_cons.2 ht)
    rw [cutAt, if_neg (Ne.symm hx), ih ht]

/-- What stands behind the cut is part of the text. -/
theorem suffix_of_cutAt {u : Text} (h : (cutAt c t).2 = some u) : u <:+ t := by
  induction t with
  | nil => cases h
  | cons x t ih =>
    rw [cutAt] at h
    split_ifs at h with hx
    · cases h
      exact List.suffix_cons x _
    · exact (ih h).trans (List.suffix_cons x t)

/-! ## Lines -/

/-- A text without the code points that are trimmed stays as it is. -/
theorem trimWith_of_forall {p : CodePoint → Bool} (h : ∀ c ∈ t, p c = false) :
    trimWith p t = t := by
  have hself : ∀ u : Text, (∀ c ∈ u, c ∈ t) → u.dropWhile p = u := by
    intro u hu
    rw [List.dropWhile_eq_self_iff]
    intro hpos
    rw [h _ (hu _ (List.getElem_mem hpos))]
    exact Bool.false_ne_true
  rw [trimWith, hself t fun c hc => hc, hself t.reverse fun c hc => List.mem_reverse.1 hc,
    List.reverse_reverse]

theorem dropWhile_congr {p q : CodePoint → Bool} (h : ∀ c ∈ t, p c = q c) :
    t.dropWhile p = t.dropWhile q := by
  induction t with
  | nil => rfl
  | cons c t ih =>
    obtain ⟨hc, ht⟩ := List.forall_mem_cons.1 h
    rw [List.dropWhile_cons, List.dropWhile_cons, hc, ih ht]

/-- What is trimmed depends on the code points of the text only. -/
theorem trimWith_congr {p q : CodePoint → Bool} (h : ∀ c ∈ t, p c = q c) :
    trimWith p t = trimWith q t := by
  rw [trimWith, trimWith, dropWhile_congr h]
  congr 1
  apply dropWhile_congr
  intro c hc
  exact h c ((List.dropWhile_sublist q).subset (List.mem_reverse.1 hc))

theorem mem_dropWhile {p : CodePoint → Bool} (hc : c ∈ t) (hp : p c = false) :
    c ∈ t.dropWhile p := by
  rw [← List.takeWhile_append_dropWhile (p := p) (l := t), List.mem_append] at hc
  rcases hc with hc | hc
  · exact absurd (List.mem_takeWhile_imp hc) (Bool.eq_false_iff.1 hp)
  · exact hc

/-- Trimming keeps what is not to be trimmed. -/
theorem mem_trimWith {p : CodePoint → Bool} (hc : c ∈ t) (hp : p c = false) :
    c ∈ trimWith p t := by
  rw [trimWith, List.mem_reverse]
  apply mem_dropWhile _ hp
  rw [List.mem_reverse]
  exact mem_dropWhile hc hp

/-- Trimming takes nothing but what is to be trimmed. -/
theorem exists_eq_trimWith (p : CodePoint → Bool) (t : Text) :
    ∃ before after, t = before ++ trimWith p t ++ after ∧ (∀ c ∈ before, p c = true) ∧
      ∀ c ∈ after, p c = true := by
  have hback : trimWith p t ++ ((t.dropWhile p).reverse.takeWhile p).reverse = t.dropWhile p := by
    rw [trimWith, ← List.reverse_append, List.takeWhile_append_dropWhile, List.reverse_reverse]
  refine ⟨t.takeWhile p, ((t.dropWhile p).reverse.takeWhile p).reverse, ?_,
    fun c hc => List.mem_takeWhile_imp hc,
    fun c hc => List.mem_takeWhile_imp (List.mem_reverse.1 hc)⟩
  rw [List.append_assoc, hback, List.takeWhile_append_dropWhile]

/-- What is to be trimmed is dropped from the front. -/
theorem dropWhile_append {p : CodePoint → Bool} {u : Text} (ht : ∀ c ∈ t, p c = true)
    (hne : u ≠ []) (hu : ∀ c ∈ u, p c = false) (v : Text) :
    (t ++ (u ++ v)).dropWhile p = u ++ v := by
  obtain ⟨c, rest, rfl⟩ := List.exists_cons_of_ne_nil hne
  have hc : ¬p c = true := by
    rw [hu c List.mem_cons_self]
    exact Bool.false_ne_true
  rw [List.dropWhile_append_of_pos ht, List.cons_append, List.dropWhile_cons_of_neg hc]

/-- Trimming takes all that is to be trimmed about a text. -/
theorem trimWith_append {p : CodePoint → Bool} {before after : Text}
    (hbefore : ∀ c ∈ before, p c = true) (hafter : ∀ c ∈ after, p c = true) (hne : t ≠ [])
    (ht : ∀ c ∈ t, p c = false) : trimWith p (before ++ t ++ after) = t := by
  have hback := dropWhile_append (t := after.reverse) (u := t.reverse)
    (fun c hc => hafter c (List.mem_reverse.1 hc)) (mt List.reverse_eq_nil_iff.1 hne)
    (fun c hc => ht c (List.mem_reverse.1 hc)) []
  rw [List.append_nil] at hback
  rw [trimWith, List.append_assoc, dropWhile_append hbefore hne ht, List.reverse_append, hback,
    List.reverse_reverse]

theorem mem_of_mem_trim (h : c ∈ t.trim) : c ∈ t := by
  rw [trim, trimWith, List.mem_reverse] at h
  have h := (List.dropWhile_sublist _).subset h
  rw [List.mem_reverse] at h
  exact (List.dropWhile_sublist _).subset h

/-- Newlines in their usual form: nothing but line feeds is new. -/
theorem mem_normalizeNewlines (h : c ∈ normalizeNewlines t) : c ∈ t ∨ c = '\n' := by
  induction t using normalizeNewlines.induct with
  | case1 => exact absurd h List.not_mem_nil
  | case2 rest ih =>
    cases rest with
    | nil =>
      rw [normalizeNewlines.eq_2, if_pos rfl, List.mem_singleton] at h
      exact .inr h
    | cons d tail =>
      rw [normalizeNewlines.eq_3, if_pos rfl] at h
      rcases List.mem_cons.1 h with h | h
      · exact .inr h
      · -- A line feed goes with the carriage return before it.
        have hcases : c ∈ normalizeNewlines tail ∨ c ∈ normalizeNewlines (d :: tail) := by
          split_ifs at h
          · exact .inl h
          · exact .inr h
        rcases hcases with h | h
        · exact (ih.1 h).imp_left fun h => List.mem_cons_of_mem _ (List.mem_cons_of_mem _ h)
        · exact (ih.2 h).imp_left (List.mem_cons_of_mem _)
  | case3 x rest hx ih =>
    have heq : normalizeNewlines (x :: rest) = x :: normalizeNewlines rest := by
      cases rest with
      | nil => rw [normalizeNewlines.eq_2, if_neg hx]
      | cons d tail => rw [normalizeNewlines.eq_3, if_neg hx]
    rw [heq] at h
    rcases List.mem_cons.1 h with rfl | h
    · exact .inl List.mem_cons_self
    · exact (ih h).imp_left (List.mem_cons_of_mem _)

theorem mem_of_mem_cutLines {line : Text} (hline : line ∈ cutLines t) (h : c ∈ line) : c ∈ t := by
  induction t generalizing line with
  | nil => exact absurd hline List.not_mem_nil
  | cons x t ih =>
    rw [cutLines] at hline
    split_ifs at hline with hx
    · rcases List.mem_cons.1 hline with rfl | hline
      · exact absurd h List.not_mem_nil
      · exact List.mem_cons_of_mem _ (ih hline h)
    · cases hlines : cutLines t with
      | nil =>
        rw [hlines, List.mem_singleton] at hline
        rw [hline, List.mem_singleton] at h
        exact h ▸ List.mem_cons_self
      | cons first lines =>
        rw [hlines] at hline ih
        rcases List.mem_cons.1 hline with rfl | hline
        · rcases List.mem_cons.1 h with rfl | h
          · exact List.mem_cons_self
          · exact List.mem_cons_of_mem _ (ih List.mem_cons_self h)
        · exact List.mem_cons_of_mem _ (ih (List.mem_cons_of_mem _ hline) h)

/-- Entries hold nothing but code points of the text and line feeds. -/
theorem mem_of_mem_entries {line : Text} (hline : line ∈ t.entries) (h : c ∈ line) :
    c ∈ t ∨ c = '\n' := by
  obtain ⟨untrimmed, hmem, rfl⟩ := List.mem_map.1 (List.mem_of_mem_filter hline)
  exact mem_normalizeNewlines (mem_of_mem_cutLines hmem (mem_of_mem_trim h))

end Abacus.Text
