import Mathlib
import Abacus.Proofs.Path.Results

/-!
# Names with the same results

The dots of extensions become underscores in the name of the results, so that two names can share
them: those that only differ in which of the two they hold.

* `Path.Blends`, `Path.Alike`: code points and names that are told apart by dots and underscores at
  most;
* `Path.resultsName_eq`: the name of the results point by point;
* `Path.resultsName_eq_iff`: the names that share their results.
-/

namespace Abacus

namespace Path

/-- Two code points that are the same, or a dot and an underscore. -/
def Blends (x y : CodePoint) : Prop :=
  x = y ∨ (x = dot ∧ y = CodePoint.ofChar '_') ∨ (x = CodePoint.ofChar '_' ∧ y = dot)

theorem blend_eq_iff {x y : CodePoint} : blend x = blend y ↔ Blends x y := by
  have hne : dot ≠ CodePoint.ofChar '_' := by decide
  rw [blend, blend, Blends]
  split_ifs with hx hy hy
  · exact iff_of_true rfl (.inl (hx.trans hy.symm))
  · refine ⟨fun h => .inr (.inl ⟨hx, h.symm⟩), ?_⟩
    rintro (rfl | ⟨-, h⟩ | ⟨h, -⟩)
    · exact absurd hx hy
    · exact h.symm
    · exact absurd (hx.symm.trans h) hne
  · refine ⟨fun h => .inr (.inr ⟨h, hy⟩), ?_⟩
    rintro (rfl | ⟨h, -⟩ | ⟨h, -⟩)
    · exact absurd hy hx
    · exact absurd h hx
    · exact h
  · refine ⟨.inl, ?_⟩
    rintro (h | ⟨h, -⟩ | ⟨-, h⟩)
    · exact h
    · exact absurd h hx
    · exact absurd h hy

theorem blend_ne_dot (c : CodePoint) : blend c ≠ dot := by
  rw [blend]
  split_ifs with hc
  · decide
  · exact hc

/-- **Two names that begin with equally many dots and differ only behind these**, and there only in
that one has an underscore where the other has a dot. -/
structure Alike (a b : Text) : Prop where
  dots : a.takeWhile (· = dot) = b.takeWhile (· = dot)
  rest : List.Forall₂ Blends (a.dropWhile (· = dot)) (b.dropWhile (· = dot))

/-- Texts become the same exactly if their code points do. -/
theorem map_blend_eq_iff {a b : Text} : a.map blend = b.map blend ↔ List.Forall₂ Blends a b := by
  rw [← List.forall₂_eq_eq_eq, List.forall₂_map_left_iff, List.forall₂_map_right_iff]
  simp only [blend_eq_iff]

variable {a b name : Text}

/-- What a name begins with, and what comes after it, if another code point than a dot does. -/
theorem dots_append {dots rest : Text} (hdots : ∀ c ∈ dots, c = dot)
    (hrest : ∀ c ∈ rest.head?, c ≠ dot) :
    (dots ++ rest).takeWhile (· = dot) = dots ∧ (dots ++ rest).dropWhile (· = dot) = rest := by
  have hall : ∀ c ∈ dots, decide (c = dot) = true := fun c hc => decide_eq_true (hdots c hc)
  rw [List.takeWhile_append_of_pos hall, List.dropWhile_append_of_pos hall]
  cases rest with
  | nil => exact ⟨List.append_nil _, rfl⟩
  | cons c rest =>
    have hc : c ≠ dot := hrest c rfl
    rw [List.takeWhile_cons_of_neg (by simpa using hc),
      List.dropWhile_cons_of_neg (by simpa using hc), List.append_nil]
    exact ⟨rfl, rfl⟩

/-- **The name of the results point by point**: the dots at the front stay, and those behind them
become underscores. -/
theorem resultsName_eq (hne : name ≠ []) (hlast : ¬[dot] <:+ name) :
    resultsName name =
      name.takeWhile (· = dot) ++ (name.dropWhile (· = dot)).map blend ++
        ("_results.txt" : Text) := by
  obtain ⟨stem, hcut⟩ := exists_cut hne
  rw [resultsName_eq_of_append hcut.eq_append]
  generalize suffixesOf name = extensions at hcut
  cases hcut with
  | whole hends => exact absurd hends hlast
  | @proper n base extensions _ hname hbase hdot =>
    have hother : ∀ c ∈ base, c ≠ dot := by
      rintro c hc rfl
      exact hdot hc
    have hkept : base.map blend = base :=
      (List.map_congr_left fun c hc => if_neg (hother c hc)).trans (List.map_id _)
    have hrest : ∀ c ∈ (base ++ extensions.flatten).head?, c ≠ dot := by
      rw [List.head?_append_of_ne_nil _ hbase]
      exact fun c hc => hother c (List.mem_of_head? hc)
    obtain ⟨hfront, hback⟩ :=
      dots_append (fun c (hc : c ∈ List.replicate n dot) => List.eq_of_mem_replicate hc) hrest
    rw [← List.append_assoc] at hfront hback
    rw [hname, hfront, hback, List.map_append, hkept, resultsOf,
      List.append_assoc (List.replicate n dot)]

/-- **The names that share their results** are those that are alike. -/
theorem resultsName_eq_iff (ha : a ≠ []) (halast : ¬[dot] <:+ a) (hb : b ≠ [])
    (hblast : ¬[dot] <:+ b) : resultsName a = resultsName b ↔ Alike a b := by
  have hparts : ∀ t : Text,
      (t.takeWhile (· = dot) ++ (t.dropWhile (· = dot)).map blend).takeWhile (· = dot) =
        t.takeWhile (· = dot) := by
    intro t
    refine (dots_append (fun c hc => by simpa using List.mem_takeWhile_imp hc) ?_).1
    intro c hc
    obtain ⟨d, -, rfl⟩ := List.mem_map.1 (List.mem_of_mem_head? hc)
    exact blend_ne_dot d
  rw [resultsName_eq ha halast, resultsName_eq hb hblast, List.append_cancel_right_eq]
  constructor
  · intro h
    have hdots := congrArg (List.takeWhile (· = dot)) h
    rw [hparts, hparts] at hdots
    rw [hdots] at h
    exact ⟨hdots, map_blend_eq_iff.1 (List.append_cancel_left h)⟩
  · rintro ⟨hdots, hrest⟩
    rw [hdots, map_blend_eq_iff.2 hrest]

end Path

end Abacus
