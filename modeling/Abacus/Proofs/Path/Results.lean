import Mathlib
import Abacus.Proofs.Path

/-!
# The name of the results

The results for a file stand beside it, under its name with the dots of its extensions made into
underscores and a few letters more.

* `Path.Cut`, `Path.exists_cut`: a name as a stem and extensions, and that its extensions are those
  of such a cut;
* `Path.resultsOf`, `Path.resultsName_eq_of_append`, `Path.length_resultsOf`: the name of the
  results, and its length;
* `Path.exists_results?`: the path of the results.
-/

namespace Abacus

open Text (splitOn)

namespace Text

/-- The first piece of a text, and the others behind it, each with the code point before it. -/
theorem exists_splitOn_eq (c : CodePoint) (t : Text) : ∃ pieces,
    splitOn c t = t.takeWhile (· ≠ c) :: pieces ∧
      t.takeWhile (· ≠ c) ++ (pieces.map (c :: ·)).flatten = t := by
  induction t with
  | nil => exact ⟨[], rfl, rfl⟩
  | cons x t ih =>
    obtain ⟨pieces, hpieces, ht⟩ := ih
    by_cases hx : x = c
    · refine ⟨splitOn c t, ?_, ?_⟩
      · rw [splitOn, if_pos hx, List.takeWhile_cons_of_neg (by simpa using hx)]
      · rw [List.takeWhile_cons_of_neg (by simpa using hx), hpieces, List.map_cons,
          List.flatten_cons, List.cons_append, ht, hx, List.nil_append]
    · refine ⟨pieces, ?_, ?_⟩
      · rw [splitOn_cons_of_ne hx hpieces, List.takeWhile_cons_of_pos (by simpa using hx)]
      · rw [List.takeWhile_cons_of_pos (by simpa using hx), List.cons_append, ht]

end Text

namespace Path

variable {name stem : Text} {extensions : List Text}

/-- **A name as a stem and extensions.** A name with a dot at its end is all stem. Any other name
may begin with dots; these belong to the stem, together with what follows up to the next dot. The
rest is extensions, each of them a dot and what follows up to the next dot. -/
inductive Cut (name : Text) : Text → List Text → Prop
  | whole (hlast : [dot] <:+ name) : Cut name name []
  | proper {n : ℕ} {base : Text} {extensions : List Text} (hlast : ¬[dot] <:+ name)
      (hname : name = List.replicate n dot ++ base ++ extensions.flatten) (hbase : base ≠ [])
      (hdot : dot ∉ base) (hextensions : ∀ t ∈ extensions, ∃ u, t = dot :: u ∧ dot ∉ u) :
      Cut name (List.replicate n dot ++ base) extensions

theorem Cut.eq_append (h : Cut name stem extensions) : name = stem ++ extensions.flatten := by
  cases h with
  | whole => exact (List.append_nil name).symm
  | proper _ hname => exact hname

/-- What stands behind the dots at the front begins with another code point, unless the name ends
with a dot. -/
theorem takeWhile_dropWhile_ne_nil (h : name ≠ []) (hlast : ¬[dot] <:+ name) :
    (name.dropWhile (· = dot)).takeWhile (· ≠ dot) ≠ [] := by
  have hrest : name.dropWhile (· = dot) ≠ [] := by
    intro hnil
    rw [List.dropWhile_eq_nil_iff] at hnil
    have hdot : name.getLast h = dot := of_decide_eq_true (hnil _ (List.getLast_mem h))
    exact hlast ⟨name.dropLast, hdot ▸ List.dropLast_append_getLast h⟩
  have hhead := List.head?_dropWhile_not (· = dot) name
  generalize name.dropWhile (· = dot) = rest at hrest hhead
  obtain ⟨c, rest, rfl⟩ := List.exists_cons_of_ne_nil hrest
  have hc : c ≠ dot := of_decide_eq_false hhead
  rw [List.takeWhile_cons_of_pos (by simpa using hc)]
  exact List.cons_ne_nil _ _

/-- **The extensions of a name are those of a cut.** -/
theorem exists_cut (h : name ≠ []) : ∃ stem, Cut name stem (suffixesOf name) := by
  rw [suffixesOf, Text.list_splitOn]
  split_ifs with hends
  · exact ⟨name, .whole (List.isSuffixOf_iff_suffix.1 hends)⟩
  · have hlast : ¬[dot] <:+ name := mt List.isSuffixOf_iff_suffix.2 hends
    have hdots : name.takeWhile (· = dot) =
        List.replicate (name.takeWhile (· = dot)).length dot :=
      List.eq_replicate_of_mem fun c hc => by simpa using List.mem_takeWhile_imp hc
    have hname : name.takeWhile (· = dot) ++ name.dropWhile (· = dot) = name :=
      List.takeWhile_append_dropWhile
    have hbase := takeWhile_dropWhile_ne_nil h hlast
    obtain ⟨pieces, hpieces, hrest⟩ := Text.exists_splitOn_eq dot (name.dropWhile (· = dot))
    rw [hpieces, List.tail_cons]
    refine ⟨_, .proper (n := (name.takeWhile (· = dot)).length) hlast ?_ hbase ?_ ?_⟩
    · rw [← hdots, List.append_assoc, hrest, hname]
    · exact fun hmem => absurd (List.mem_takeWhile_imp hmem) (by simp)
    · rw [List.forall_mem_map]
      intro u hu
      have hmem : u ∈ splitOn dot (name.dropWhile (· = dot)) :=
        hpieces ▸ List.mem_cons_of_mem _ hu
      exact ⟨u, rfl, fun hc => (Text.mem_of_mem_splitOn hmem hc).2 rfl⟩

/-! ## The results -/

theorem name_concat (root : Text) (folder : List Text) (name : Text) :
    (Path.mk root (folder ++ [name])).name = name := by
  rw [Path.name, List.getLast?_concat]
  rfl

/-- A path with a name is its folder with the name behind it. -/
theorem eq_concat {p : Path} (h : p.name ≠ []) :
    p = ⟨p.root, p.parts.dropLast ++ [p.name]⟩ := by
  obtain ⟨root, parts⟩ := p
  rcases List.eq_nil_or_concat' parts with rfl | ⟨folder, last, rfl⟩
  · exact absurd rfl h
  · rw [name_concat, List.dropLast_concat]

/-- The name of the results for a file with a stem and extensions. -/
def resultsOf (stem : Text) (extensions : List Text) : Text :=
  stem ++ extensions.flatten.map blend ++ ("_results.txt" : Text)

theorem resultsName_eq_of_append (h : name = stem ++ (suffixesOf name).flatten) :
    resultsName name = resultsOf stem (suffixesOf name) := by
  have hlength : name.length - (suffixesOf name).flatten.length = stem.length := by
    have := congrArg List.length h
    rw [List.length_append] at this
    omega
  have hstem : name.take stem.length = stem := by
    conv_lhs => rw [h]
    exact List.take_left
  rw [resultsName, resultsOf, hlength, hstem]

/-- The results have a name that is twelve letters longer. -/
theorem length_resultsOf (stem : Text) (extensions : List Text) :
    (resultsOf stem extensions).length = (stem ++ extensions.flatten).length + 12 := by
  rw [resultsOf, List.length_append, List.length_append, List.length_append, List.length_map]
  rfl

theorem resultsOf_ne_up (stem : Text) (extensions : List Text) :
    resultsOf stem extensions ≠ up := by
  intro h
  have hlength := length_resultsOf stem extensions
  rw [h] at hlength
  change 2 = _ at hlength
  omega

/-- **The path of the results**: the folder is that of the input, and the name is another one. -/
theorem exists_results? {p : Path} (h : p.name ≠ []) : ∃ stem extensions,
    Cut p.name stem extensions ∧
      p.results? = some ⟨p.root, p.parts.dropLast ++ [resultsOf stem extensions]⟩ ∧
      resultsOf stem extensions ≠ p.name := by
  obtain ⟨stem, hcut⟩ := exists_cut h
  refine ⟨stem, suffixesOf p.name, hcut, ?_, fun heq => ?_⟩
  · have hparts : p.parts.isEmpty = false := by
      rw [eq_concat h, List.isEmpty_eq_false_iff]
      exact List.append_ne_nil_of_right_ne_nil _ (List.cons_ne_nil _ _)
    rw [results?, hparts, if_neg Bool.false_ne_true, resultsName_eq_of_append hcut.eq_append]
  · have hlength := length_resultsOf stem (suffixesOf p.name)
    rw [heq, ← hcut.eq_append] at hlength
    omega

end Path

end Abacus
