import Mathlib
import Abacus.Proofs.Files

/-!
# Files beside the one that is written

Writing a file changes nothing about where paths lead, and what stands anywhere else stays.

* `Files.walk_append`, `Files.walk_concat_eq_ok`: parts lead somewhere one after another;
* `Files.IsAdmissible`, `Files.resolve_eq_ok_iff`: when a path leads somewhere, and where;
* `Files.resolve_put`, `Files.find_put`: paths after an entry was put where no directory stands;
* `Files.resolve_ne_of_name`: two names in a folder lead to two places.
-/

namespace Abacus

namespace Files

variable {f : Files} {p : Path} {place q : Place} {parts : List Text} {entry : Entry}

/-- Where parts lead is found out for the first of them and then for the others. -/
theorem walk_append (f : Files) (place : Place) (parts others : List Text) :
    f.walk place (parts ++ others) = f.walk place parts >>= fun q => f.walk q others := by
  induction parts generalizing place with
  | nil => rfl
  | cons part parts ih =>
    rw [List.cons_append, walk, walk]
    split
    · rfl
    · rfl
    · split_ifs
      · exact ih _
      · rfl
      · exact ih _

/-- The last part leads out of the place that the others lead to, up or down. -/
theorem walk_concat_eq_ok {part : Text} (h : f.walk place (parts ++ [part]) = .ok q) :
    ∃ folder, f.walk place parts = .ok folder ∧
      q = if part = Path.up then folder.dropLast else folder ++ [part] := by
  rw [walk_append] at h
  obtain ⟨folder, hfolder, h⟩ := bind_eq_ok_iff.1 h
  refine ⟨folder, hfolder, ?_⟩
  rw [walk] at h
  split at h
  · cases h
  · cases h
  · split_ifs at h with hup
    · rw [if_pos hup]
      exact (Except.ok.inj h).symm
    · rw [if_neg hup]
      exact (Except.ok.inj h).symm

/-- **Parts lead where they did** after an entry was put where no directory stands. -/
theorem walk_put (hplace : f.isDirectory place = false) (entry : Entry) {start : Place}
    (h : f.walk start parts = .ok q) : (f.put place entry).walk start parts = .ok q := by
  induction parts generalizing start with
  | nil => exact h
  | cons part parts ih =>
    rw [walk] at h ⊢
    split at h
    · cases h
    · cases h
    · next hstart =>
      have hne : start ≠ place := by
        rintro rfl
        rw [isDirectory_eq_true_iff.2 hstart] at hplace
        cases hplace
      have hkept : entry? (f.put place entry) start = some .directory := by
        rw [ entry?_put, if_neg hne, hstart, ite_self]
      rw [hkept]
      dsimp only
      split_ifs at h ⊢
      · exact ih h
      · exact ih h

/-- The place from which the parts of a path lead. -/
def start (f : Files) (p : Path) : Place := if p.isAbsolute then [] else f.home

/-- A path can be looked up: it is encodable, holds no code point zero and is not too long. -/
structure IsAdmissible (p : Path) : Prop where
  encodable : ¬(Utf8.encodeStray? p.text).isNone = true
  nonzero : ¬(p.parts.any fun part => part.any fun c => c.val = 0) = true
  short : ¬pathLimit < size p.text

theorem resolve_eq_ok_iff :
    f.resolve p = .ok q ↔ IsAdmissible p ∧ f.walk (f.start p) p.parts = .ok q := by
  rw [resolve, start]
  generalize f.walk _ p.parts = outcome
  split_ifs with hencodable hzero hlength
  · exact iff_of_false (by rintro ⟨⟩) fun h => h.1.encodable hencodable
  · exact iff_of_false (by rintro ⟨⟩) fun h => h.1.nonzero hzero
  · exact iff_of_false (by rintro ⟨⟩) fun h => h.1.short hlength
  · exact (and_iff_right ⟨hencodable, hzero, hlength⟩).symm

/-- **A path leads where it did** after an entry was put where no directory stands. -/
theorem resolve_put (hplace : f.isDirectory place = false) (entry : Entry)
    (h : f.resolve p = .ok q) : (f.put place entry).resolve p = .ok q := by
  rw [resolve_eq_ok_iff] at h ⊢
  exact ⟨h.1, walk_put hplace entry h.2⟩

theorem entry?_put_of_ne (f : Files) (entry : Entry) (hne : q ≠ place) :
    entry? (f.put place entry) q = f.entry? q := by
  rw [ entry?_put, if_neg hne]
  split_ifs with hroot
  · rw [hroot]
    rfl
  · rfl

/-- A path that leads elsewhere leads to what it did. -/
theorem find_put (hplace : f.isDirectory place = false) (entry : Entry)
    (hresolve : f.resolve p = .ok q) (hne : q ≠ place) :
    (f.put place entry).find p = f.find p := by
  rw [find, find, hresolve, resolve_put hplace entry hresolve]
  exact congrArg Except.ok <| entry?_put_of_ne f entry hne

/-- **Two names in a folder lead to two places**, if the second is not the one that leads up. -/
theorem resolve_ne_of_name {root name other : Text} {folder : List Text}
    (h : f.resolve ⟨root, folder ++ [name]⟩ = .ok q)
    (hother : f.resolve ⟨root, folder ++ [other]⟩ = .ok place) (hne : name ≠ other)
    (hup : other ≠ Path.up) : q ≠ place := by
  obtain ⟨start, hstart, hq⟩ := walk_concat_eq_ok (resolve_eq_ok_iff.1 h).2
  obtain ⟨start', hstart', hplace⟩ := walk_concat_eq_ok (resolve_eq_ok_iff.1 hother).2
  cases hstart.symm.trans hstart'
  rw [hq, hplace, if_neg hup]
  split_ifs
  · intro heq
    have := congrArg List.length heq
    rw [List.length_dropLast, List.length_append, List.length_singleton] at this
    omega
  · intro heq
    exact hne (List.singleton_inj.1 (List.append_cancel_left heq))

theorem target_eq_ok (h : f.target p = .ok place) :
    f.resolve p = .ok place ∧ f.isDirectory place = false := by
  obtain ⟨q, hq, h⟩ := bind_eq_ok_iff.1 h
  split_ifs at h with hdirectory
  cases h
  exact ⟨hq, Bool.eq_false_iff.2 hdirectory⟩

end Files

end Abacus
