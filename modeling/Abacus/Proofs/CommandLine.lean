import Mathlib
import Abacus.Proofs.Program

/-!
# The words of a run

A command with one operand is read from one word only if the word is that operand, as it stands.

* `CommandLine.classify_singleton`, `CommandLine.read_singleton`: what one word is taken for, and
  what is read from it;
* `CommandLine.eq_of_ofData`: the options that a path alone gives;
* `CommandLine.eq_run_of_parse`: the command that the name of the command and one word give.
-/

namespace Abacus

namespace CommandLine

variable {g : Grammar} {files : Files} {path w : Text}

/-- A word is taken for an operand as it is. -/
theorem eq_of_classifyWord {t : Text} (h : g.classifyWord w = .ok (.operand t)) : t = w := by
  have hshort : ∀ {t : Text}, g.classifyShort w = .ok (.operand t) → t = w := by
    intro t h
    rw [Grammar.classifyShort] at h
    split at h
    · split_ifs at h
      · cases h
        rfl
      · cases h
    · cases h
    · cases h
  rw [Grammar.classifyWord] at h
  split_ifs at h
  · cases h
    rfl
  · split at h
    · cases h
    · split at h
      · cases h
      · exact hshort h
    · exact hshort h

theorem classify_singleton {words : List Word} (h : g.classify [w] = .ok words) :
    ∃ word, words = [word] ∧ ∀ t, word = .operand t → t = w := by
  rw [Grammar.classify] at h
  split_ifs at h
  · cases h
    exact ⟨.separator, rfl, nofun⟩
  · obtain ⟨word, hword, h⟩ := bind_eq_ok_iff.1 h
    cases h
    refine ⟨word, rfl, ?_⟩
    rintro t rfl
    exact eq_of_classifyWord hword

/-- An operand is the only word that a command with one operand can be read from. -/
theorem read_singleton {name : String} {word : Word} {r : Grammar.Reading}
    (h : g.read [name] [word] = .ok r) :
    ∃ t, word = .operand t ∧ r = ⟨[(name, .text t)], []⟩ := by
  have hnothing : ∀ {r}, g.read [name] [] ≠ .ok r := by
    intro r h
    rw [Grammar.read] at h
    · cases h
    · nofun
  cases word with
  | operand t =>
    rw [Grammar.read] at h
    · obtain ⟨later, hlater, h⟩ := bind_eq_ok_iff.1 h
      rw [Grammar.read] at hlater
      cases hlater
      cases h
      exact ⟨t, rfl, rfl⟩
    · nofun
  | separator =>
    rw [Grammar.read] at h
    · obtain ⟨later, hlater, -⟩ := bind_eq_ok_iff.1 h
      exact absurd hlater hnothing
    · nofun
  | unknown t =>
    rw [Grammar.read] at h
    obtain ⟨later, hlater, -⟩ := bind_eq_ok_iff.1 h
    exact absurd hlater hnothing
  | flag f written attached =>
    rw [Grammar.read.eq_def] at h
    dsimp only at h
    split at h
    · cases h
    · obtain ⟨v, -, h⟩ := bind_eq_ok_iff.1 h
      obtain ⟨later, hlater, -⟩ := bind_eq_ok_iff.1 h
      exact absurd hlater hnothing
    · cases h

/-- A text that passes as the path of a file is that path. -/
theorem eq_ofText_of_file {p : Path} (h : Schema.file files (.text path) = .ok (.valid p)) :
    p = Path.ofText path := by
  obtain ⟨entry, -, h⟩ := bind_eq_ok_iff.1 h
  split at h
  · exact (Checked.valid.inj (Except.ok.inj h)).symm
  · cases h

/-- The options that a path alone gives. -/
theorem eq_of_ofData {o : RunOptions}
    (h : RunOptions.ofData files [("file_path", .text path)] = .ok (.valid o)) :
    o = ⟨Path.ofText path, Settings.standard.port⟩ := by
  obtain ⟨input, hinput, h⟩ := bind_eq_ok_iff.1 h
  obtain ⟨g, port, hg, hport, rfl⟩ := Checked.seq_eq_valid_iff.1 (Except.ok.inj h)
  obtain ⟨p, rfl, rfl⟩ := Checked.map_eq_valid_iff.1 hg
  cases hport
  obtain ⟨c, hc, hinput⟩ := bind_eq_ok_iff.1
    (show Schema.file files (.text path) >>= _ = .ok (Checked.valid p) from hinput)
  cases Checked.within_eq_valid_iff.1 (Except.ok.inj hinput)
  rw [eq_ofText_of_file hc]

/-- **The word behind the name of the command is the path of the input**, unless it keeps the
command from being read. -/
theorem eq_run_of_parse {command : Command}
    (h : parse files ["run", path] = .ok command) :
    command = .run ⟨Path.ofText path, Settings.standard.port⟩ := by
  have hrun : top.classifyWord "run" = .ok (.operand "run") := rfl
  obtain ⟨classes, hclasses, h⟩ := bind_eq_ok_iff.1 h
  rw [Grammar.classify, if_neg (by decide), hrun] at hclasses
  obtain ⟨_, ⟨⟩, hclasses⟩ := bind_eq_ok_iff.1 hclasses
  obtain ⟨words, hwords, hclasses⟩ := bind_eq_ok_iff.1 hclasses
  obtain ⟨word, rfl, -⟩ := classify_singleton hwords
  cases hclasses
  obtain ⟨_, ⟨⟩, h⟩ := bind_eq_ok_iff.1 h
  dsimp only at h
  rw [if_neg (by decide), if_pos rfl] at h
  obtain ⟨r, hr, h⟩ := bind_eq_ok_iff.1 h
  obtain ⟨-, -, h⟩ := bind_eq_ok_iff.1 h
  obtain ⟨o, ho, h⟩ := bind_eq_ok_iff.1 h
  cases h
  obtain ⟨again, hagain, hr⟩ := bind_eq_ok_iff.1 hr
  obtain ⟨word', rfl, hword'⟩ := classify_singleton hagain
  obtain ⟨t, rfl, rfl⟩ := read_singleton hr
  obtain rfl := hword' t rfl
  rw [eq_of_ofData (checked_eq_ok_iff.1 ho)]

end CommandLine

end Abacus
