import Mathlib
import Abacus.Proofs.Json.Mark
import Abacus.Proofs.Json.Printer
import Abacus.Proofs.Json.Reader

/-!
# Scalars inside other texts

A text whose value is no container is one token with blanks about it. So it has the same value where
it stands inside another text, before a punctuation mark.

* `tokensFrom_add`: the tokens of a text do not depend on where it starts;
* `Reader.Inside`, `Reader.step_inside`: a reading that has opened a container ends in one;
* `exists_tokens_of_reads`: the one token of a text whose value is no container;
* `Reader.run_of_reads`: reading such a text inside another one.
-/

namespace Abacus.Json

/-- The tokens of a text do not depend on where it starts, but for their offsets. -/
theorem tokensFrom_add (k offset : ℕ) (t : Text) :
    tokensFrom (k + offset) t = (tokensFrom offset t).map fun l => ⟨l.token, k + l.offset⟩ := by
  induction offset, t using tokensFrom.induct with
  | case1 offset => rw [tokensFrom, tokensFrom, List.map_nil]
  | case2 offset c t hspace ih =>
    rw [tokensFrom, if_pos hspace, tokensFrom, if_pos hspace, ← ih, Nat.add_assoc]
  | case3 offset c t hspace lexeme ih =>
    rw [Bool.not_eq_true] at hspace
    rw [tokensFrom_cons hspace, tokensFrom_cons hspace, List.map_cons, ← ih]
    simp only [lexeme, Nat.add_assoc]

/-- An array or an object. -/
def Value.IsContainer (v : Value) : Prop :=
  (∃ items, v = .array items) ∨ ∃ members, v = .object members

namespace Reader

/-- A container has been opened, or the value that was read is one. -/
def Inside : State → Prop
  | .value stack => stack ≠ []
  | .after stack v => stack ≠ [] ∨ v.IsContainer
  | _ => True

/-- The state behind the opening of a container. -/
theorem eq_of_opening {stack : List Frame} {container : Container} {next s : State}
    (h : opening stack container next = .ok s) : s = next := by
  unfold opening at h
  split_ifs at h
  cases h
  rfl

theorem inside_of_readValue {stack : List Frame} (h : stack ≠ []) {t : Located} {s : State}
    (hs : readValue stack t = .ok s) : Inside s := by
  obtain ⟨token, offset⟩ := t
  cases token with
  | scalar v =>
    cases hs
    exact .inl h
  | text t =>
    cases hs
    exact .inl h
  | openArray =>
    obtain rfl : s = .itemOrEnd stack := eq_of_opening hs
    trivial
  | openObject =>
    obtain rfl : s = .nameOrEnd stack := eq_of_opening hs
    trivial
  | closeArray | closeObject | comma | colon | fault => cases hs

theorem inside_of_readName {stack : List Frame} {members : Members} {t : Located} {s : State}
    (hs : readName stack members t = .ok s) : Inside s := by
  obtain ⟨token, offset⟩ := t
  cases token with
  | text t =>
    cases hs
    trivial
  | fault f => cases f <;> cases hs
  | scalar | openArray | openObject | closeArray | closeObject | comma | colon => cases hs

/-- What is inside a container stays so, up to the end of the container. -/
theorem step_inside {s s' : State} {t : Located} (h : Inside s) (hs : step s t = .ok s') :
    Inside s' := by
  cases s with
  | value stack => exact inside_of_readValue h hs
  | itemOrEnd stack =>
    rw [step] at hs
    split at hs
    · cases hs
      exact .inr (.inl ⟨_, rfl⟩)
    · exact inside_of_readValue (List.cons_ne_nil _ _) hs
  | nameOrEnd stack =>
    rw [step] at hs
    split at hs
    · cases hs
      exact .inr (.inr ⟨_, rfl⟩)
    · exact inside_of_readName hs
  | name stack members => exact inside_of_readName hs
  | colon stack members name =>
    rw [step] at hs
    split at hs
    · cases hs
      exact List.cons_ne_nil _ _
    · cases hs
  | after stack v =>
    rcases stack with _ | ⟨_ | _, stack⟩
    · cases hs
    · rw [step] at hs
      split at hs
      · cases hs
        exact List.cons_ne_nil _ _
      · cases hs
        exact .inr (.inl ⟨_, rfl⟩)
      · cases hs
    · rw [step] at hs
      split at hs
      · cases hs
        trivial
      · cases hs
        exact .inr (.inr ⟨_, rfl⟩)
      · cases hs

/-- A reading inside a container ends in one. -/
theorem Reads.isContainer {s : State} {ts : List Located} {v : Value} (h : Reads s ts v)
    (hs : Inside s) : v.IsContainer := by
  induction h with
  | done v => exact hs.resolve_left fun h => h rfl
  | next h _ ih => exact ih (step_inside hs h)

/-- After the outermost value nothing is read. -/
theorem reads_after_nil {v w : Value} {ts : List Located} (h : Reads (.after [] v) ts w) :
    ts = [] ∧ w = v := by
  cases h with
  | done => exact ⟨rfl, rfl⟩
  | next h _ => cases h

end Reader

/-- **A text whose value is no container is one token**, which is read as that value wherever a
value is expected. -/
theorem exists_tokens_of_reads {t : Text} {v : Value} (h : Reads t v) (hv : ¬v.IsContainer) :
    ∃ k offset, tokens t = [⟨k, offset⟩] ∧ k ≠ .closeArray ∧
      ∀ stack offset, Reader.readValue stack ⟨k, offset⟩ = .ok (.after stack v) := by
  rw [Reads] at h
  generalize tokens t = ts at h
  cases h with
  | @next _ s l ts _ hstep h =>
    obtain ⟨token, offset⟩ := l
    have hinside : ¬Reader.Inside s := fun hs => hv (h.isContainer hs)
    rw [Reader.step] at hstep
    cases token with
    | scalar w =>
      cases hstep
      obtain ⟨rfl, rfl⟩ := Reader.reads_after_nil h
      exact ⟨_, offset, rfl, by simp, fun _ _ => rfl⟩
    | text w =>
      cases hstep
      obtain ⟨rfl, rfl⟩ := Reader.reads_after_nil h
      exact ⟨_, offset, rfl, by simp, fun _ _ => rfl⟩
    | openArray =>
      obtain rfl : s = .itemOrEnd [] := Reader.eq_of_opening hstep
      exact absurd trivial hinside
    | openObject =>
      obtain rfl : s = .nameOrEnd [] := Reader.eq_of_opening hstep
      exact absurd trivial hinside
    | closeArray | closeObject | comma | colon | fault => cases hstep

/-- **A text whose value is no container has that value inside another text**, where a value is
expected and a mark follows. -/
theorem Reader.run_of_reads {t : Text} {v : Value} (h : Json.Reads t v) (hv : ¬v.IsContainer)
    {s : State} {stack : List Frame} (hs : ExpectsValue s stack) {p : Char × Token}
    (hp : p ∈ punctuation) (rest : Text) (offset size : ℕ) :
    run size s (tokensFrom offset (t ++ CodePoint.ofChar p.1 :: rest)) =
      run size (.after stack v)
        (tokensFrom (offset + t.length) (CodePoint.ofChar p.1 :: rest)) := by
  obtain ⟨k, o, htokens, hk, hread⟩ := exists_tokens_of_reads h hv
  have hshifted : tokensFrom offset t = [⟨k, offset + o⟩] := by
    have hadd := tokensFrom_add offset 0 t
    rw [← tokens, htokens] at hadd
    exact hadd
  have hfault : ∀ l ∈ tokensFrom offset t, ∀ f, l.token ≠ .fault f := by
    rw [hshifted]
    rintro l hl f
    rw [List.mem_singleton] at hl
    subst hl
    have hstep : step (.value []) ⟨k, offset + o⟩ = .ok (.after [] v) := hread [] _
    exact not_fault_of_step hstep f
  rw [tokensFrom_append (IsMark.isBoundary ⟨p, hp, rfl⟩) hfault, hshifted]
  refine run_cons_of_ok ?_ _ _
  rw [step_of_expectsValue hs hk]
  exact hread stack _

end Abacus.Json
