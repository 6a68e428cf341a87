import Mathlib
import Abacus.Json.Reader

/-!
# What a reader meets first

The course of a reading as relations, apart from the function that computes its outcome.

* `Reader.Reads`, `Reader.Meets`: the tokens lead to a value, or to a first obstacle;
* `Reader.run_eq_ok_iff`, `Reader.run_eq_error_iff`: the outcome of a run is the one that exists;
* `Reads`, `Meets`, `ofDecoded_eq_ok_iff`, `ofDecoded_eq_error_iff`: the same for a whole text;
* `Reader.step_fault`: a fault is an obstacle in every state.
-/

namespace Abacus.Json

namespace Reader

/-- Tokens lead from a state to a value. -/
inductive Reads : State → List Located → Value → Prop
  | done (v : Value) : Reads (.after [] v) [] v
  | next {s s' : State} {t : Located} {ts : List Located} {v : Value} (h : step s t = .ok s')
      (hs' : Reads s' ts v) : Reads s (t :: ts) v

/-- Tokens lead from a state to a first obstacle, in one of them or at their end. -/
inductive Meets (size : ℕ) : State → List Located → Obstacle → Prop
  | here {s : State} {t : Located} {o : Obstacle} (h : step s t = .error o) (ts : List Located) :
      Meets size s (t :: ts) o
  | later {s s' : State} {t : Located} {ts : List Located} {o : Obstacle} (h : step s t = .ok s')
      (hs' : Meets size s' ts o) : Meets size s (t :: ts) o
  | atEnd {s : State} {o : Obstacle} (h : finish size s = .error o) : Meets size s [] o

theorem finish_eq_ok_iff {size : ℕ} {s : State} {v : Value} :
    finish size s = .ok v ↔ s = .after [] v := by
  constructor
  · intro h
    cases s with
    | after stack w =>
      cases stack with
      | nil =>
        cases h
        rfl
      | cons frame stack => cases h
    | _ => cases h
  · rintro rfl
    rfl

/-- **A run ends in the value that its tokens lead to.** -/
theorem run_eq_ok_iff {size : ℕ} {s : State} {ts : List Located} {v : Value} :
    run size s ts = .ok v ↔ Reads s ts v := by
  constructor
  · intro h
    induction ts generalizing s with
    | nil =>
      rw [run, finish_eq_ok_iff] at h
      subst h
      exact .done v
    | cons t ts ih =>
      rw [run] at h
      cases hstep : step s t with
      | ok next =>
        rw [hstep] at h
        exact .next hstep (ih h)
      | error o =>
        rw [hstep] at h
        cases h
  · intro h
    induction h with
    | done v => rfl
    | next h _ ih =>
      rw [run, h]
      exact ih

/-- **A run that fails fails by the first obstacle that its tokens lead to.** -/
theorem run_eq_error_iff {size : ℕ} {s : State} {ts : List Located} {o : Obstacle} :
    run size s ts = .error o ↔ Meets size s ts o := by
  constructor
  · intro h
    induction ts generalizing s with
    | nil => exact .atEnd h
    | cons t ts ih =>
      rw [run] at h
      cases hstep : step s t with
      | ok next =>
        rw [hstep] at h
        exact .later hstep (ih h)
      | error o' =>
        rw [hstep] at h
        cases h
        exact .here hstep ts
  · intro h
    induction h with
    | here h ts => rw [run, h]
    | later h _ ih =>
      rw [run, h]
      exact ih
    | atEnd h => exact h

/-- A fault is an obstacle in every state. -/
theorem step_fault (s : State) (f : TokenFault) (offset : ℕ) :
    ∃ o, step s ⟨.fault f, offset⟩ = .error o := by
  cases s with
  | value stack => exact ⟨_, rfl⟩
  | itemOrEnd stack => exact ⟨_, rfl⟩
  | nameOrEnd stack => cases f <;> exact ⟨_, rfl⟩
  | name stack members => cases f <;> exact ⟨_, rfl⟩
  | colon stack members name => exact ⟨_, rfl⟩
  | after stack v =>
    cases stack with
    | nil => exact ⟨_, rfl⟩
    | cons frame stack => cases frame <;> exact ⟨_, rfl⟩

/-- A token that is read is no fault. -/
theorem not_fault_of_step {s s' : State} {t : Located} (h : step s t = .ok s') (f : TokenFault) :
    t.token ≠ .fault f := by
  obtain ⟨token, offset⟩ := t
  rintro rfl
  obtain ⟨o, ho⟩ := step_fault s f offset
  rw [ho] at h
  cases h

/-- No token of a text that is read is a fault. -/
theorem Reads.not_fault {s : State} {ts : List Located} {v : Value} (h : Reads s ts v) :
    ∀ t ∈ ts, ∀ f, t.token ≠ .fault f := by
  induction h with
  | done v => exact fun _ ht => absurd ht List.not_mem_nil
  | next h _ ih =>
    intro t ht
    rcases List.mem_cons.1 ht with rfl | ht
    · exact not_fault_of_step h
    · exact ih t ht

theorem token_of_readValue_tooDeep {stack : List Frame} {t : Located} {c : Container}
    (h : readValue stack t = .error (.tooDeep c)) :
    t.token = .openArray ∨ t.token = .openObject := by
  obtain ⟨token, offset⟩ := t
  cases token with
  | openArray => exact .inl rfl
  | openObject => exact .inr rfl
  | fault f => cases f <;> cases h
  | _ => cases h

theorem readName_ne_tooDeep (stack : List Frame) (members : Members) (t : Located)
    (c : Container) : readName stack members t ≠ .error (.tooDeep c) := by
  intro h
  obtain ⟨token, offset⟩ := t
  cases token with
  | fault f => cases f <;> cases h
  | _ => cases h

/-- Only the opening of a container can be too deep. -/
theorem token_of_step_tooDeep {s : State} {t : Located} {c : Container}
    (h : step s t = .error (.tooDeep c)) : t.token = .openArray ∨ t.token = .openObject := by
  cases s with
  | value stack => exact token_of_readValue_tooDeep h
  | itemOrEnd stack =>
    rw [step] at h
    split at h
    · cases h
    · exact token_of_readValue_tooDeep h
  | nameOrEnd stack =>
    rw [step] at h
    split at h
    · cases h
    · exact absurd h (readName_ne_tooDeep _ _ _ _)
  | name stack members => exact absurd h (readName_ne_tooDeep _ _ _ _)
  | colon stack members name =>
    rw [step] at h
    split at h <;> cases h
  | after stack v =>
    rcases stack with _ | ⟨_ | _, stack⟩
    · cases h
    · rw [step] at h
      split at h <;> cases h
    · rw [step] at h
      split at h <;> cases h

theorem finish_ne_tooDeep (size : ℕ) (s : State) (c : Container) :
    finish size s ≠ .error (.tooDeep c) := by
  intro h
  cases s with
  | after stack v => cases stack <;> cases h
  | _ => cases h

end Reader

/-- A text has a value. -/
def Reads (t : Text) (v : Value) : Prop := Reader.Reads (.value []) (tokens t) v

/-- The first obstacle in a text. -/
def Meets (t : Text) (o : Reader.Obstacle) : Prop :=
  Reader.Meets t.length (.value []) (tokens t) o

theorem ofDecoded_eq_ok_iff {t : Text} {v : Value} : ofDecoded t = .ok v ↔ Reads t v := by
  rw [Reads, ← @Reader.run_eq_ok_iff t.length, ofDecoded]
  cases Reader.run t.length (.value []) (tokens t) <;> simp

/-- A text that has a value does not begin with a byte order mark. -/
theorem ofDecoded_of_ofText {t : Text} {v : Value} (h : ofText t = .ok v) :
    ofDecoded t = .ok v := by
  cases t with
  | nil => exact h
  | cons c t =>
    rw [ofText] at h
    split_ifs at h
    exact h

/-- The error of a text that has no value is the report of its first obstacle. -/
theorem ofDecoded_eq_error_iff {t : Text} {e : DecodeError} :
    ofDecoded t = .error e ↔ ∃ o, Meets t o ∧ e = Reader.report t o := by
  simp only [Meets, ← Reader.run_eq_error_iff, ofDecoded]
  cases Reader.run t.length (.value []) (tokens t) with
  | ok v => simp
  | error o => simp [eq_comm]

end Abacus.Json
