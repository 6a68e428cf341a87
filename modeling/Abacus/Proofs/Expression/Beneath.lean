import Mathlib
import Abacus.Proofs.Expression.Defect

/-!
# The walk does not look beneath the limit

A node that stands inside as many operations as the limit admits is rejected for its depth before
anything in it is looked at. So what it holds is of no consequence, and the calls of the walk that
are open at once are never more than the limit and one.

* `AgreeDownTo`: values that are the same but for nodes inside a given number of operations;
* `Traced`, `tracedWalk`: the walk again, with a note of how many of its calls are open at each;
* `Traced.Makes`: the outcome of a traced computation and a bound on its notes, with one lemma for
  each way to put computations together;
* `makes_tracedWalk`: the traced walk is the walk, and what it notes is bounded;
* `tracedWalk_eq`: values that agree are walked alike, call by call.
-/

namespace Abacus.Expression

/-! ## Values that agree -/

/-- Members that are the same, or lists of arguments with related items. -/
inductive MemberAgrees (R : Json.Value → Json.Value → Prop) :
    Text × Json.Value → Text × Json.Value → Prop
  | same (m : Text × Json.Value) : MemberAgrees R m m
  | arguments {items items' : List Json.Value} (h : List.Forall₂ R items items') :
      MemberAgrees R ("args", .array items) ("args", .array items')

/-- Two values are the same but for nodes inside exactly `levels` operations, which may be any. -/
def AgreeDownTo : (levels : ℕ) → Json.Value → Json.Value → Prop
  | 0, v, w => v = w ∨ ∃ members members', v = .object members ∧ w = .object members' ∧
      IsNode members ∧ IsNode members'
  | levels + 1, v, w => v = w ∨ ∃ members members', v = .object members ∧ w = .object members' ∧
      List.Forall₂ (MemberAgrees (AgreeDownTo levels)) members members'

section Members

variable {R : Json.Value → Json.Value → Prop} {members members' : Json.Members}

/-- Members that agree have the same names, and the same values but for the arguments. -/
theorem get?_eq_of_agrees (h : List.Forall₂ (MemberAgrees R) members members') {name : Text}
    (hname : name ≠ "args") : members.get? name = members'.get? name := by
  induction h with
  | nil => rfl
  | @cons m m' members members' hm _ ih =>
    rw [Json.Members.get?, Json.Members.get?] at ih ⊢
    cases hm with
    | same m => rw [List.lookup_cons, List.lookup_cons, ih]
    | arguments _ =>
      rw [List.lookup_cons, List.lookup_cons, beq_eq_false_iff_ne.2 hname]
      exact ih

/-- The arguments of members that agree are the same, or lists with related items. -/
theorem get?_args_of_agrees (h : List.Forall₂ (MemberAgrees R) members members') :
    members.get? "args" = members'.get? "args" ∨ ∃ items items', List.Forall₂ R items items' ∧
      members.get? "args" = some (.array items) ∧ members'.get? "args" = some (.array items') := by
  induction h with
  | nil => exact .inl rfl
  | @cons m m' members members' hm _ ih =>
    rw [Json.Members.get?, Json.Members.get?] at ih ⊢
    cases hm with
    | same m =>
      rw [List.lookup_cons, List.lookup_cons]
      cases (("args" : Text) == m.1) with
      | true => exact .inl rfl
      | false => exact ih
    | arguments hitems =>
      rw [List.lookup_cons, List.lookup_cons, beq_self_eq_true]
      exact .inr ⟨_, _, hitems, rfl, rfl⟩

end Members

/-! ## A walk that notes its calls -/

/-- Computations that may fail and that keep notes, also when they fail. -/
abbrev Traced (α : Type) : Type := ExceptT ValidationError (StateM (List ℕ)) α

/-- A computation of the walk, which makes no call. -/
def Traced.ofExcept {α : Type} (x : Except ValidationError α) : Traced α := ExceptT.mk (pure x)

/-- Notes that a call is made while `depth` calls are open, the call itself included. -/
def Traced.note (depth : ℕ) : Traced Unit := modify (· ++ [depth])

/-- The walk, clause by clause, with a note at the beginning of each of its calls. -/
def tracedWalk (limit : ℤ) : (levels depth : ℕ) → Json.Value → Traced Expression
  | levels, depth, value => do
    Traced.note depth
    match value.finite? with
    | some x => return .literal x
    | none =>
      match value with
      | .object members =>
        if !(Json.Members.has members "op" || Json.Members.has members "args") then
          Traced.ofExcept (.error .notANodeOrNumber)
        else
          match levels with
          | 0 => Traced.ofExcept (.error (.depthLimitExceeded limit))
          | below + 1 => do
            let op ← Traced.ofExcept (operatorOf ((Json.Members.get? members "op").getD .null))
            let (first, rest) ← Traced.ofExcept (argumentsOf op (Json.Members.get? members "args"))
            let first ← tracedWalk limit below (depth + 1) first
            let rest ← rest.mapM (tracedWalk limit below (depth + 1))
            return .operation op first rest
      | _ => Traced.ofExcept (.error .notANodeOrNumber)

namespace Traced

variable {α β : Type} {p : ℕ → Prop}

/-- A traced computation ends in the outcome of another one, and all that it notes is bounded. -/
def Makes (x : Traced α) (r : Except ValidationError α) (p : ℕ → Prop) : Prop :=
  ∀ notes, ∃ more, x.run.run notes = (r, notes ++ more) ∧ ∀ n ∈ more, p n

theorem makes_ofExcept (r : Except ValidationError α) : (ofExcept r).Makes r p :=
  fun notes => ⟨[], by rw [List.append_nil]; rfl, by simp⟩

theorem ofExcept_ok (a : α) : ofExcept (.ok a) = (pure a : Traced α) := rfl

/-- One computation after another. -/
theorem Makes.bind {x : Traced α} {f : α → Traced β} {r : Except ValidationError α}
    {g : α → Except ValidationError β} (hx : x.Makes r p)
    (hf : ∀ a, r = .ok a → (f a).Makes (g a) p) : (x >>= f).Makes (r >>= g) p := by
  intro notes
  obtain ⟨more, hrun, hmore⟩ := hx notes
  rw [ExceptT.run_bind, StateT.run_bind, hrun]
  cases r with
  | error e => exact ⟨more, rfl, hmore⟩
  | ok a =>
    obtain ⟨later, hlater, hbound⟩ := hf a rfl (notes ++ more)
    rw [List.append_assoc] at hlater
    exact ⟨more ++ later, hlater, fun n hn => (List.mem_append.1 hn).elim (hmore n) (hbound n)⟩

/-- A note, and then a computation. -/
theorem Makes.after_note {depth : ℕ} {x : Traced α} {r : Except ValidationError α} (h : p depth)
    (hx : x.Makes r p) : (note depth >>= fun _ => x).Makes r p := by
  have hnote : (note depth).Makes (.ok ()) p := fun _ => ⟨[depth], rfl, by simpa using h⟩
  exact hnote.bind fun _ _ => hx

theorem makes_mapM {f : α → Traced β} {g : α → Except ValidationError β}
    (h : ∀ a, (f a).Makes (g a) p) (as : List α) : (as.mapM f).Makes (as.mapM g) p := by
  induction as with
  | nil => exact makes_ofExcept _
  | cons a as ih =>
    rw [List.mapM_cons, List.mapM_cons]
    exact (h a).bind fun _ _ => ih.bind fun _ _ => makes_ofExcept _

end Traced

open Traced (makes_ofExcept makes_mapM)

variable {limit : ℤ} {levels depth : ℕ} {v w : Json.Value}

/-- **The traced walk is the walk**, and notes no more open calls than there are levels, on top of
those that were open when it began. -/
theorem makes_tracedWalk (limit : ℤ) (levels depth : ℕ) (v : Json.Value) :
    (tracedWalk limit levels depth v).Makes (walk limit levels v) (· ≤ depth + levels) := by
  induction levels using Nat.strong_induction_on generalizing depth v with
  | _ levels ih =>
    unfold tracedWalk walk
    refine .after_note (Nat.le_add_right depth levels) ?_
    cases v.finite? with
    | some x => exact makes_ofExcept _
    | none =>
      cases v with
      | object members =>
        dsimp only
        split_ifs
        · exact makes_ofExcept _
        cases levels with
        | zero => exact makes_ofExcept _
        | succ below =>
          have hbelow : ∀ u, (tracedWalk limit below (depth + 1) u).Makes (walk limit below u)
              (· ≤ depth + (below + 1)) := by
            intro u
            have h := ih below (Nat.lt_succ_self below) (depth + 1) u
            rwa [Nat.add_right_comm, Nat.add_assoc] at h
          refine (makes_ofExcept _).bind fun op _ => (makes_ofExcept _).bind fun arguments _ => ?_
          exact (hbelow _).bind fun a _ => (makes_mapM hbelow _).bind fun as _ => makes_ofExcept _
      | _ => exact makes_ofExcept _

/-! ## Values that agree are walked alike -/

theorem isNode_of_agrees {R : Json.Value → Json.Value → Prop} {members members' : Json.Members}
    (h : List.Forall₂ (MemberAgrees R) members members') : IsNode members ↔ IsNode members' := by
  rw [IsNode, IsNode, get?_eq_of_agrees h (by decide)]
  rcases get?_args_of_agrees h with hargs | ⟨items, items', -, hargs, hargs'⟩
  · rw [hargs]
  · rw [hargs, hargs']
    simp

/-- Traced computations that agree on related members agree on lists of them. -/
theorem mapM_congr_of_forall₂ {R : Json.Value → Json.Value → Prop}
    {vs ws : List Json.Value} (h : List.Forall₂ R vs ws) {f : Json.Value → Traced Expression}
    (hf : ∀ v w, R v w → f v = f w) : vs.mapM f = ws.mapM f := by
  induction h with
  | nil => rfl
  | cons hfirst _ ih => rw [List.mapM_cons, List.mapM_cons, hf _ _ hfirst, ih]

/-- **Values that agree down to the last level are walked alike**: the outcome is the same, and so
is every call. -/
theorem tracedWalk_eq (h : AgreeDownTo levels v w) :
    tracedWalk limit levels depth v = tracedWalk limit levels depth w := by
  induction levels generalizing depth v w with
  | zero =>
    obtain rfl | ⟨members, members', rfl, rfl, hnode, hnode'⟩ := h
    · rfl
    · unfold tracedWalk
      simp only [Json.Value.finite?, has_or_has_eq_true_iff.2 hnode,
        has_or_has_eq_true_iff.2 hnode']
  | succ below ih =>
    obtain rfl | ⟨members, members', rfl, rfl, hmembers⟩ := h
    · rfl
    have hhas : (Json.Members.has members "op" || Json.Members.has members "args") =
        (Json.Members.has members' "op" || Json.Members.has members' "args") := by
      rw [Bool.eq_iff_iff, has_or_has_eq_true_iff, has_or_has_eq_true_iff,
        isNode_of_agrees hmembers]
    unfold tracedWalk
    have hop : Json.Members.get? members "op" = Json.Members.get? members' "op" :=
      get?_eq_of_agrees hmembers (by decide)
    simp only [Json.Value.finite?, hhas, hop]
    rcases get?_args_of_agrees hmembers with hargs | ⟨items, items', hitems, hargs, hargs'⟩
    · rw [hargs]
    · rw [hargs, hargs']
      cases hitems with
      | nil => rfl
      | cons hfirst hrest =>
        have hitems := mapM_congr_of_forall₂ hrest fun _ _ h => @ih (depth + 1) _ _ h
        simp only [argumentsOf, Traced.ofExcept_ok, pure_bind, ih hfirst, hitems]

/-! ## The validator -/

/-- The numbers of open calls that the validator notes, one for each call in order. -/
def openCalls (limit : ℤ) (v : Json.Value) : List ℕ :=
  ((tracedWalk limit limit.toNat 1 v).run.run []).2

/-- **The validator does not look beneath its limit.** Two values that are the same but for nodes
inside as many operations as the limit admits, whatever these hold, come to the same expression or
to the same error, call by call; and of any value no more calls are open at once than the limit and
one. -/
theorem validate_beneath (limit : ℕ) :
    (∀ v w, AgreeDownTo limit v w →
      validate limit v = validate limit w ∧ openCalls limit v = openCalls limit w) ∧
    ∀ v, (tracedWalk limit limit 1 v).run.run [] = (validate limit v, openCalls limit v) ∧
      ∀ n ∈ openCalls limit v, n ≤ limit + 1 := by
  have hmakes : ∀ v, (tracedWalk limit limit 1 v).run.run [] =
      (validate limit v, openCalls limit v) ∧ ∀ n ∈ openCalls limit v, n ≤ limit + 1 := by
    intro v
    obtain ⟨calls, hrun, hcalls⟩ := makes_tracedWalk limit limit 1 v []
    have hopen : openCalls limit v = calls := congrArg Prod.snd hrun
    rw [hopen]
    exact ⟨hrun, fun n hn => (hcalls n hn).trans_eq (Nat.add_comm 1 limit)⟩
  refine ⟨fun v w h => ?_, hmakes⟩
  have heq := (hmakes v).1.symm.trans ((congrArg (fun t => t.run.run []) (tracedWalk_eq h)).trans
    (hmakes w).1)
  exact Prod.mk.inj heq

/-- Two sums whose one argument is a node without a meaning, one level too deep. -/
theorem validate_beneath_one_level :
    let sum := fun members : Json.Members =>
      Json.Value.object [("op", .text "add"), ("args", .array [.object members])]
    let v := sum [("op", .int 5)]
    let w := sum [("args", .array [.null, .object []]), ("op", .bool true)]
    AgreeDownTo 1 v w ∧ validate (1 : ℕ) v = validate (1 : ℕ) w ∧
      openCalls (1 : ℕ) v = openCalls (1 : ℕ) w ∧ (∀ n ∈ openCalls (1 : ℕ) v, n ≤ 2) ∧
      openCalls (1 : ℕ) v = [1, 2] ∧ validate (1 : ℕ) v = .error (.depthLimitExceeded 1) := by
  intro sum v w
  have hnodes : AgreeDownTo 0 (.object [("op", .int 5)])
      (.object [("args", .array [.null, .object []]), ("op", .bool true)]) :=
    .inr ⟨_, _, rfl, rfl, .inl (by decide +kernel), .inr (by decide +kernel)⟩
  have hagree : AgreeDownTo 1 v w :=
    .inr ⟨_, _, rfl, rfl, .cons (.same _) (.cons (.arguments (.cons hnodes .nil)) .nil)⟩
  obtain ⟨hsame, hbound⟩ := validate_beneath 1
  exact ⟨hagree, (hsame v w hagree).1, (hsame v w hagree).2, (hbound v).2, rfl, rfl⟩

end Abacus.Expression
