import Mathlib
import Abacus.Proofs.Expression.Grammar

/-!
# The first defect in pre-order

What the validator reports about a value that is no expression, read off the list of the positions
of the value in pre-order.

* `Position`, `positions`: what stands in a value, each with the number of operations around it;
* `Defect`: what is wrong with a position by itself, the six rules with their precedence;
* `FirstDefect`: the defect of the first defective position of a list;
* `ValidationError.wording`: the words in which a defect is told.

`walk_spec` shows by induction over the levels that the walk either passes and meets no defective
position, or fails by the defect of the first one; `validate_firstDefect` is that for a whole value.
-/

namespace Abacus

/-- The words in which a defect is told. -/
def ValidationError.wording : ValidationError → Text
  | notANodeOrNumber => "Invalid node: must be a number or \x7b op, args \x7d."
  | unsupportedOperator op =>
    ("Unsupported \"op\" " : Text) ++ op.display ++
      (". Supported: add, subtract, multiply, divide, power, root" : Text)
  | emptyArguments op =>
    ("\"" : Text) ++ Text.ofString op.name ++ ("\" requires at least one argument." : Text)
  | argumentsNotASequence op =>
    ("\"" : Text) ++ Text.ofString op.name ++
      ("\" requires \"args\" to be a list of arguments." : Text)
  | depthLimitExceeded limit =>
    ("Expression is nested deeper than " : Text) ++ Text.ofInt limit ++ (" levels." : Text)

namespace Expression

/-- A place in a value: how many operations there are around it, and what stands there. -/
structure Position where
  enclosing : ℕ
  value : Json.Value

mutual

/-- The positions of a value in pre-order: the value itself and, if it is an object whose member
`args` is an array, those of the items of the array from left to right. -/
def positions (enclosing : ℕ) : Json.Value → List Position
  | .object members => ⟨enclosing, .object members⟩ :: positionsOfMembers (enclosing + 1) members
  | v => [⟨enclosing, v⟩]

/-- The positions of the first member that is named `args`, if it is an array. -/
def positionsOfMembers (enclosing : ℕ) : List (Text × Json.Value) → List Position
  | [] => []
  | (name, v) :: rest =>
    if name = "args" then positionsOfItems enclosing v else positionsOfMembers enclosing rest

/-- The positions of the items of a value, if it is an array. -/
def positionsOfItems (enclosing : ℕ) : Json.Value → List Position
  | .array items => positionsOfAll enclosing items
  | _ => []

/-- The positions of values from left to right. -/
def positionsOfAll (enclosing : ℕ) : List Json.Value → List Position
  | [] => []
  | v :: rest => positions enclosing v ++ positionsOfAll enclosing rest

end

/-- An object has one of the two members that make it out as an operation. -/
def IsNode (members : Json.Members) : Prop :=
  members.get? "op" ≠ none ∨ members.get? "args" ≠ none

/-- **What is wrong with a position by itself.** A value is a number or a node. A node may not stand
too deep; if it does not, its member `op`, null for want of one, must name an operator; if it does,
its member `args` must be an array; if it is, it must have an item. -/
inductive Defect (limit : ℤ) : Position → ValidationError → Prop
  | notANodeOrNumber {p : Position} (number : ∀ x, ¬IsNumber p.value x)
      (object : ∀ members, p.value = .object members → ¬IsNode members) :
      Defect limit p .notANodeOrNumber
  | depthLimitExceeded {k : ℕ} {members : Json.Members} (node : IsNode members)
      (deep : limit < k + 1) : Defect limit ⟨k, .object members⟩ (.depthLimitExceeded limit)
  | unsupportedOperator {k : ℕ} {members : Json.Members} (node : IsNode members)
      (depth : k + 1 ≤ limit) {named : Json.Value} (value : (members.get? "op").getD .null = named)
      (unknown : ∀ op : Operator, named ≠ .text (Text.ofString op.name)) :
      Defect limit ⟨k, .object members⟩ (.unsupportedOperator named)
  | argumentsNotASequence {k : ℕ} {members : Json.Members} {op : Operator} (depth : k + 1 ≤ limit)
      (operator : members.get? "op" = some (.text (Text.ofString op.name)))
      (arguments : ∀ items, members.get? "args" ≠ some (.array items)) :
      Defect limit ⟨k, .object members⟩ (.argumentsNotASequence op)
  | emptyArguments {k : ℕ} {members : Json.Members} {op : Operator} (depth : k + 1 ≤ limit)
      (operator : members.get? "op" = some (.text (Text.ofString op.name)))
      (arguments : members.get? "args" = some (.array [])) :
      Defect limit ⟨k, .object members⟩ (.emptyArguments op)

/-- No position of a list is defective. -/
def Flawless (limit : ℤ) (ps : List Position) : Prop := ∀ p ∈ ps, ∀ e, ¬Defect limit p e

/-- The first defective position of a list has the defect `e`. -/
def FirstDefect (limit : ℤ) (ps : List Position) (e : ValidationError) : Prop :=
  ∃ before p after, ps = before ++ p :: after ∧ Flawless limit before ∧ Defect limit p e

/-! ## Positions -/

/-- The value itself comes first. -/
theorem exists_positions_eq_cons (k : ℕ) (v : Json.Value) :
    ∃ below, positions k v = ⟨k, v⟩ :: below := by
  cases v with
  | object members => exact ⟨_, rfl⟩
  | null | bool | int | float | text | array => exact ⟨[], rfl⟩

theorem positions_of_isNumber {v : Json.Value} {x : Float} (h : IsNumber v x) (k : ℕ) :
    positions k v = [⟨k, v⟩] := by
  cases h <;> rfl

theorem positionsOfAll_eq (k : ℕ) (vs : List Json.Value) :
    positionsOfAll k vs = vs.flatMap (positions k) := by
  induction vs with
  | nil => rfl
  | cons v vs ih => rw [positionsOfAll, ih, List.flatMap_cons]

theorem positionsOfMembers_of_args {members : Json.Members} {items : List Json.Value}
    (h : members.get? "args" = some (.array items)) (k : ℕ) :
    positionsOfMembers k members = items.flatMap (positions k) := by
  induction members with
  | nil => cases h
  | cons m members ih =>
    obtain ⟨name, v⟩ := m
    rw [Json.Members.get?, List.lookup_cons] at h
    rw [positionsOfMembers]
    by_cases hname : name = "args"
    · rw [if_pos hname]
      rw [hname, beq_self_eq_true] at h
      cases h
      exact positionsOfAll_eq k items
    · rw [if_neg hname]
      rw [beq_eq_false_iff_ne.2 (Ne.symm hname)] at h
      exact ih h

/-- Below an operation stand the positions of its items, one operation deeper. -/
theorem positions_of_isOperation {members : Json.Members} {op : Operator}
    {items : List Json.Value} (h : IsOperation members op items) (k : ℕ) :
    positions k (.object members) =
      ⟨k, .object members⟩ :: items.flatMap (positions (k + 1)) := by
  rw [positions, positionsOfMembers_of_args h.args_eq]

/-! ## Defects in a list of positions -/

theorem Flawless.append {limit : ℤ} {ps qs : List Position} (hps : Flawless limit ps)
    (hqs : Flawless limit qs) : Flawless limit (ps ++ qs) :=
  fun p hp => (List.mem_append.1 hp).elim (hps p) (hqs p)

theorem FirstDefect.append_left {limit : ℤ} {ps qs : List Position} {e : ValidationError}
    (hps : Flawless limit ps) (h : FirstDefect limit qs e) : FirstDefect limit (ps ++ qs) e := by
  obtain ⟨before, p, after, rfl, hbefore, hp⟩ := h
  exact ⟨ps ++ before, p, after, by simp, hps.append hbefore, hp⟩

theorem FirstDefect.append_right {limit : ℤ} {ps : List Position} {e : ValidationError}
    (h : FirstDefect limit ps e) (qs : List Position) : FirstDefect limit (ps ++ qs) e := by
  obtain ⟨before, p, after, rfl, hbefore, hp⟩ := h
  exact ⟨before, p, after ++ qs, by simp, hbefore, hp⟩

theorem FirstDefect.not_flawless {limit : ℤ} {ps : List Position} {e : ValidationError}
    (h : FirstDefect limit ps e) : ¬Flawless limit ps := by
  obtain ⟨before, p, after, rfl, -, hp⟩ := h
  exact fun hall => hall p (by simp) e hp

/-! ## The walk against the positions -/

theorem has_or_has_eq_true_iff {members : Json.Members} :
    (members.has "op" || members.has "args") = true ↔ IsNode members := by
  rw [Bool.or_eq_true, Json.Members.has, Json.Members.has, Option.isSome_iff_ne_none,
    Option.isSome_iff_ne_none, IsNode]

theorem IsOperation.isNode {members : Json.Members} {op : Operator} {items : List Json.Value}
    (h : IsOperation members op items) : IsNode members :=
  .inl (by simp [h.op_eq])

/-- What the walk does at an object that is a node, with levels left. -/
theorem walk_node {limit : ℤ} {below : ℕ} {members : Json.Members} (h : IsNode members) :
    walk limit (below + 1) (.object members) = (do
      let op ← operatorOf ((members.get? "op").getD .null)
      let (first, rest) ← argumentsOf op (members.get? "args")
      let first ← walk limit below first
      let rest ← rest.mapM (walk limit below)
      return .operation op first rest) := by
  conv_lhs => unfold walk
  simp only [Json.Value.finite?, has_or_has_eq_true_iff.2 h, Bool.not_true, Bool.false_eq_true,
    if_false]

/-- An operation fails as its items do. -/
theorem walk_isOperation_eq_error_iff {limit : ℤ} {below : ℕ} {members : Json.Members}
    {op : Operator} {v : Json.Value} {vs : List Json.Value}
    (h : IsOperation members op (v :: vs)) {e : ValidationError} :
    walk limit (below + 1) (.object members) = .error e ↔
      (v :: vs).mapM (walk limit below) = .error e := by
  have hop : operatorOf (.text (Text.ofString op.name)) = .ok op := operatorOf_eq_ok_iff.2 rfl
  rw [walk_node h.isNode, h.op_eq, h.args_eq, Option.getD_some, hop, List.mapM_cons]
  dsimp only [argumentsOf, bind, Except.bind]
  cases walk limit below v with
  | error e' => simp only [Except.error.injEq]
  | ok a =>
    dsimp only
    cases vs.mapM (walk limit below) with
    | error e' => simp only [Except.error.injEq]
    | ok as => exact iff_of_false (by rintro ⟨⟩) (by rintro ⟨⟩)

theorem operatorOf_of_unknown {v : Json.Value}
    (h : ∀ op : Operator, v ≠ .text (Text.ofString op.name)) :
    operatorOf v = .error (.unsupportedOperator v) := by
  cases hv : operatorOf v with
  | ok op => exact absurd (operatorOf_eq_ok_iff.1 hv) (h op)
  | error e =>
    cases v with
    | text t =>
      rw [operatorOf] at hv
      split at hv <;> cases hv
      rfl
    | null | bool | int | float | array | object =>
      cases hv
      rfl

theorem argumentsOf_of_not_array {op : Operator} {v : Option Json.Value}
    (h : ∀ items, v ≠ some (.array items)) :
    argumentsOf op v = .error (.argumentsNotASequence op) := by
  rcases v with _ | v
  · rfl
  · cases v with
    | array items => exact absurd rfl (h items)
    | null | bool | int | float | text | object => rfl

/-- **A defective position is rejected by its defect**, whatever stands below it. -/
theorem walk_of_defect {limit : ℤ} {p : Position} {e : ValidationError} (h : Defect limit p e) :
    walk limit (limit.toNat - p.enclosing) p.value = .error e := by
  have hlevels : ∀ {k : ℕ}, (k : ℤ) + 1 ≤ limit →
      limit.toNat - k = limit.toNat - k - 1 + 1 := fun h => by omega
  cases h with
  | notANodeOrNumber hnumber hobject =>
    have hfinite : p.value.finite? = none :=
      Option.eq_none_iff_forall_ne_some.2 fun x hx => hnumber x (isNumber_iff.2 hx)
    unfold walk
    simp only [hfinite]
    generalize p.value = v at hobject
    cases v with
    | object members =>
      have hnode : (Json.Members.has members "op" || Json.Members.has members "args") = false := by
        rw [← Bool.not_eq_true, has_or_has_eq_true_iff]
        exact hobject members rfl
      simp only [hnode, Bool.not_false, if_true]
    | null | bool | int | float | text | array => rfl
  | depthLimitExceeded hnode hdeep =>
    unfold walk
    simp only [Json.Value.finite?, has_or_has_eq_true_iff.2 hnode, Bool.not_true,
      Bool.false_eq_true, if_false]
    rw [show limit.toNat - _ = 0 by omega]
  | unsupportedOperator hnode hdepth hvalue hunknown =>
    dsimp only
    rw [hlevels hdepth, walk_node hnode, hvalue, operatorOf_of_unknown hunknown]
    rfl
  | argumentsNotASequence hdepth hop hargs =>
    dsimp only
    rw [hlevels hdepth, walk_node (.inl (by simp [hop])), hop, Option.getD_some,
      operatorOf_eq_ok_iff.2 rfl]
    dsimp only [bind, Except.bind]
    rw [argumentsOf_of_not_array hargs]
  | emptyArguments hdepth hop hargs =>
    dsimp only
    rw [hlevels hdepth, walk_node (.inl (by simp [hop])), hop, Option.getD_some,
      operatorOf_eq_ok_iff.2 rfl, hargs]
    rfl

/-- A position has one defect at most. -/
theorem Defect.unique {limit : ℤ} {p : Position} {e e' : ValidationError} (h : Defect limit p e)
    (h' : Defect limit p e') : e = e' :=
  Except.error.inj ((walk_of_defect h).symm.trans (walk_of_defect h'))

/-- A list of positions has one first defect at most. -/
theorem FirstDefect.unique {limit : ℤ} {ps : List Position} {e e' : ValidationError}
    (h : FirstDefect limit ps e) (h' : FirstDefect limit ps e') : e = e' := by
  obtain ⟨before, p, after, rfl, hbefore, hp⟩ := h
  obtain ⟨before', p', after', heq, hbefore', hp'⟩ := h'
  rcases List.append_eq_append_iff.1 heq with ⟨mid, rfl, hmid⟩ | ⟨mid, rfl, hmid⟩
  · rcases mid with _ | ⟨q, mid⟩ <;> cases hmid
    · exact hp.unique hp'
    · exact absurd hp (hbefore' p (by simp) e)
  · rcases mid with _ | ⟨q, mid⟩ <;> cases hmid
    · exact hp.unique hp'
    · exact absurd hp' (hbefore p' (by simp) e')

/-- A value without a defect of its own is a number, or an operation over some items that does not
stand too deep. -/
theorem isNumber_or_isOperation {limit : ℤ} {k : ℕ} {v : Json.Value}
    (h : ∀ e, ¬Defect limit ⟨k, v⟩ e) :
    (∃ x, IsNumber v x) ∨ k + 1 ≤ limit ∧ ∃ members op w ws,
      v = .object members ∧ IsOperation members op (w :: ws) := by
  by_contra hne
  rw [not_or] at hne
  obtain ⟨hnumber, hoperation⟩ := hne
  rw [not_exists] at hnumber
  by_cases hobject : ∃ members, v = .object members ∧ IsNode members
  · obtain ⟨members, rfl, hnode⟩ := hobject
    by_cases hdepth : (k : ℤ) + 1 ≤ limit
    · by_cases hop : ∃ op : Operator,
          (Json.Members.get? members "op").getD .null = .text (Text.ofString op.name)
      · obtain ⟨op, hop⟩ := hop
        have hop' : Json.Members.get? members "op" = some (.text (Text.ofString op.name)) := by
          rcases hget : Json.Members.get? members "op" with _ | w <;> rw [hget] at hop <;> cases hop
          rfl
        by_cases hargs : ∃ items, Json.Members.get? members "args" = some (.array items)
        · obtain ⟨items, hargs⟩ := hargs
          cases items with
          | nil => exact h _ (.emptyArguments hdepth hop' hargs)
          | cons w ws => exact hoperation ⟨hdepth, members, op, w, ws, rfl, hop', hargs⟩
        · exact h _ (.argumentsNotASequence hdepth hop' (not_exists.1 hargs))
      · exact h _ (.unsupportedOperator hnode hdepth rfl (not_exists.1 hop))
    · exact h _ (.depthLimitExceeded hnode (not_le.1 hdepth))
  · exact h _ (.notANodeOrNumber hnumber fun members hv hnode => hobject ⟨members, hv, hnode⟩)

/-- What the walk comes to, in terms of the positions of a value inside `k` operations. -/
def Follows (limit : ℤ) (k : ℕ) (v : Json.Value) : Prop :=
  (∃ a, walk limit (limit.toNat - k) v = .ok a) ∧ Flawless limit (positions k v) ∨
    ∃ e, walk limit (limit.toNat - k) v = .error e ∧ FirstDefect limit (positions k v) e

/-- The same of the items of an operation. -/
theorem mapM_walk_spec {limit : ℤ} {k : ℕ} {vs : List Json.Value}
    (h : ∀ v ∈ vs, Follows limit k v) :
    (∃ as, vs.mapM (walk limit (limit.toNat - k)) = .ok as) ∧
        Flawless limit (vs.flatMap (positions k)) ∨
      ∃ e, vs.mapM (walk limit (limit.toNat - k)) = .error e ∧
        FirstDefect limit (vs.flatMap (positions k)) e := by
  -- A value that passes has no defect in it, one that fails begins with its first defect.
  have hok : ∀ v ∈ vs, (∃ a, walk limit (limit.toNat - k) v = .ok a) →
      Flawless limit (positions k v) := by
    rintro v hv ⟨a, ha⟩
    rcases h v hv with ⟨-, hflawless⟩ | ⟨e, he, -⟩
    · exact hflawless
    · rw [ha] at he
      cases he
  cases hmap : vs.mapM (walk limit (limit.toNat - k)) with
  | ok as =>
    refine .inl ⟨⟨as, rfl⟩, fun p hp => ?_⟩
    obtain ⟨v, hv, hp⟩ := List.mem_flatMap.1 hp
    obtain ⟨a, -, ha⟩ := exists_of_mem_left (mapM_eq_ok_iff.1 hmap) hv
    exact hok v hv ⟨a, ha⟩ p hp
  | error e =>
    obtain ⟨before, v, after, rfl, hbefore, hv⟩ := mapM_eq_error_iff.1 hmap
    refine .inr ⟨e, rfl, ?_⟩
    rw [List.flatMap_append, List.flatMap_cons]
    refine .append_left (fun p hp => ?_) (.append_right ?_ _)
    · obtain ⟨w, hw, hp⟩ := List.mem_flatMap.1 hp
      exact hok w (List.mem_append_left _ hw) (hbefore w hw) p hp
    · rcases h v (by simp) with ⟨⟨a, ha⟩, -⟩ | ⟨e', he', hfirst⟩
      · rw [hv] at ha
        cases ha
      · rw [hv] at he'
        cases he'
        exact hfirst

/-- **The walk follows the positions.** The induction is on the levels that are left, which every
operation lowers by one. -/
theorem walk_spec (limit : ℤ) (k : ℕ) (v : Json.Value) : Follows limit k v := by
  induction hlevels : limit.toNat - k using Nat.strong_induction_on generalizing k v with
  | _ levels ih =>
    by_cases hroot : ∃ e, Defect limit ⟨k, v⟩ e
    · obtain ⟨e, he⟩ := hroot
      obtain ⟨below, hbelow⟩ := exists_positions_eq_cons k v
      exact .inr ⟨e, walk_of_defect he, [], _, below, hbelow, by simp [Flawless], he⟩
    have hself : Flawless limit [⟨k, v⟩] := fun p hp e he =>
      hroot ⟨e, List.mem_singleton.1 hp ▸ he⟩
    rcases isNumber_or_isOperation (not_exists.1 hroot) with
      ⟨x, hx⟩ | ⟨hdepth, members, op, w, ws, rfl, hobject⟩
    · rw [Follows, positions_of_isNumber hx]
      exact .inl ⟨⟨_, walk_of_isNumber hx⟩, hself⟩
    · have hbelow : limit.toNat - k = limit.toNat - (k + 1) + 1 := by omega
      have hitems :=
        @mapM_walk_spec limit (k + 1) (w :: ws) fun u _ => ih _ (by omega) (k + 1) u rfl
      rw [Follows, positions_of_isOperation hobject, hbelow, ← List.singleton_append]
      rcases hitems with ⟨⟨as, has⟩, hflawless⟩ | ⟨e, he, hfirst⟩
      · refine .inl ⟨?_, hself.append hflawless⟩
        cases hwalk : walk limit (limit.toNat - (k + 1) + 1) (.object members) with
        | ok a => exact ⟨a, rfl⟩
        | error e =>
          rw [walk_isOperation_eq_error_iff hobject, has] at hwalk
          cases hwalk
      · exact .inr ⟨e, (walk_isOperation_eq_error_iff hobject).2 he, hfirst.append_left hself⟩

/-! ## Wording -/

theorem ofKind_message {kind : Rejection.Kind} {t : Text} (h : t ≠ []) :
    (Rejection.ofKind kind t).message = t := by
  rw [Rejection.ofKind, List.isEmpty_eq_false_iff.2 h, if_neg Bool.false_ne_true]

/-- The message of a rejection tells the defect. -/
theorem message_rejection (e : ValidationError) : e.rejection.message = e.wording := by
  cases e with
  | notANodeOrNumber => rfl
  | unsupportedOperator op =>
    exact (ofKind_message (by rintro ⟨⟩)).trans (List.append_assoc _ _ _)
  | emptyArguments op => exact ofKind_message (by rintro ⟨⟩)
  | argumentsNotASequence op => exact ofKind_message (by rintro ⟨⟩)
  | depthLimitExceeded limit => exact ofKind_message (by rintro ⟨⟩)

/-- A value is rejected by the first defect in it. -/
theorem validate_eq_error_iff {limit : ℤ} {v : Json.Value} {e : ValidationError} :
    validate limit v = .error e ↔ FirstDefect limit (positions 0 v) e := by
  have hspec := walk_spec limit 0 v
  rw [Follows, Nat.sub_zero] at hspec
  rcases hspec with ⟨⟨a, ha⟩, hflawless⟩ | ⟨e', he', hfirst⟩
  · rw [validate, ha]
    exact iff_of_false (by rintro ⟨⟩) fun h => h.not_flawless hflawless
  · rw [validate, he', Except.error.injEq]
    exact ⟨fun h => h ▸ hfirst, fun h => hfirst.unique h⟩

/-- **The validator reports the first defect in pre-order.** A value is rejected if some position in
it is defective, and then by the defect of the first one, in the words for it. -/
theorem validate_firstDefect (limit : ℤ) (v : Json.Value) :
    ((∃ e, validate limit v = .error e) ↔ ∃ p ∈ positions 0 v, ∃ e, Defect limit p e) ∧
      ∀ e, (validate limit v = .error e ↔ FirstDefect limit (positions 0 v) e) ∧
        e.rejection.message = e.wording := by
  refine ⟨⟨?_, ?_⟩, fun e => ⟨validate_eq_error_iff, message_rejection e⟩⟩
  · rintro ⟨e, he⟩
    obtain ⟨before, p, after, heq, -, hp⟩ := validate_eq_error_iff.1 he
    exact ⟨p, by simp [heq], e, hp⟩
  · rintro ⟨p, hp, e, he⟩
    have hspec := walk_spec limit 0 v
    rw [Follows, Nat.sub_zero] at hspec
    rcases hspec with ⟨-, hflawless⟩ | ⟨e', he', -⟩
    · exact absurd he (hflawless p hp e)
    · exact ⟨e', he'⟩

end Expression

end Abacus
