import Mathlib
import Abacus.Expression.Validation
import Abacus.Proofs.Expression.Tree
import Abacus.Proofs.Number.Bits
import Abacus.Proofs.Outcome

/-!
# The grammar of expressions

Which JSON values are expressions, and the expression that each of them is, without reference to a
walk or a limit:

* `IsNumber v x`: the value `v` is a number and `x` the finite double it converts to;
* `Shape k v`: the value `v` belongs to the grammar with operations nested `k` deep;
* `Mirrors v e`: the expression `e` mirrors the value `v` at every position.

`walk_eq_ok_iff` is the step from the walk to the mirror image, by induction on the levels that are
left; `shape_iff` ties the grammar to it. `validate_grammar` puts the two together.
-/

namespace Abacus

/-- A name in the table of operators is that of its operator. -/
theorem Operator.ofName?_eq_some_iff {t : Text} {op : Operator} :
    ofName? t = some op ↔ t = Text.ofString op.name := by
  constructor
  · intro h
    have := List.find?_some h
    simpa [eq_comm] using this
  · rintro rfl
    cases op <;> decide

namespace Expression

/-- A JSON number, an integer or a floating-point one, whose conversion to a double is finite. -/
inductive IsNumber : Json.Value → Float → Prop
  | int {n : Int} {x : Float} (converts : Number.ofInt? n = some x) : IsNumber (.int n) x
  | float {x : Float} (finite : x.isFinite = true) : IsNumber (.float x) x

/-- The member `op` of an object names an operator and its member `args` is an array; whatever else
the object holds does not matter. -/
structure IsOperation (members : Json.Members) (op : Operator) (items : List Json.Value) :
    Prop where
  op_eq : members.get? "op" = some (.text (Text.ofString op.name))
  args_eq : members.get? "args" = some (.array items)

/-- **The grammar**: a number, or an object that is an operation over an array, not empty, of
members of the grammar. The operations of the object are nested one deeper than those in the
deepest of its arguments. -/
inductive Shape : Nat → Json.Value → Prop
  | number {v : Json.Value} {x : Float} (number : IsNumber v x) : Shape 0 v
  | operation {members : Json.Members} {op : Operator} {items : List Json.Value}
      {depths : List Nat} {k : Nat} (object : IsOperation members op items)
      (each : List.Forall₂ Shape depths items) (deepest : depths.max? = some k) :
      Shape (1 + k) (.object members)

/-- **The mirror image of a value**: a number is the literal of its double, an operation has as many
arguments as its array, in the same order, each the mirror image of its item. -/
inductive Mirrors : Json.Value → Expression → Prop
  | literal {v : Json.Value} {x : Float} (number : IsNumber v x) : Mirrors v (.literal x)
  | operation {members : Json.Members} {op : Operator} {items : List Json.Value}
      {first : Expression} {rest : List Expression} (object : IsOperation members op items)
      (each : List.Forall₂ Mirrors items (first :: rest)) :
      Mirrors (.object members) (.operation op first rest)

/-! ## Numbers and objects as the walk sees them -/

theorem isNumber_iff {v : Json.Value} {x : Float} : IsNumber v x ↔ v.finite? = some x := by
  constructor
  · rintro (h | h)
    · exact h
    · simp [Json.Value.finite?, h]
  · intro h
    cases v with
    | int n => exact .int h
    | float y =>
      rw [Json.Value.finite?] at h
      split_ifs at h with hy
      cases h
      exact .float hy
    | null | bool | text | array | object => cases h

theorem IsNumber.isFinite {v : Json.Value} {x : Float} (h : IsNumber v x) :
    x.isFinite = true := by
  cases h with
  | int h => exact Number.isFinite_of_ofInt? h
  | float h => exact h

theorem operatorOf_eq_ok_iff {v : Json.Value} {op : Operator} :
    operatorOf v = .ok op ↔ v = .text (Text.ofString op.name) := by
  cases v with
  | text t =>
    rw [operatorOf, Json.Value.text.injEq, ← Operator.ofName?_eq_some_iff]
    rcases Operator.ofName? t with _ | op' <;> simp
  | null | bool | int | float | array | object => simp [operatorOf]

theorem argumentsOf_eq_ok_iff {op : Operator} {v : Option Json.Value} {first : Json.Value}
    {rest : List Json.Value} :
    argumentsOf op v = .ok (first, rest) ↔ v = some (.array (first :: rest)) := by
  rcases v with _ | v
  · simp [argumentsOf]
  · cases v with
    | array items => rcases items with _ | ⟨a, as⟩ <;> simp [argumentsOf]
    | null | bool | int | float | text | object => simp [argumentsOf]

theorem IsOperation.has {members : Json.Members} {op : Operator} {items : List Json.Value}
    (h : IsOperation members op items) : Json.Members.has members "op" = true := by
  rw [Json.Members.has, h.op_eq]
  rfl

/-! ## The walk against the mirror image -/

theorem walk_of_isNumber {limit : Int} {levels : Nat} {v : Json.Value} {x : Float}
    (h : IsNumber v x) : walk limit levels v = .ok (.literal x) := by
  unfold walk
  simp only [isNumber_iff.1 h]

/-- What the walk does at an object, level by level: an object that is an operation needs one level
for itself, and its items are walked with the levels below. -/
theorem walk_object_eq_ok_iff {limit : Int} {levels : Nat} {members : Json.Members}
    {e : Expression} :
    walk limit levels (.object members) = .ok e ↔
      ∃ below op items first rest, levels = below + 1 ∧ IsOperation members op items ∧
        List.Forall₂ (fun v a => walk limit below v = .ok a) items (first :: rest) ∧
          e = .operation op first rest := by
  conv_lhs => unfold walk
  simp only [Json.Value.finite?]
  constructor
  · intro h
    split_ifs at h with hhas
    rcases levels with _ | below
    · cases h
    · simp only [bind_eq_ok_iff, operatorOf_eq_ok_iff] at h
      obtain ⟨op, hop, ⟨v, vs⟩, hargs, first, hfirst, rest, hrest, h⟩ := h
      cases h
      have hop' : members.get? "op" = some (.text (Text.ofString op.name)) := by
        rcases hget : members.get? "op" with _ | w <;> rw [hget] at hop <;> cases hop
        rfl
      exact ⟨below, op, v :: vs, first, rest, rfl, ⟨hop', argumentsOf_eq_ok_iff.1 hargs⟩,
        .cons hfirst (mapM_eq_ok_iff.1 hrest), rfl⟩
  · rintro ⟨below, op, items, first, rest, rfl, hobject, heach, rfl⟩
    obtain ⟨v, vs, hfirst, hrest, rfl⟩ := List.forall₂_cons_right_iff.1 heach
    rw [hobject.has, Bool.true_or, hobject.op_eq, hobject.args_eq]
    simp only [Bool.not_true, Bool.false_eq_true, if_false, bind_eq_ok_iff]
    exact ⟨op, operatorOf_eq_ok_iff.2 rfl, (v, vs), argumentsOf_eq_ok_iff.2 rfl, first, hfirst,
      rest, mapM_eq_ok_iff.2 hrest, rfl⟩

/-- Nothing but a number and an object passes the walk. -/
theorem isNumber_or_object_of_walk {limit : Int} {levels : Nat} {v : Json.Value} {e : Expression}
    (h : walk limit levels v = .ok e) :
    (∃ x, IsNumber v x ∧ e = .literal x) ∨ ∃ members, v = .object members := by
  unfold walk at h
  simp only at h
  rcases hx : v.finite? with _ | x <;> simp only [hx] at h
  · cases v with
    | object members => exact Or.inr ⟨members, rfl⟩
    | null | bool | int | float | text | array => cases h
  · cases h
    exact Or.inl ⟨x, isNumber_iff.2 hx, rfl⟩

/-- **The walk succeeds on the mirror images that fit into the levels.** The induction is on the
levels, which every operation lowers by one. -/
theorem walk_eq_ok_iff {limit : Int} {levels : Nat} {v : Json.Value} {e : Expression} :
    walk limit levels v = .ok e ↔ Mirrors v e ∧ e.nesting ≤ levels := by
  induction levels using Nat.strong_induction_on generalizing v e with
  | _ levels ih =>
    -- Items are walked with fewer levels, where the statement is known.
    have hitems : ∀ below, levels = below + 1 → ∀ (items : List Json.Value) as,
        List.Forall₂ (fun v a => walk limit below v = .ok a) items as ↔
          List.Forall₂ Mirrors items as ∧ ∀ a ∈ as, a.nesting ≤ below := by
      intro below hbelow items as
      rw [← forall₂_and_right]
      exact ⟨fun h => h.imp fun _ _ ha => (ih below (by omega)).1 ha,
        fun h => h.imp fun _ _ ha => (ih below (by omega)).2 ha⟩
    constructor
    · intro h
      rcases isNumber_or_object_of_walk h with ⟨x, hx, rfl⟩ | ⟨members, rfl⟩
      · exact ⟨.literal hx, by simp [nesting]⟩
      · obtain ⟨below, op, items, first, rest, hbelow, hobject, heach, rfl⟩ :=
          walk_object_eq_ok_iff.1 h
        rw [hitems below hbelow] at heach
        exact ⟨.operation hobject heach.1, hbelow ▸ nesting_operation_le_iff.2 heach.2⟩
    · rintro ⟨hmirrors, hnesting⟩
      cases hmirrors with
      | literal hx => exact walk_of_isNumber hx
      | @operation members op items first rest hobject heach =>
        obtain ⟨below, rfl⟩ : ∃ below, levels = below + 1 :=
          Nat.exists_eq_succ_of_ne_zero (by rw [nesting_operation] at hnesting; omega)
        exact walk_object_eq_ok_iff.2 ⟨below, op, items, first, rest, rfl, hobject,
          (hitems below rfl items _).2 ⟨heach, nesting_operation_le_iff.1 hnesting⟩, rfl⟩

/-! ## The grammar against the mirror image -/

/-- Items that each have a mirror image of a given nesting have them as a list. -/
theorem exists_forall₂_mirrors {depths : List Nat} {items : List Json.Value}
    (h : List.Forall₂ (fun k v => ∃ e, Mirrors v e ∧ e.nesting = k) depths items) :
    ∃ es, List.Forall₂ Mirrors items es ∧ es.map nesting = depths := by
  induction h with
  | nil => exact ⟨[], .nil, rfl⟩
  | cons he _ ih =>
    obtain ⟨e, he, rfl⟩ := he
    obtain ⟨es, hes, rfl⟩ := ih
    exact ⟨e :: es, .cons he hes, rfl⟩

/-- **A value belongs to the grammar when it has a mirror image of that nesting.** The induction is
on the nesting, which is less for the items of an operation. -/
theorem shape_iff {k : Nat} {v : Json.Value} : Shape k v ↔ ∃ e, Mirrors v e ∧ e.nesting = k := by
  induction k using Nat.strong_induction_on generalizing v with
  | _ k ih =>
    constructor
    · intro h
      cases h with
      | number hx => exact ⟨_, .literal hx, by simp [nesting]⟩
      | @operation members op items depths k hobject heach hdeepest =>
        have hle := (List.max?_eq_some_iff.1 hdeepest).2
        have hmirrors := (List.forall₂_and_left depths items).2 ⟨hle, heach⟩
        obtain ⟨es, hes, rfl⟩ := exists_forall₂_mirrors
          (hmirrors.imp fun j v hj => (ih j (by omega)).1 hj.2)
        rw [max?_map_nesting_eq_some_iff] at hdeepest
        obtain ⟨hne, rfl⟩ := hdeepest
        rcases es with _ | ⟨first, rest⟩
        · exact absurd rfl hne
        · exact ⟨_, .operation hobject hes, nesting_operation op first rest⟩
    · rintro ⟨e, he, rfl⟩
      cases he with
      | literal hx => simpa [nesting] using Shape.number hx
      | @operation members op items first rest hobject heach =>
        rw [nesting_operation] at ih ⊢
        have hle : ∀ a ∈ first :: rest, a.nesting ≤ nestingOfAll (first :: rest) :=
          nestingOfAll_le_iff.1 le_rfl
        have hshapes : List.Forall₂ (fun v a => Shape a.nesting v) items (first :: rest) :=
          (forall₂_and_right.2 ⟨heach, hle⟩).imp fun v a ha =>
            (ih a.nesting (by omega)).2 ⟨a, ha.1, rfl⟩
        exact .operation hobject (List.forall₂_map_left_iff.2 hshapes.flip)
          (max?_map_nesting_eq_some_iff.2 ⟨by simp, rfl⟩)

theorem Mirrors.isFinite {v : Json.Value} {e : Expression} (h : Mirrors v e) :
    ∀ x ∈ e.literals, x.isFinite = true := by
  induction e generalizing v with
  | literal x =>
    cases h with
    | literal hx => simpa [literals] using hx.isFinite
  | operation op first rest ih =>
    cases h with
    | operation _ heach =>
      intro x hx
      rw [literals_operation, List.mem_flatMap] at hx
      obtain ⟨a, ha, hx⟩ := hx
      obtain ⟨w, -, hw⟩ := exists_of_mem_right heach ha
      exact ih a ha hw x hx

/-- **The validator accepts exactly its grammar and builds the mirror image.** A value passes with a
limit when it belongs to the grammar with operations nested at most that deep. The expression that
it then is mirrors the value, so that all its literals are finite, every operation in it has
arguments, and its operations are nested within the limit. -/
theorem validate_grammar (limit : Int) (v : Json.Value) :
    ((∃ e, validate limit v = .ok e) ↔ ∃ k ≤ limit.toNat, Shape k v) ∧
      ∀ e, validate limit v = .ok e →
        Mirrors v e ∧ (∀ x ∈ e.literals, x.isFinite = true) ∧
          (∀ n ∈ e.postOrder, n.arguments ≠ []) ∧ e.nesting ≤ limit.toNat := by
  refine ⟨⟨?_, ?_⟩, fun e he => ?_⟩
  · rintro ⟨e, he⟩
    obtain ⟨hmirrors, hnesting⟩ := walk_eq_ok_iff.1 he
    exact ⟨e.nesting, hnesting, shape_iff.2 ⟨e, hmirrors, rfl⟩⟩
  · rintro ⟨k, hk, hshape⟩
    obtain ⟨e, hmirrors, rfl⟩ := shape_iff.1 hshape
    exact ⟨e, walk_eq_ok_iff.2 ⟨hmirrors, hk⟩⟩
  · obtain ⟨hmirrors, hnesting⟩ := walk_eq_ok_iff.1 he
    exact ⟨hmirrors, hmirrors.isFinite, fun n => arguments_ne_nil_of_mem_postOrder, hnesting⟩

end Expression

end Abacus
