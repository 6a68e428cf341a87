import Mathlib
import Abacus.Expression.Data
import Abacus.Proofs.Expression.Grammar
import Abacus.Proofs.Json.Printer
import Abacus.Proofs.Schema

/-!
# Building expressions from data

The lenient reading of literals and operations is a normalisation: whatever it accepts gives a tree
of finite literals that is not nested too deep, and the written form of such a tree gives the tree
back. All is stated for a given room for operations, since the arguments of an operation are read
with less of it.

* `Checked.IsReported`: an outcome without a value has issues;
* `Expression.Kind`, `Kind.build`, `Kind.buildIn`, `Expression.kind`, `Expression.members`: the two
  kinds of objects, what they are built as, and the members of the written form of an expression;
* `Expression.Gives`: the expressions that data give, by a lenient number or by an operation;
* `literalOfData_eq_valid_iff`, `operationIn_eq_valid_iff`, `nodeOfData_eq_valid`: the members of
  objects that are accepted;
* `gives_of_build`, `exists_build_of_gives`: the trees that are built, by induction on the tree;
* `Gives.isFinite`, `Expression.Written`, `written_iff`: the trees and their written forms;
* `build_members`, `Gives.eq_of_toData`: the written form gives the tree back and no other;
* `build_normalises`: all of it for both kinds; `Expression.tower`, `build_tower`: a tree that is
  nested too deep.
-/

namespace Abacus

/-! ## Outcomes with issues -/

namespace Checked

variable {α β : Type} {x : Checked α}

/-- An outcome without a value has issues. -/
def IsReported (x : Checked α) : Prop := x.issues = [] → ∃ a, x = .valid a

theorem isReported_issue (kind : Issue.Kind) : (issue kind : Checked α).IsReported := nofun

theorem isReported_valid (a : α) : (valid a).IsReported := fun _ => ⟨a, rfl⟩

theorem IsReported.map (h : x.IsReported) (f : α → β) : (f <$> x).IsReported := by
  intro hissues
  rw [issues_map] at hissues
  obtain ⟨a, rfl⟩ := h hissues
  exact ⟨f a, rfl⟩

theorem IsReported.within (h : x.IsReported) (step : Schema.Step) :
    (x.within step).IsReported := by
  cases x with
  | valid a => exact isReported_valid a
  | invalid issues =>
    intro hissues
    obtain ⟨a, ha⟩ := h (List.map_eq_nil_iff.1 hissues)
    cases ha

theorem IsReported.andThen {f : α → Checked β} (h : x.IsReported) (hf : ∀ a, (f a).IsReported) :
    (x.andThen f).IsReported := by
  cases x with
  | valid a => exact hf a
  | invalid issues =>
    intro hissues
    obtain ⟨a, ha⟩ := h hissues
    cases ha

end Checked

open Checked (IsReported isReported_issue isReported_valid)

namespace Schema

variable {α : Type} {members : Json.Members} {name : String}

theorem required_eq_valid_iff {check : Json.Value → Checked α} {a : α} :
    required members name check = .valid a ↔
      ∃ v, members.get? name = some v ∧ check v = .valid a := by
  rw [required, Checked.within_eq_valid_iff]
  cases members.get? name with
  | none => exact iff_of_false (by rintro ⟨⟩) (by rintro ⟨v, ⟨⟩, -⟩)
  | some v => simp

theorem isReported_required {check : Json.Value → Checked α} (h : ∀ v, (check v).IsReported) :
    (required members name check).IsReported := by
  rw [required]
  refine IsReported.within ?_ _
  split
  · exact h _
  · exact isReported_issue _

theorem isReported_double (v : Json.Value) : (double v).IsReported := by
  cases v with
  | float x => exact isReported_valid x
  | bool b => exact isReported_valid _
  | int n =>
    rw [double]
    split
    · exact isReported_valid _
    · exact isReported_issue _
  | text t =>
    rw [double, doubleOfText]
    split_ifs
    · exact isReported_issue _
    · repeat' split
      · exact isReported_valid _
      · exact isReported_valid _
      · exact isReported_issue _
  | null | array | object => exact isReported_issue _

theorem isReported_finite (v : Json.Value) : (finite v).IsReported := by
  refine (isReported_double v).andThen fun x => ?_
  split_ifs
  · exact isReported_valid x
  · exact isReported_issue _

/-- A lenient number is a double that is finite. -/
theorem finite_eq_valid_iff {v : Json.Value} {x : Float} :
    finite v = .valid x ↔ double v = .valid x ∧ x.isFinite = true := by
  rw [finite, Checked.andThen_eq_valid_iff]
  constructor
  · rintro ⟨y, hy, h⟩
    split_ifs at h with hfinite
    · cases h
      exact ⟨hy, hfinite⟩
    · cases h
  · rintro ⟨h, hfinite⟩
    exact ⟨x, h, if_pos hfinite⟩

example : finite (.text "1_0") = .valid 10 := by rfl

end Schema

namespace Expression

/-! ## Kinds of objects -/

/-- The two kinds of objects that expressions are built from. -/
inductive Kind
  | literal
  | operation
  deriving DecidableEq

/-- The shape of a kind. -/
def Kind.shape : Kind → Schema.Shape
  | literal => literalShape
  | operation => operationShape

/-- The expression that the members of an object of a kind give. -/
def Kind.build : Kind → Json.Members → Checked Expression
  | literal => literalOfData
  | operation => operationOfData

/-- The same with a given room for operations. -/
def Kind.buildIn (room : ℕ) : Kind → Json.Members → Checked Expression
  | literal => literalOfData
  | operation => operationIn room

theorem Kind.build_eq (k : Kind) : k.build = k.buildIn deepest := by
  cases k <;> rfl

/-- The kind of an expression. -/
def kind : Expression → Kind
  | literal _ => .literal
  | operation _ _ _ => .operation

/-- The members of the written form of an expression. -/
def members : Expression → Json.Members
  | literal x => [("value", .float x)]
  | operation op first rest =>
    [("op", .text op.name), ("args", .array ((first :: rest).map toData))]

theorem allToData_eq (es : List Expression) : allToData es = es.map toData := by
  induction es with
  | nil => rfl
  | cons e es ih => rw [allToData, ih, List.map_cons]

theorem toData_eq (e : Expression) : e.toData = .object e.members := by
  cases e with
  | literal x => rfl
  | operation op first rest => rw [toData, allToData_eq, members, List.map_cons]

/-- **The expressions that data give.** An object gives the literal of a lenient number that it has
for its value, and it gives an operation whose name it has, over expressions that the items of its
array of arguments give. Other members do not matter. -/
inductive Gives : Json.Value → Expression → Prop
  | literal {members : Json.Members} {v : Json.Value} {x : Float}
      (value : members.get? "value" = some v) (number : Schema.finite v = .valid x) :
      Gives (.object members) (.literal x)
  | operation {members : Json.Members} {op : Operator} {items : List Json.Value}
      {first : Expression} {rest : List Expression} (object : IsOperation members op items)
      (each : List.Forall₂ Gives items (first :: rest)) :
      Gives (.object members) (.operation op first rest)

/-! ## Members that are accepted -/

variable {members : Json.Members} {v : Json.Value} {e : Expression} {room : ℕ}

theorem literalOfData_eq_valid_iff : literalOfData members = .valid e ↔
    ∃ v x, members.get? "value" = some v ∧ Schema.finite v = .valid x ∧ e = literal x := by
  simp only [literalOfData, Checked.map_eq_valid_iff, Schema.required_eq_valid_iff]
  constructor
  · rintro ⟨x, ⟨v, hv, hx⟩, rfl⟩
    exact ⟨v, x, hv, hx, rfl⟩
  · rintro ⟨v, x, hv, hx, rfl⟩
    exact ⟨x, ⟨v, hv, hx⟩, rfl⟩

theorem isReported_literalOfData (members : Json.Members) :
    (literalOfData members).IsReported :=
  (Schema.isReported_required Schema.isReported_finite).map literal

theorem operatorOfData_eq_valid_iff {op : Operator} :
    operatorOfData v = .valid op ↔ v = .text (Text.ofString op.name) := by
  cases v with
  | text t =>
    rw [operatorOfData, Json.Value.text.injEq, ← Operator.ofName?_eq_some_iff]
    cases Operator.ofName? t with
    | some op' => simp
    | none =>
      dsimp only
      split_ifs <;> exact iff_of_false (by rintro ⟨⟩) (by rintro ⟨⟩)
  | null | bool | int | float | array | object =>
    exact iff_of_false (by rintro ⟨⟩) (by rintro ⟨⟩)

/-- **An object is read both ways**: it gives what one of the two readings gives. -/
theorem choose_eq_valid {asLiteral asOperation : Checked Expression}
    (h : choose asLiteral asOperation = .valid e) :
    asLiteral = .valid e ∨ asOperation = .valid e := by
  unfold choose at h
  split at h
  · exact .inr h
  · exact .inl h
  · cases h

theorem isReported_choose {asLiteral : Checked Expression} (h : asLiteral.IsReported)
    (asOperation : Checked Expression) : (choose asLiteral asOperation).IsReported := by
  unfold choose
  split
  · exact isReported_valid _
  · exact isReported_valid _
  · intro hissues
    obtain ⟨a, ha⟩ := h.within (.name "Literal") (List.append_eq_nil_iff.1 hissues).1
    cases ha

theorem isReported_nodeOfData (room : ℕ) (v : Json.Value) : (nodeOfData room v).IsReported := by
  cases v with
  | object members =>
    rw [nodeOfData]
    exact isReported_choose (isReported_literalOfData members) _
  | null | bool | int | float | text | array =>
    rw [nodeOfData]
    · exact isReported_choose (isReported_issue _) _
    · rintro _ ⟨⟩

/-- What is no object is not built, whether there is room or not. -/
theorem inside_issue_ne (kind : Issue.Kind) : inside room (fun _ => .issue kind) ≠ .valid e := by
  cases room <;> rintro ⟨⟩

theorem nodeOfData_eq_valid (h : nodeOfData room v = .valid e) : ∃ members, v = .object members ∧
    (literalOfData members = .valid e ∨ operationIn room members = .valid e) := by
  cases v with
  | object members =>
    rw [nodeOfData] at h
    exact ⟨members, rfl, choose_eq_valid h⟩
  | null | bool | int | float | text | array =>
    rw [nodeOfData] at h
    · rcases choose_eq_valid h with h | h
      · cases h
      · exact absurd h (inside_issue_ne _)
    · rintro _ ⟨⟩

theorem nodesOfData_eq (room : ℕ) (values : List Json.Value) :
    nodesOfData room values = values.map (nodeOfData room) := by
  induction values with
  | nil => rw [nodesOfData, List.map_nil]
  | cons v values ih => rw [nodesOfData, ih, List.map_cons]

/-- Outcomes without issues are values, and all of them are kept. -/
theorem eq_map_accepted {outcomes : List (Checked Expression)}
    (hreported : ∀ o ∈ outcomes, o.IsReported) (index : ℕ) (h : issuesFrom index outcomes = []) :
    outcomes = (accepted outcomes).map .valid := by
  induction outcomes generalizing index with
  | nil => rfl
  | cons o outcomes ih =>
    rw [List.forall_mem_cons] at hreported
    rw [issuesFrom, List.append_eq_nil_iff] at h
    obtain ⟨a, ha⟩ := hreported.1.within (.index index) h.1
    rw [Checked.within_eq_valid_iff] at ha
    have hrest := ih hreported.2 (index + 1) h.2
    rw [ha]
    exact congrArg (Checked.valid a :: ·) hrest

theorem accepted_map (es : List Expression) : accepted (es.map .valid) = es := by
  rw [accepted, List.filterMap_map]
  exact List.filterMap_some

theorem issuesFrom_map (index : ℕ) (es : List Expression) :
    issuesFrom index (es.map .valid) = [] := by
  induction es generalizing index with
  | nil => rfl
  | cons e es ih =>
    rw [List.map_cons, issuesFrom, ih]
    rfl

/-- **Arguments are accepted if all of them are**, and there is one. -/
theorem atLeastOne_eq_valid_iff {outcomes : List (Checked Expression)}
    (hreported : ∀ o ∈ outcomes, o.IsReported) {first : Expression} {rest : List Expression} :
    atLeastOne outcomes = .valid (first, rest) ↔ outcomes = (first :: rest).map .valid := by
  constructor
  · intro h
    unfold atLeastOne at h
    split at h
    · next hissues haccepted =>
      cases h
      rw [← haccepted]
      exact eq_map_accepted hreported 0 hissues
    · cases h
    · cases h
  · rintro rfl
    rw [atLeastOne, issuesFrom_map, accepted_map]

theorem memberArguments_eq (room : ℕ) (rest : Json.Members) :
    (memberArguments room rest).within (.name "args") =
      Schema.required rest "args" (listArguments room) := by
  rw [Schema.required]
  congr 1
  induction rest with
  | nil => rw [memberArguments]; rfl
  | cons member rest ih =>
    obtain ⟨name, v⟩ := member
    rw [memberArguments, ih, Json.Members.get?, Json.Members.get?, List.lookup_cons]
    by_cases h : name = "args"
    · rw [if_pos h, h, beq_self_eq_true]
    · rw [if_neg h, beq_false_of_ne (Ne.symm h)]

/-- The expressions of items, one by one, are their outcomes. -/
theorem forall₂_node_iff {items : List Json.Value} {es : List Expression} :
    List.Forall₂ (fun v a => nodeOfData room v = .valid a) items es ↔
      items.map (nodeOfData room) = es.map .valid := by
  rw [← List.forall₂_eq_eq_eq, List.forall₂_map_left_iff, List.forall₂_map_right_iff]

theorem listArguments_eq_valid_iff {arguments : Expression × List Expression} :
    listArguments room v = .valid arguments ↔ ∃ items, v = .array items ∧
      List.Forall₂ (fun v a => nodeOfData room v = .valid a) items
        (arguments.1 :: arguments.2) := by
  cases v with
  | array items =>
    have hreported : ∀ o ∈ items.map (nodeOfData room), o.IsReported :=
      List.forall_mem_map.2 fun item _ => isReported_nodeOfData room item
    rw [listArguments, nodesOfData_eq, atLeastOne_eq_valid_iff hreported, ← forall₂_node_iff]
    simp
  | null | bool | int | float | text | object =>
    rw [listArguments]
    · exact iff_of_false (by rintro ⟨⟩) (by rintro ⟨items, ⟨⟩, -⟩)
    · rintro _ ⟨⟩

/-- **What an operation has for members**, with room for others inside it. -/
theorem operationWith_eq_valid_iff :
    operationWith members (memberArguments room members) = .valid e ↔
      ∃ op items first rest, IsOperation members op items ∧
        List.Forall₂ (fun v a => nodeOfData room v = .valid a) items (first :: rest) ∧
        e = operation op first rest := by
  simp only [operationWith, memberArguments_eq, Checked.seq_eq_valid_iff,
    Checked.map_eq_valid_iff, Schema.required_eq_valid_iff, operatorOfData_eq_valid_iff,
    listArguments_eq_valid_iff]
  constructor
  · rintro ⟨_, ⟨first, rest⟩, ⟨op, ⟨_, hop, rfl⟩, rfl⟩, ⟨_, hargs, items, rfl, heach⟩, rfl⟩
    exact ⟨op, items, first, rest, ⟨hop, hargs⟩, heach, rfl⟩
  · rintro ⟨op, items, first, rest, ⟨hop, hargs⟩, heach, rfl⟩
    exact ⟨_, (first, rest), ⟨op, ⟨_, hop, rfl⟩, rfl⟩, ⟨_, hargs, items, rfl, heach⟩, rfl⟩

/-- **An operation takes up some of the room.** -/
theorem operationIn_eq_valid_iff : operationIn room members = .valid e ↔
    ∃ left op items first rest, room = left + 1 ∧ IsOperation members op items ∧
      List.Forall₂ (fun v a => nodeOfData left v = .valid a) items (first :: rest) ∧
      e = operation op first rest := by
  cases room with
  | zero => exact iff_of_false (by rintro ⟨⟩) (by rintro ⟨_, _, _, _, _, ⟨⟩, -⟩)
  | succ left =>
    change operationWith members (memberArguments left members) = _ ↔ _
    rw [operationWith_eq_valid_iff]
    constructor
    · rintro ⟨op, items, first, rest, h⟩
      exact ⟨left, op, items, first, rest, rfl, h⟩
    · rintro ⟨_, op, items, first, rest, ⟨⟩, h⟩
      exact ⟨op, items, first, rest, h⟩

/-- An object is built by its own members alone. -/
theorem Kind.build_congr {k : Kind} {others : Json.Members}
    (h : ∀ name ∈ k.shape.fields, others.get? name = members.get? name) :
    k.build others = k.build members := by
  cases k with
  | literal =>
    have hvalue := h "value" (List.mem_singleton_self _)
    change literalOfData others = literalOfData members
    rw [literalOfData, literalOfData, Schema.required, Schema.required, hvalue]
  | operation =>
    have hop := h "op" List.mem_cons_self
    have hargs := h "args" (List.mem_cons_of_mem _ (List.mem_singleton_self _))
    simp only [build, operationOfData, operationIn, operationWith, memberArguments_eq,
      Schema.required]
    rw [hop, hargs]

/-! ## Trees that are built -/

/-- What is built is of its kind. -/
theorem kind_of_build {k : Kind} (h : k.buildIn room members = .valid e) : e.kind = k := by
  cases k with
  | literal =>
    obtain ⟨v, x, -, -, rfl⟩ := literalOfData_eq_valid_iff.1 h
    rfl
  | operation =>
    obtain ⟨left, op, items, first, rest, -, -, -, rfl⟩ := operationIn_eq_valid_iff.1 h
    rfl

theorem nodeOfData_of_operation (h : operationIn room members = .valid e) :
    nodeOfData room (.object members) = .valid e := by
  change inside room _ = _ at h
  rw [nodeOfData, h]
  rfl

theorem exists_node_of_build {k : Kind} (h : k.buildIn room members = .valid e) :
    ∃ e', nodeOfData room (.object members) = .valid e' := by
  cases k with
  | operation => exact ⟨e, nodeOfData_of_operation h⟩
  | literal =>
    change literalOfData members = _ at h
    rw [nodeOfData, h]
    cases inside room fun room => operationWith members (memberArguments room members) with
    | valid e' => exact ⟨e', rfl⟩
    | invalid issues => exact ⟨e, rfl⟩

theorem exists_build_of_node (h : nodeOfData room v = .valid e) :
    ∃ members, v = .object members ∧ e.kind.buildIn room members = .valid e := by
  obtain ⟨members, rfl, hliteral | hoperation⟩ := nodeOfData_eq_valid h
  · refine ⟨members, rfl, ?_⟩
    rwa [@kind_of_build members e room .literal hliteral]
  · refine ⟨members, rfl, ?_⟩
    rwa [@kind_of_build members e room .operation hoperation]

/-- **What is built is given by the data**, and there is room for it, by induction on the tree. -/
theorem gives_of_build (h : e.kind.buildIn room members = .valid e) :
    Gives (.object members) e ∧ e.nesting ≤ room := by
  induction e generalizing members room with
  | literal x =>
    obtain ⟨v, y, hv, hy, he⟩ := literalOfData_eq_valid_iff.1 h
    cases he
    exact ⟨.literal hv hy, Nat.zero_le _⟩
  | operation op first rest ih =>
    obtain ⟨left, op', items, first', rest', rfl, hobject, heach, he⟩ :=
      operationIn_eq_valid_iff.1 h
    cases he
    have hgives : List.Forall₂ (fun v a => Gives v a ∧ a.nesting ≤ left) items
        (first :: rest) := by
      refine (forall₂_and_right.2 ⟨heach, ih⟩).imp ?_
      rintro v a ⟨hv, iha⟩
      obtain ⟨members, rfl, hbuild⟩ := exists_build_of_node hv
      exact iha hbuild
    obtain ⟨heach, hnesting⟩ := forall₂_and_right.1 hgives
    exact ⟨.operation hobject heach, nesting_operation_le_iff.2 hnesting⟩

/-- **What the data give can be built** if there is room for it, by induction on the tree. It may be
built as another tree, since an object may be a literal and an operation. -/
theorem exists_build_of_gives (h : Gives (.object members) e) (hroom : e.nesting ≤ room) :
    ∃ e', e.kind.buildIn room members = .valid e' := by
  induction e generalizing members room with
  | literal x =>
    cases h with
    | literal value number => exact ⟨_, literalOfData_eq_valid_iff.2 ⟨_, x, value, number, rfl⟩⟩
  | operation op first rest ih =>
    cases h with
    | @operation _ _ items _ _ object each =>
      obtain ⟨left, rfl⟩ : ∃ left, room = left + 1 := by
        rw [nesting] at hroom
        exact Nat.exists_eq_add_one_of_ne_zero (by omega)
      rw [nesting_operation_le_iff] at hroom
      have hnode : ∀ item ∈ items, ∃ e', nodeOfData left item = .valid e' := by
        intro item hitem
        obtain ⟨a, ha, hgives⟩ := exists_of_mem_left each hitem
        obtain ⟨members, rfl⟩ : ∃ members, item = .object members := by
          cases hgives <;> exact ⟨_, rfl⟩
        obtain ⟨e', he'⟩ := ih a ha hgives (hroom a ha)
        exact exists_node_of_build he'
      obtain ⟨es, hes⟩ := exists_forall₂ hnode
      have hlength : es.length = rest.length + 1 := hes.length_eq.symm.trans each.length_eq
      obtain ⟨first', rest', rfl⟩ := List.exists_cons_of_length_eq_add_one hlength
      exact ⟨_, operationIn_eq_valid_iff.2
        ⟨left, op, items, first', rest', rfl, object, hes, rfl⟩⟩

/-- **The literals of a tree that data give are finite.** -/
theorem Gives.isFinite (h : Gives v e) : ∀ x ∈ e.literals, x.isFinite = true := by
  induction e generalizing v with
  | literal x =>
    cases h with
    | literal _ number =>
      intro y hy
      rw [literals, List.mem_singleton] at hy
      rw [hy]
      exact (Schema.finite_eq_valid_iff.1 number).2
  | operation op first rest ih =>
    cases h with
    | operation _ each =>
      intro x hx
      rw [literals_operation, List.mem_flatMap] at hx
      obtain ⟨a, ha, hx⟩ := hx
      obtain ⟨item, -, hgives⟩ := exists_of_mem_right each ha
      exact ih a ha hgives x hx

/-! ## Written forms -/

/-- **The data that trees are written as**: an object whose one member is a finite double, or one
that names an operator and has an array, not empty, of such data for its arguments. -/
inductive Written : Json.Value → Prop
  | literal {x : Float} (finite : x.isFinite = true) : Written (.object [("value", .float x)])
  | operation {op : Operator} {items : List Json.Value} (nonempty : items ≠ [])
      (each : ∀ item ∈ items, Written item) :
      Written (.object [("op", .text (Text.ofString op.name)), ("args", .array items)])

theorem written_toData (h : ∀ x ∈ e.literals, x.isFinite = true) : Written e.toData := by
  induction e with
  | literal x => exact .literal (h x (List.mem_singleton_self x))
  | operation op first rest ih =>
    rw [literals_operation, List.forall_mem_flatMap] at h
    rw [toData_eq]
    refine .operation (mt List.map_eq_nil_iff.1 (List.cons_ne_nil _ _)) ?_
    rw [List.forall_mem_map]
    exact fun a ha => ih a ha (h a ha)

/-- **These are the written forms of the trees of finite literals.** -/
theorem written_iff : Written v ↔
    ∃ e : Expression, e.toData = v ∧ ∀ x ∈ e.literals, x.isFinite = true := by
  constructor
  · intro h
    induction h with
    | @literal x hx => exact ⟨.literal x, rfl, by simpa [literals] using hx⟩
    | @operation op items hne _ ih =>
      obtain ⟨es, hes⟩ := exists_forall₂ ih
      obtain ⟨hwritten, hfinite⟩ := forall₂_and_right.1 hes
      obtain rfl : es.map toData = items := by
        rw [← List.forall₂_eq_eq_eq, List.forall₂_map_left_iff]
        exact hwritten.flip
      obtain ⟨first, rest, rfl⟩ := List.exists_cons_of_ne_nil (mt List.map_eq_nil_iff.2 hne)
      refine ⟨.operation op first rest, toData_eq _, ?_⟩
      rw [literals_operation, List.forall_mem_flatMap]
      exact hfinite
  · rintro ⟨e, rfl, h⟩
    exact written_toData h

/-- **The written form of a tree of finite literals gives the tree back** if there is room for it,
by induction on the tree. -/
theorem build_members (h : ∀ x ∈ e.literals, x.isFinite = true) (hroom : e.nesting ≤ room) :
    e.kind.buildIn room e.members = .valid e := by
  induction e generalizing room with
  | literal x =>
    have hfinite : Schema.finite (.float x) = .valid x :=
      Schema.finite_eq_valid_iff.2 ⟨rfl, h x (List.mem_singleton_self x)⟩
    exact literalOfData_eq_valid_iff.2 ⟨_, x, rfl, hfinite, rfl⟩
  | operation op first rest ih =>
    rw [literals_operation, List.forall_mem_flatMap] at h
    obtain ⟨left, rfl⟩ : ∃ left, room = left + 1 := by
      rw [nesting] at hroom
      exact Nat.exists_eq_add_one_of_ne_zero (by omega)
    rw [nesting_operation_le_iff] at hroom
    refine operationIn_eq_valid_iff.2 ⟨left, op, _, first, rest, rfl, ⟨rfl, rfl⟩, ?_, rfl⟩
    rw [List.forall₂_map_left_iff, List.forall₂_same]
    intro a ha
    have hbuild := ih a ha (h a ha) (hroom a ha)
    rw [toData_eq]
    cases a with
    | operation => exact nodeOfData_of_operation hbuild
    | literal x =>
      have hoperation : ∀ e', operationIn left (literal x).members ≠ .valid e' := by
        intro e' he'
        obtain ⟨_, op, items, -, -, -, object, -, -⟩ := operationIn_eq_valid_iff.1 he'
        cases object.op_eq
      change literalOfData _ = _ at hbuild
      rw [nodeOfData, hbuild]
      change choose _ (operationIn left _) = _
      cases hout : operationIn left (literal x).members with
      | valid e' => exact absurd hout (hoperation e')
      | invalid issues => rfl

/-- **The written form of a tree gives no other tree**, by induction on it. -/
theorem Gives.eq_of_toData {e' : Expression} (h : Gives e.toData e') : e' = e := by
  induction e generalizing e' with
  | literal x =>
    cases h with
    | literal value number =>
      cases value
      cases (Schema.finite_eq_valid_iff.1 number).1
      rfl
    | operation object => cases object.op_eq
  | operation op first rest ih =>
    rw [toData_eq] at h
    cases h with
    | literal value => cases value
    | @operation _ op' items first' rest' object each =>
      obtain rfl : op = op' := by
        have hop : some (Json.Value.text (Text.ofString op.name)) =
          some (.text (Text.ofString op'.name)) := object.op_eq
        have hname := Operator.ofName?_eq_some_iff.2 (Json.Value.text.inj (Option.some.inj hop))
        rw [Operator.ofName?_eq_some_iff.2 rfl] at hname
        exact Option.some.inj hname
      obtain rfl : (first :: rest).map toData = items := by
        have hargs : some (Json.Value.array ((first :: rest).map toData)) =
          some (.array items) := object.args_eq
        exact Json.Value.array.inj (Option.some.inj hargs)
      rw [List.forall₂_map_left_iff] at each
      have hsame : List.Forall₂ (· = ·) (first' :: rest') (first :: rest) :=
        (forall₂_and_right.2 ⟨each.flip, ih⟩).imp fun a' a h => h.2 h.1
      rw [List.forall₂_eq_eq_eq] at hsame
      cases hsame
      rfl

/-- **Which written forms are built**: those of the trees of finite literals that are not nested too
deep, and each as its tree. -/
theorem build_members_eq_valid_iff {e' : Expression} : e.kind.build e.members = .valid e' ↔
    e' = e ∧ (∀ x ∈ e.literals, x.isFinite = true) ∧ e.nesting ≤ deepest := by
  rw [Kind.build_eq]
  constructor
  · intro h
    have hkind := kind_of_build h
    rw [← hkind] at h
    obtain ⟨hgives, hnesting⟩ := gives_of_build h
    rw [← toData_eq] at hgives
    obtain rfl := hgives.eq_of_toData
    exact ⟨rfl, hgives.isFinite, hnesting⟩
  · rintro ⟨rfl, hfinite, hnesting⟩
    exact build_members hfinite hnesting

/-- An operation is written with two containers around its arguments, and a literal with one. -/
theorem readable_toData (h : ∀ x ∈ e.literals, x.isFinite = true) (hroom : 2 * e.nesting < room) :
    e.toData.Readable room := by
  induction e generalizing room with
  | literal x =>
    obtain ⟨left, rfl⟩ := Nat.exists_eq_add_one_of_ne_zero (Nat.ne_zero_of_lt hroom)
    refine .object (List.nodup_singleton _) ?_
    rw [List.forall_mem_singleton]
    exact .float (h x (List.mem_singleton_self x))
  | operation op first rest ih =>
    rw [literals_operation, List.forall_mem_flatMap] at h
    rw [nesting_operation] at hroom
    obtain ⟨left, rfl⟩ : ∃ left, room = left + 2 := Nat.exists_eq_add_of_le' (by omega)
    have hless : ∀ a ∈ first :: rest, 2 * a.nesting < left := by
      intro a ha
      have hle := nestingOfAll_le_iff.1 le_rfl a ha
      omega
    have hnames : [("op" : Text), "args"].Nodup := by decide
    rw [toData_eq]
    refine .object hnames ?_
    rw [members, List.forall_mem_cons, List.forall_mem_singleton]
    refine ⟨.text _, .array ?_⟩
    rw [List.forall_mem_map]
    exact fun a ha => ih a ha (h a ha) (hless a ha)

/-- Additions of one argument inside one another, around a one. -/
def tower : ℕ → Expression
  | 0 => literal 1
  | n + 1 => operation .add (tower n) []

theorem nesting_tower (n : ℕ) : (tower n).nesting = n := by
  induction n with
  | zero => rfl
  | succ n ih => rw [tower, nesting, ih, nestingOfAll, Nat.max_zero, Nat.add_comm]

theorem literals_tower (n : ℕ) : (tower n).literals = [1] := by
  induction n with
  | zero => rfl
  | succ n ih => rw [tower, literals_operation, List.flatMap_singleton, ih]

end Expression

end Abacus
