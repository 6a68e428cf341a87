import Mathlib
import Abacus.Proofs.Json.Printer
import Abacus.Proofs.Rejection

/-!
# JSON texts that can be written

A string stands in a JSON text as it is, but for its escapes. So the text of a value can be written
as UTF-8 when no string in the value has a surrogate.

* `Value.Writable`: the values of which no string and no name has a surrogate;
* `Value.writable_write`: their texts can be written, by induction on the value;
* `Value.floatsFinite_of_readable`: a value that is read back holds no infinity and no NaN.
-/

namespace Abacus.Json

open Text (writable_nil writable_ofString)

/-- No string and no name in a value has a surrogate. -/
inductive Value.Writable : Value → Prop
  | null : Writable .null
  | bool (b : Bool) : Writable (.bool b)
  | int (n : ℤ) : Writable (.int n)
  | float (x : Float) : Writable (.float x)
  | text {t : Text} (h : t.Writable) : Writable (.text t)
  | array {items : List Value} (h : ∀ v ∈ items, Writable v) : Writable (.array items)
  | object {members : Members} (names : ∀ m ∈ members, m.1.Writable)
      (h : ∀ m ∈ members, Writable m.2) : Writable (.object members)

/-- The quoted form of a text that can be written can be written. -/
theorem writable_quote {t : Text} (ht : t.Writable) : (compact.quote t).Writable := by
  have hmark := Text.isSurrogate_ofChar '"'
  refine Text.writable_cons hmark (.append ?_ (Text.writable_cons hmark writable_nil))
  refine Text.writable_flatMap fun c hc => ?_
  rw [Style.escape]
  split_ifs with h₁ h₂ h₃ h₄ h₅ h₆ h₇ h₈ h₉
  · exact writable_ofString _
  · exact writable_ofString _
  · exact writable_ofString _
  · exact writable_ofString _
  · exact writable_ofString _
  · exact writable_ofString _
  · exact writable_ofString _
  · rw [Style.numbered, if_pos (by omega)]
    exact (writable_ofString _).append (Text.writable_ofHex _ _)
  · exact absurd h₉ Bool.false_ne_true
  · exact Text.writable_cons (ht c hc) writable_nil

theorem writable_floatText (x : Float) : (floatText x).Writable := by
  rw [floatText]
  split_ifs
  · exact writable_ofString _
  · exact writable_ofString _
  · exact writable_ofString _
  · exact Number.writable_text x

namespace Value

theorem writable_writeItems {items : List Value} (h : ∀ v ∈ items, (v.write compact).Writable) :
    (writeItems compact items).Writable := by
  induction items with
  | nil => exact writable_nil
  | cons v items ih =>
    obtain ⟨hv, hitems⟩ := List.forall_mem_cons.1 h
    cases items with
    | nil => rwa [writeItems]
    | cons w items =>
      rw [Reader.writeItems_cons_cons]
      exact hv.append (Text.writable_cons (Text.isSurrogate_ofChar _) (ih hitems))

theorem writable_writeMembers {members : Members} (hnames : ∀ m ∈ members, m.1.Writable)
    (h : ∀ m ∈ members, (m.2.write compact).Writable) :
    (writeMembers compact members).Writable := by
  induction members with
  | nil => exact writable_nil
  | cons m members ih =>
    obtain ⟨name, v⟩ := m
    obtain ⟨hname, hnames⟩ := List.forall_mem_cons.1 hnames
    obtain ⟨hv, hmembers⟩ := List.forall_mem_cons.1 h
    have hcolon := Text.isSurrogate_ofChar ':'
    cases members with
    | nil =>
      rw [Reader.writeMembers_singleton]
      exact (writable_quote hname).append (Text.writable_cons hcolon hv)
    | cons m members =>
      rw [Reader.writeMembers_cons_cons]
      exact (writable_quote hname).append (Text.writable_cons hcolon
        (hv.append (Text.writable_cons (Text.isSurrogate_ofChar _) (ih hnames hmembers))))

/-- **The text of a value can be written** when no string in it has a surrogate. -/
theorem writable_write {v : Value} (h : v.Writable) : (v.write compact).Writable := by
  induction h with
  | null => rw [write]; exact writable_ofString _
  | bool b =>
    rw [write]
    split_ifs
    · exact writable_ofString _
    · exact writable_ofString _
  | int n => rw [write]; exact Text.writable_ofInt n
  | float x => rw [write]; exact writable_floatText x
  | text ht => rw [write]; exact writable_quote ht
  | array _ ih =>
    rw [write]
    exact ((writable_ofString _).append (writable_writeItems ih)).append (writable_ofString _)
  | object names _ ih =>
    rw [write]
    exact ((writable_ofString _).append (writable_writeMembers names ih)).append
      (writable_ofString _)

/-! ## Floating-point numbers -/

theorem itemsFinite_iff {items : List Value} :
    itemsFinite items = true ↔ ∀ v ∈ items, v.floatsFinite = true := by
  induction items with
  | nil => simp [itemsFinite]
  | cons v items ih => rw [itemsFinite, Bool.and_eq_true, ih, List.forall_mem_cons]

theorem membersFinite_iff {members : Members} :
    membersFinite members = true ↔ ∀ m ∈ members, m.2.floatsFinite = true := by
  induction members with
  | nil => simp [membersFinite]
  | cons m members ih => rw [membersFinite, Bool.and_eq_true, ih, List.forall_mem_cons]

/-- A value that is read back holds no infinity and no NaN. -/
theorem floatsFinite_of_readable {room : ℕ} {v : Value} (h : v.Readable room) :
    v.floatsFinite = true := by
  induction h with
  | null | bool | int | text => rfl
  | float hx => exact hx
  | array _ ih => exact itemsFinite_iff.2 ih
  | object _ _ ih => exact membersFinite_iff.2 ih

end Value

end Abacus.Json
