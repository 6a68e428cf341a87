import Mathlib
import Abacus.Operator
import Abacus.Proofs.Number.Bits

/-!
# Arithmetic with infinities and NaN

Once a double is not finite, no finite double brings it back by a sum, a difference, a product or a
quotient. Each of the four operations takes its doubles apart, works on the parts and puts the
result together again, so that is read off a table over the parts.

* `Absorbing`: an operation on parts whose result is not finite when the first is not;
* `isFinite_add`, `isFinite_sub`, `isFinite_mul`, `isFinite_div`: the four operations;
* `beq_zero_iff`, `lt_zero_iff`: how a double compares with zero;
* `Arithmetic.power_of_isFinite`: where no power is refused. The power of IEEE arithmetic is not
  defined over parts, and there are exponents that bring back a base that is not finite.
-/

namespace Abacus

namespace Number

open Float.Model (UnpackedFloat)

/-- An operation on parts whose result is not finite when the first of two is not. -/
def Absorbing (f : UnpackedFloat → UnpackedFloat → UnpackedFloat) : Prop :=
  ∀ u v, u.isFinite = false → v.isFinite = true → (f u v).isFinite = false

/-- Parts that are not those of a finite double are put together to one that is not finite. -/
theorem isFinite_pack {u : UnpackedFloat} (h : u.isFinite = false) :
    (Float.ofModel (Float.Model.pack u)).isFinite = false := by
  cases u with
  | infinity sign => cases sign <;> decide
  | notANumber => decide
  | zero sign => cases h
  | finite sign mantissa exponent pos => cases h

/-- What holds of the parts holds of the doubles. -/
theorem Absorbing.isFinite {f : UnpackedFloat → UnpackedFloat → UnpackedFloat} (hf : Absorbing f)
    {x y : Float} (hx : x.isFinite = false) (hy : y.isFinite = true) :
    (Float.ofModel (Float.Model.pack (f x.toModel.unpack y.toModel.unpack))).isFinite = false :=
  isFinite_pack (hf _ _ hx hy)

theorem absorbing_add : Absorbing (UnpackedFloat.add Float.Model.Format.binary64) := by
  intro u v hu hv
  cases u <;> cases v <;> cases hu <;> cases hv <;> rfl

theorem absorbing_sub : Absorbing (UnpackedFloat.sub Float.Model.Format.binary64) := by
  intro u v hu hv
  cases u <;> cases v <;> cases hu <;> cases hv <;> rfl

theorem absorbing_mul : Absorbing (UnpackedFloat.mul Float.Model.Format.binary64) := by
  intro u v hu hv
  cases u <;> cases v <;> cases hu <;> cases hv <;> rfl

theorem absorbing_div : Absorbing (UnpackedFloat.div Float.Model.Format.binary64) := by
  intro u v hu hv
  cases u <;> cases v <;> cases hu <;> cases hv <;> rfl

theorem isFinite_add {x y : Float} (hx : x.isFinite = false) (hy : y.isFinite = true) :
    (x + y).isFinite = false :=
  absorbing_add.isFinite hx hy

theorem isFinite_sub {x y : Float} (hx : x.isFinite = false) (hy : y.isFinite = true) :
    (x - y).isFinite = false :=
  absorbing_sub.isFinite hx hy

theorem isFinite_mul {x y : Float} (hx : x.isFinite = false) (hy : y.isFinite = true) :
    (x * y).isFinite = false :=
  absorbing_mul.isFinite hx hy

theorem isFinite_div {x y : Float} (hx : x.isFinite = false) (hy : y.isFinite = true) :
    (x / y).isFinite = false :=
  absorbing_div.isFinite hx hy

/-! ## Zeros -/

/-- The parts determine the double. -/
theorem eq_of_unpack_eq {x y : Float} (h : x.toModel.unpack = y.toModel.unpack) : x = y := by
  have hbits := (UnpackedFloat.unpack_inj_of_valid x.toModel.valid y.toModel.valid).1 h
  rcases x with ⟨⟨⟨x⟩, hx⟩⟩
  rcases y with ⟨⟨⟨y⟩, hy⟩⟩
  cases hbits
  rfl

/-- The zeros are two, one of either sign. -/
theorem beq_zero_iff {x : Float} : (x == 0) = true ↔ x = 0 ∨ x = -0 := by
  constructor
  · intro hx
    change x.toModel.unpack.beq (0 : Float).toModel.unpack = true at hx
    rw [show (0 : Float).toModel.unpack = .zero .positive from rfl] at hx
    cases h : x.toModel.unpack with
    | zero sign =>
      cases sign with
      | positive => exact .inl (eq_of_unpack_eq (y := 0) h)
      | negative => exact .inr (eq_of_unpack_eq (y := -0) h)
    | infinity sign => rw [h] at hx; cases sign <;> cases hx
    | notANumber => rw [h] at hx; cases hx
    | finite sign mantissa exponent pos => rw [h] at hx; cases sign <;> cases hx
  · rintro (rfl | rfl) <;> decide

/-- A finite double is negative if it is not at least zero. -/
theorem lt_zero_iff {x : Float} (hx : x.isFinite = true) : x < 0 ↔ ¬0 ≤ x := by
  have hlt : x < 0 ↔ x.toModel.unpack.lt (.zero .positive) = true := decide_eq_true_iff
  have hle : 0 ≤ x ↔ (UnpackedFloat.zero .positive).le x.toModel.unpack = true :=
    decide_eq_true_iff
  change x.toModel.unpack.isFinite = true at hx
  rw [hlt, hle]
  cases h : x.toModel.unpack with
  | zero sign => cases sign <;> decide
  | finite sign mantissa exponent pos =>
    cases sign with
    | negative => exact iff_of_true rfl Bool.false_ne_true
    | positive => exact iff_of_false Bool.false_ne_true (not_not.2 rfl)
  | infinity sign => rw [h] at hx; cases hx
  | notANumber => rw [h] at hx; cases hx

/-- A double that is not finite is an infinity or NaN. -/
theorem isInf_or_isNaN {x : Float} (hx : x.isFinite = false) :
    x.isInf = true ∨ x.isNaN = true := by
  rw [← Bool.not_eq_true, isFinite_iff] at hx
  rw [isInf_iff, isNaN_iff]
  omega

end Number

namespace Arithmetic

/-- A power that is finite is not refused. -/
theorem power_of_isFinite {a x : Float} (h : (Float.pow a x).isFinite = true) :
    power a x = Float.pow a x := by
  have hchecked : checkedBy Float.pow a x = .ok (Float.pow a x) := by simp [checkedBy, h]
  rw [power, powerBy, hchecked]

end Arithmetic

end Abacus
