import Mathlib.Algebra.Order.Ring.Int

/-!
# Integers as binary64 numbers

`Float` is core's model of a binary64 number, a pattern of 64 bits. Here it is read as
an integer, which it is for at most one.
-/
namespace Binary64

open Float.Model Float.Model.UnpackedFloat

/-- `(double)n` -/
def ofInt (n : Int) : Float := .ofModel (.ofInt n)

/-- `± m * 2 ^ e` is this integer. -/
def UnpackedIs (u : UnpackedFloat) (n : Int) : Prop :=
  match u with
  | .zero _ => n = 0
  | .finite sign m e _ => sign.apply m * 2 ^ e.toNat = n * 2 ^ (-e).toNat
  | .infinity _ | .notANumber => False

/-- The number is exactly this integer. -/
def Is (d : Float) (n : Int) : Prop := UnpackedIs d.toModel.unpack n

theorem UnpackedIs.unique {u : UnpackedFloat} {n m : Int} (first : UnpackedIs u n)
    (second : UnpackedIs u m) : n = m := by
  cases u with
  | zero sign => exact Eq.trans first (Eq.symm second)
  | finite sign mant e pos =>
    have same : n * 2 ^ (-e).toNat = m * 2 ^ (-e).toNat := Eq.trans (Eq.symm first) second
    exact Int.eq_of_mul_eq_mul_right (pow_ne_zero _ two_ne_zero) same
  | infinity sign => exact first.elim
  | notANumber => exact first.elim

theorem Is.unique {d : Float} {n m : Int} (first : Is d n) (second : Is d m) : n = m :=
  UnpackedIs.unique first second

end Binary64
