import Mathlib.Data.List.Basic

/-!
# Rewriting a buffer in place

One pointer reads the buffer and another writes the output over what has been read. As long as
the writing pointer has not passed the reading one, the input that is left is intact.
-/
namespace DukBridge

variable {α : Type} {out inp buf : List α} {p q : Nat} {c : α}

/-- `out` has been written up to `q`, and `inp` is still to be read from `p`. -/
structure InPlace (out inp buf : List α) (p q : Nat) : Prop where
  output : buf.take q = out
  input : buf.drop p = inp
  order : q ≤ p
  within : p ≤ buf.length

namespace InPlace

theorem start (buf : List α) : InPlace [] buf buf 0 0 where
  output := List.take_zero
  input := List.drop_zero
  order := Nat.le_refl 0
  within := Nat.zero_le _

theorem length_out (here : InPlace out inp buf p q) : out.length = q := by
  rw [← here.output, List.length_take]
  have := here.order
  have := here.within
  omega

theorem length_inp (here : InPlace out inp buf p q) : p + inp.length = buf.length := by
  rw [← here.input, List.length_drop]
  have := here.within
  omega

/-- The symbols ahead are those of the input. -/
theorem ahead (here : InPlace out inp buf p q) (i : Nat) : buf[p + i]? = inp[i]? := by
  rw [← here.input, List.getElem?_drop]

/-- The symbols behind the writing pointer are those of the output. -/
theorem behind (here : InPlace out inp buf p q) {i : Nat} (i_lt : i < q) : buf[i]? = out[i]? := by
  rw [← here.output, List.getElem?_take_of_lt i_lt]

theorem skip (here : InPlace out (c :: inp) buf p q) : InPlace out inp buf (p + 1) q where
  output := here.output
  input := by rw [← List.tail_drop, here.input, List.tail_cons]
  order := Nat.le_succ_of_le here.order
  within := by
    have := here.length_inp
    simp only [List.length_cons] at this
    omega

theorem write (here : InPlace out inp buf p q) (q_lt : q < p) :
    InPlace (out ++ [c]) inp (buf.set q c) p (q + 1) where
  output := by
    have := here.within
    rw [List.take_succ_eq_append_getElem (by rw [List.length_set]; omega),
      List.take_set_of_le (Nat.le_refl q), here.output, List.getElem_set_self]
  input := by rw [List.drop_set_of_lt q_lt, here.input]
  order := q_lt
  within := by
    rw [List.length_set]
    exact here.within

/-- The output is taken back. -/
theorem retract {back : List α} (here : InPlace (out ++ back) inp buf p q) :
    InPlace out inp buf p out.length where
  output := by
    have length := here.length_out
    rw [List.length_append] at length
    have := congrArg (List.take out.length) here.output
    rwa [List.take_take, Nat.min_eq_left (by omega), List.take_left] at this
  input := here.input
  order := by
    have length := here.length_out
    rw [List.length_append] at length
    have := here.order
    omega
  within := here.within

end InPlace

end DukBridge
