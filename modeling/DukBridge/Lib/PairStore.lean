import Mathlib.Data.PEquiv
import Mathlib.Logic.Function.Basic

/-!
# Pairs that are stored from both sides

Two maps that are inverse to each other are one partial bijection. Storing a pair of
two unused values and forgetting a pair keep it one, and change both maps in one place.
-/
namespace PairStore

variable {K V : Type} [DecidableEq K] [DecidableEq V] (e : PEquiv K V)

def store (k : K) (v : V) (unusedKey : e k = none) (unusedVal : e.symm v = none) : PEquiv K V where
  toFun := Function.update e k (some v)
  invFun := Function.update e.symm v (some k)
  inv k' v' := by
    by_cases key : k' = k
    · by_cases val : v' = v
      · simp [key, val]
      · -- no other value has the new key
        rw [Function.update_of_ne val, e.eq_some_iff]
        simp [key, unusedKey, Ne.symm val]
    · by_cases val : v' = v
      · have free : e k' ≠ some v := by
          rw [Ne, ← e.eq_some_iff, unusedVal]
          exact fun same => by cases same
        simp [key, val, free, Ne.symm key]
      · rw [Function.update_of_ne val, Function.update_of_ne key, e.eq_some_iff]

/-- Without the pair of this key, if there is one. -/
def forget (k : K) : PEquiv K V where
  toFun := Function.update e k none
  invFun v := if e k = some v then none else e.symm v
  inv k' v' := by
    by_cases key : k' = k
    · subst key
      by_cases mine : e k' = some v'
      · simp [mine]
      · simp [mine, e.eq_some_iff]
    · by_cases mine : e k = some v'
      · -- the value of this key is the value of no other
        have other : e k' ≠ some v' := by
          intro same
          rw [← e.eq_some_iff] at same mine
          exact key (Option.some.inj (same.symm.trans mine))
        simp [mine, key, other]
      · simp [mine, key, e.eq_some_iff]

variable {e} {k k' : K} {v v' : V}

theorem store_apply {unusedKey : e k = none} {unusedVal : e.symm v = none} :
    store e k v unusedKey unusedVal k' = some v' ↔ (k' = k ∧ v' = v) ∨ e k' = some v' := by
  change Function.update e k (some v) k' = some v' ↔ _
  by_cases key : k' = k
  · simp [key, unusedKey, eq_comm]
  · simp [key]

theorem forget_apply : forget e k k' = some v' ↔ e k' = some v' ∧ k' ≠ k := by
  change Function.update e k none k' = some v' ↔ _
  by_cases key : k' = k
  · simp [key]
  · simp [key]

theorem forget_absent (absent : e k = none) : forget e k = e := by
  apply PEquiv.ext
  intro k'
  by_cases key : k' = k
  · rw [key, absent]
    exact Function.update_self ..
  · exact Function.update_of_ne key ..

theorem forget_coe : ⇑(forget e k) = Function.update e k none := rfl

theorem forget_symm_coe (pair : e k = some v) :
    ⇑(forget e k).symm = Function.update e.symm v none := by
  funext v'
  change (if e k = some v' then none else e.symm v') = _
  by_cases val : v' = v
  · simp [val, pair]
  · rw [pair, Function.update_of_ne val, if_neg]
    exact fun same => val (Option.some.inj same).symm

theorem forget_symm_apply (pair : e k = some v) :
    (forget e.symm v).symm = forget e k := by
  apply PEquiv.ext
  intro k'
  rw [forget_symm_coe (e.eq_some_iff.mpr pair), forget_coe]
  rfl

end PairStore
