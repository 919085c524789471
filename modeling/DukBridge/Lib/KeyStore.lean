import Mathlib.Data.List.Nodup
import Mathlib.Logic.Function.Basic

/-!
# A store under keys that come from outside

Whoever stores a value does not choose its key. The ledger lists what was stored
and not yet removed; the store is right about it as long as no key is drawn while
an entry under that key is still there.
-/
namespace KeyStore

variable {K V : Type} [DecidableEq K]

/-- Entries stored and not yet removed, newest first. -/
abbrev Ledger (K V : Type) := List (K × V)

def Ledger.keys (live : Ledger K V) : List K := live.map Prod.fst

def Ledger.remove (live : Ledger K V) (k : K) : Ledger K V := live.filter fun e => e.1 ≠ k

/-- Live entries have different keys and each is found under its own. -/
structure Tracks (store : K → Option V) (live : Ledger K V) : Prop where
  distinct : live.keys.Nodup
  found : ∀ k v, (k, v) ∈ live → store k = some v

omit [DecidableEq K] in
theorem Ledger.mem_keys {live : Ledger K V} {k : K} : k ∈ live.keys ↔ ∃ v, (k, v) ∈ live := by
  simp [Ledger.keys]

theorem Ledger.mem_remove {live : Ledger K V} {k k' : K} {v : V} :
    (k', v) ∈ live.remove k ↔ (k', v) ∈ live ∧ k' ≠ k := by
  simp [Ledger.remove]

theorem Ledger.remove_keys (live : Ledger K V) (k : K) :
    (live.remove k).keys = live.keys.filter (· ≠ k) := by
  simp only [Ledger.keys, Ledger.remove, List.filter_map]
  rfl

omit [DecidableEq K] in
theorem Tracks.empty (store : K → Option V) : Tracks store [] :=
  ⟨List.nodup_nil, fun _ _ member => by cases member⟩

omit [DecidableEq K] in
theorem Tracks.fresh_of_absent {store : K → Option V} {live : Ledger K V}
    (tracks : Tracks store live) {k : K} (absent : store k = none) : k ∉ live.keys := by
  intro member
  obtain ⟨v, entry⟩ := Ledger.mem_keys.mp member
  rw [tracks.found k v entry] at absent
  cases absent

theorem Tracks.insert {store : K → Option V} {live : Ledger K V} (tracks : Tracks store live)
    {k : K} (fresh : k ∉ live.keys) (v : V) :
    Tracks (Function.update store k (some v)) ((k, v) :: live) := by
  refine ⟨List.nodup_cons.mpr ⟨fresh, tracks.distinct⟩, ?_⟩
  intro k' v' member
  rcases List.mem_cons.mp member with new | old
  · -- the entry just made
    cases new
    exact Function.update_self ..
  · -- no older entry has this key, so none is overwritten
    have other : k' ≠ k := by
      rintro rfl
      exact fresh (Ledger.mem_keys.mpr ⟨v', old⟩)
    rw [Function.update_of_ne other]
    exact tracks.found k' v' old

theorem Tracks.remove {store : K → Option V} {live : Ledger K V} (tracks : Tracks store live)
    (k : K) : Tracks (Function.update store k none) (live.remove k) := by
  constructor
  · rw [Ledger.remove_keys]
    exact tracks.distinct.filter _
  · intro k' v' member
    obtain ⟨old, other⟩ := Ledger.mem_remove.mp member
    rw [Function.update_of_ne other]
    exact tracks.found k' v' old

/-! ### Stores whose every entry is accounted for -/

/-- The entries of the store are those of the list, each under a key of its own. -/
structure Lists (store : K → Option V) (entries : Ledger K V) : Prop where
  distinct : entries.keys.Nodup
  exact : ∀ k v, store k = some v ↔ (k, v) ∈ entries

namespace Lists

variable {store : K → Option V} {entries entries' : Ledger K V} {k : K} {v : V}

omit [DecidableEq K] in
theorem empty : Lists (fun _ => none) ([] : Ledger K V) :=
  ⟨List.nodup_nil, fun _ _ => by simp⟩

omit [DecidableEq K] in
theorem perm (lists : Lists store entries) (same : entries.Perm entries') :
    Lists store entries' := by
  constructor
  · exact (same.map Prod.fst).nodup_iff.mp lists.distinct
  · intro k v
    rw [lists.exact, same.mem_iff]

omit [DecidableEq K] in
theorem isSome_iff (lists : Lists store entries) : (store k).isSome ↔ k ∈ entries.keys := by
  rw [Ledger.mem_keys, Option.isSome_iff_exists]
  exact exists_congr fun v => lists.exact k v

theorem insert (lists : Lists store entries) (absent : store k = none) (v : V) :
    Lists (Function.update store k (some v)) ((k, v) :: entries) := by
  have fresh : k ∉ entries.keys := by
    rw [← lists.isSome_iff, absent]
    simp
  refine ⟨List.nodup_cons.mpr ⟨fresh, lists.distinct⟩, ?_⟩
  intro k' v'
  by_cases same : k' = k
  · subst same
    have unlisted : (k', v') ∉ entries := fun member => fresh (Ledger.mem_keys.mpr ⟨v', member⟩)
    simp [unlisted, eq_comm]
  · simp [same, lists.exact]

theorem erase (lists : Lists store ((k, v) :: entries)) :
    Lists (Function.update store k none) entries := by
  obtain ⟨gone, distinct⟩ := List.nodup_cons.mp lists.distinct
  refine ⟨distinct, ?_⟩
  intro k' v'
  by_cases same : k' = k
  · subst same
    have unlisted : (k', v') ∉ entries := fun member => gone (Ledger.mem_keys.mpr ⟨v', member⟩)
    simp [unlisted]
  · rw [Function.update_of_ne same, lists.exact]
    simp [same]

end Lists

end KeyStore
