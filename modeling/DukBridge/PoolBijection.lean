import DukBridge.Lib.EventLog
import DukBridge.Lib.PairStore
import DukBridge.PoolServer
import Mathlib.Data.Set.Insert

/-!
# Keys and values of a hashing pool

A pool made with `valHashable` keeps two maps. While the keys it draws are unused, the
maps are the two directions of one partial bijection, and every method is one change of it.
-/
namespace DukBridge

open Rendezvous PairStore

variable {α σ : Type} [DecidableEq α] [GoValue α]

/-- One method call with its result. -/
inductive PoolEvent (α : Type) where
  | V2K (val : α) (res : Except α α)
  | GetVal (key res : α)
  | RemoveKey (key : α)
  | RemoveVal (val : α)

namespace PoolEvent

/-- After this event `k` may still be the key that `v` was given: it did not go to another value,
and neither of the two was removed. -/
def Spares (k v : α) : PoolEvent α → Prop
  | V2K val (.ok key) => key = k → val = v
  | RemoveKey key => key ≠ k
  | RemoveVal val => val ≠ v
  | V2K _ (.error _) | GetVal _ _ => True

end PoolEvent

/-- `V2K` last returned `k` for `v`, and neither was removed since; the newest event comes first. -/
def AssignedSince (history : List (PoolEvent α)) (k v : α) : Prop :=
  ∃ since before, history = since ++ .V2K v (.ok k) :: before ∧ ∀ event ∈ since, event.Spares k v

omit [DecidableEq α] [GoValue α] in
theorem assignedSince_cons {event : PoolEvent α} {history : List (PoolEvent α)} {k v : α} :
    AssignedSince (event :: history) k v ↔
      event = .V2K v (.ok k) ∨ (event.Spares k v ∧ AssignedSince history k v) :=
  EventLog.happenedSince_cons

/-! ### Runs -/

/-- What the type of `Val2KeyFunc` says, for keys that are hashable and no errors. -/
structure Val2KeyTyped (val2key : α → σ → Except α α × σ) : Prop where
  keys : ∀ val gen key gen', val2key val gen = (.ok key, gen') →
    GoValue.hashable key = true ∧ GoValue.isError key = false
  errors : ∀ val gen err gen', val2key val gen = (.error err, gen') → GoValue.isError err = true

/-- A key that a value is given is no key of the pool. -/
def DrawsUnused (p : V2KPool α σ) (val : α) : Prop :=
  p.v2k val = none → ∀ key gen, p.val2key val p.gen = (.ok key, gen) → p.k2v key = none

/-- The method calls on a pool, one after another, the newest first. -/
inductive PoolRun (start : V2KPool α σ) : List (PoolEvent α) → V2KPool α σ → Prop where
  | start : PoolRun start [] start
  | V2K {history p p' val res} (run : PoolRun start history p) (isVal : val ≠ GoValue.nil)
      (hashable : GoValue.hashable val = true) (unused : DrawsUnused p val)
      (ran : runAlone V2KPool.protocol p (V2KPool.V2K val) = some (res, p')) :
      PoolRun start (.V2K val res :: history) p'
  | GetVal {history p p' key res} (run : PoolRun start history p)
      (hashable : GoValue.hashable key = true)
      (ran : runAlone V2KPool.protocol p (V2KPool.GetVal key) = some (res, p')) :
      PoolRun start (.GetVal key res :: history) p'
  | RemoveKey {history p p' key} (run : PoolRun start history p)
      (hashable : GoValue.hashable key = true)
      (ran : runAlone V2KPool.protocol p (V2KPool.RemoveKey key) = some ((), p')) :
      PoolRun start (.RemoveKey key :: history) p'
  | RemoveVal {history p p' val} (run : PoolRun start history p)
      (hashable : GoValue.hashable val = true)
      (ran : runAlone V2KPool.protocol p (V2KPool.RemoveVal val) = some ((), p')) :
      PoolRun start (.RemoveVal val :: history) p'

def V2KPool.pairs (p : V2KPool α σ) : Set (α × α) := { pair | p.k2v pair.1 = some pair.2 }

/-- The two maps are inverse to each other, look-ups answer what was assigned last, and a removal
takes away the one pair it names. -/
structure PoolBijection (p : V2KPool α σ) (history : List (PoolEvent α)) : Prop where
  inverse : ∀ k v, p.k2v k = some v ↔ p.v2k v = some k
  existing : ∀ k v, p.v2k v = some k →
    runAlone V2KPool.protocol p (V2KPool.V2K v) = some (.ok k, p)
  lookup : ∀ k v, GoValue.hashable k = true → v ≠ GoValue.nil →
    (runAlone V2KPool.protocol p (V2KPool.GetVal k) = some (v, p) ↔ AssignedSince history k v)
  removesKey : ∀ k v, (k, v) ∈ p.pairs → ∃ p',
    runAlone V2KPool.protocol p (V2KPool.RemoveKey k) = some ((), p') ∧
      p'.pairs = p.pairs \ {(k, v)}
  removesVal : ∀ k v, (k, v) ∈ p.pairs → ∃ p',
    runAlone V2KPool.protocol p (V2KPool.RemoveVal v) = some ((), p') ∧
      p'.pairs = p.pairs \ {(k, v)}
  absentKey : ∀ k, GoValue.hashable k = true → p.k2v k = none →
    runAlone V2KPool.protocol p (V2KPool.RemoveKey k) = some ((), p)
  absentVal : ∀ v, GoValue.hashable v = true → p.v2k v = none →
    runAlone V2KPool.protocol p (V2KPool.RemoveVal v) = some ((), p)

/-! ### The pool as a partial bijection -/

/-- What may be an entry of the pool. -/
structure PoolEntry (k v : α) : Prop where
  key : GoValue.hashable k = true
  noError : GoValue.isError k = false
  val : GoValue.hashable v = true
  isVal : v ≠ GoValue.nil

structure Holds (val2key : α → σ → Except α α × σ) (p : V2KPool α σ) (e : PEquiv α α) : Prop where
  keys : p.k2v = e
  vals : p.v2k = e.symm
  hashes : p.valHashable = true
  drawsWith : p.val2key = val2key
  entries : ∀ k v, e k = some v → PoolEntry k v

variable {val2key : α → σ → Except α α × σ} {p : V2KPool α σ} {e : PEquiv α α} {k v : α}

namespace Holds

omit [DecidableEq α] in
theorem new (gen : σ) : Holds val2key (.new val2key true gen) (⊥ : PEquiv α α) :=
  ⟨rfl, rfl, rfl, rfl, fun _ _ absent => by cases absent⟩

theorem val2Key_present (holds : Holds val2key p e) (pair : e k = some v) :
    p.val2Key v = .ok (k, p) := by
  have back : e.symm v = some k := e.eq_some_iff.mpr pair
  have hashable := (holds.entries k v pair).val
  simp [V2KPool.val2Key, holds.hashes, GoMap.index, hashable, holds.vals, back, bind, Except.bind,
    pure, Except.pure]

theorem val2Key_drawn (holds : Holds val2key p e) {gen : σ} (absent : e.symm v = none)
    (drawn : val2key v p.gen = (.ok k, gen)) (unused : e k = none) (entry : PoolEntry k v) :
    ∃ p', p.val2Key v = .ok (k, p') ∧ Holds val2key p' (store e k v unused absent) := by
  refine ⟨{ p with
    k2v := Function.update p.k2v k (some v), v2k := Function.update p.v2k v (some k), gen }, ?_, ?_⟩
  · simp [V2KPool.val2Key, V2KPool.drawKey, holds.hashes, GoMap.index, GoMap.assign, entry.val,
      entry.key, holds.vals, absent, holds.drawsWith, drawn, bind, Except.bind, pure, Except.pure]
  · refine ⟨by rw [holds.keys]; rfl, by rw [holds.vals]; rfl, holds.hashes, holds.drawsWith, ?_⟩
    intro k' v' pair
    rcases store_apply.mp pair with ⟨rfl, rfl⟩ | old
    · exact entry
    · exact holds.entries k' v' old

theorem val2Key_failed (holds : Holds val2key p e) {err : α} {gen : σ} (absent : e.symm v = none)
    (hashable : GoValue.hashable v = true) (failed : val2key v p.gen = (.error err, gen)) :
    p.val2Key v = .ok (err, { p with gen }) := by
  simp [V2KPool.val2Key, V2KPool.drawKey, holds.hashes, GoMap.index, hashable, holds.vals, absent,
    holds.drawsWith, failed, bind, Except.bind, pure, Except.pure]

omit [DecidableEq α] in
theorem getVal (holds : Holds val2key p e) (hashable : GoValue.hashable k = true) :
    p.getVal k = .ok ((e k).getD GoValue.nil) := by
  simp only [V2KPool.getVal, GoMap.index, hashable, if_true, holds.keys, bind, Except.bind]
  cases e k <;> rfl

theorem removeKey (holds : Holds val2key p e) (hashable : GoValue.hashable k = true) :
    ∃ p', p.removeKey k = .ok p' ∧ Holds val2key p' (forget e k) := by
  cases held : e k with
  | none =>
    refine ⟨p, ?_, by rwa [forget_absent held]⟩
    simp [V2KPool.removeKey, GoMap.index, hashable, holds.keys, held, bind, Except.bind, pure,
      Except.pure]
  | some v =>
    -- the value is found on the other side, and goes there too
    have entry := holds.entries k v held
    have back : e.symm v = some k := e.eq_some_iff.mpr held
    refine ⟨{ p with k2v := Function.update p.k2v k none, v2k := Function.update p.v2k v none },
      ?_, ?_⟩
    · simp [V2KPool.removeKey, GoMap.index, GoMap.delete, hashable, holds.keys, held, entry.val,
        holds.vals, back, bind, Except.bind, pure, Except.pure]
    · refine ⟨by rw [holds.keys, forget_coe], by rw [holds.vals, forget_symm_coe held],
        holds.hashes, holds.drawsWith, ?_⟩
      exact fun k' v' pair => holds.entries k' v' (forget_apply.mp pair).1

theorem removeVal (holds : Holds val2key p e) (hashable : GoValue.hashable v = true) :
    ∃ p', p.removeVal v = .ok p' ∧ Holds val2key p' (forget e.symm v).symm := by
  cases held : e.symm v with
  | none =>
    refine ⟨p, ?_, by rwa [forget_absent held]⟩
    simp [V2KPool.removeVal, holds.hashes, GoMap.index, hashable, holds.vals, held, bind,
      Except.bind, pure, Except.pure]
  | some k =>
    have pair : e k = some v := e.eq_some_iff.mp held
    have entry := holds.entries k v pair
    refine ⟨{ p with k2v := Function.update p.k2v k none, v2k := Function.update p.v2k v none },
      ?_, ?_⟩
    · simp [V2KPool.removeVal, holds.hashes, GoMap.index, GoMap.delete, hashable, holds.vals, held,
        entry.key, holds.keys, pair, bind, Except.bind, pure, Except.pure]
    · rw [forget_symm_apply pair]
      refine ⟨by rw [holds.keys, forget_coe], by rw [holds.vals, forget_symm_coe pair],
        holds.hashes, holds.drawsWith, ?_⟩
      exact fun k' v' kept => holds.entries k' v' (forget_apply.mp kept).1

omit [DecidableEq α] in
theorem mem_pairs (holds : Holds val2key p e) : (k, v) ∈ p.pairs ↔ e k = some v := by
  rw [← holds.keys]
  exact Iff.rfl

theorem pairs_forget {p' : V2KPool α σ} (holds : Holds val2key p e)
    (removed : Holds val2key p' (forget e k)) (pair : e k = some v) :
    p'.pairs = p.pairs \ {(k, v)} := by
  ext ⟨k', v'⟩
  rw [removed.mem_pairs, forget_apply, Set.mem_sdiff, holds.mem_pairs, Set.mem_singleton_iff]
  apply and_congr_right
  intro other
  -- two pairs with one key are one
  constructor
  · rintro differs same
    exact differs (Prod.mk.inj same).1
  · rintro differs rfl
    rw [pair] at other
    exact differs (by rw [Option.some.inj other])

end Holds

/-! ### The methods against one pool -/

theorem runAlone_V2K {p' : V2KPool α σ} {res : α} (served : p.val2Key v = .ok (res, p')) :
    runAlone V2KPool.protocol p (V2KPool.V2K v) =
      some (if GoValue.isError res then .error res else .ok res, p') := by
  have reply : V2KPool.protocol.serve p ⟨.v2k, v⟩ = .reply res p' := by
    simp only [V2KPool.protocol, V2KPool.bgLoop, served]
  change runAlone V2KPool.protocol p (.call ⟨.v2k, v⟩ _) = _
  simp only [runAlone, reply]
  rfl

theorem runAlone_GetVal {res : α} (served : p.getVal k = .ok res) :
    runAlone V2KPool.protocol p (V2KPool.GetVal k) = some (res, p) := by
  have reply : V2KPool.protocol.serve p ⟨.k2v, k⟩ = .reply res p := by
    simp only [V2KPool.protocol, V2KPool.bgLoop, served]
  change runAlone V2KPool.protocol p (.call ⟨.k2v, k⟩ _) = _
  simp only [runAlone, reply]
  rfl

theorem runAlone_RemoveKey {p' : V2KPool α σ} (served : p.removeKey k = .ok p') :
    runAlone V2KPool.protocol p (V2KPool.RemoveKey k) = some ((), p') := by
  have silent : V2KPool.protocol.serve p ⟨.removeK, k⟩ = .silent p' := by
    simp only [V2KPool.protocol, V2KPool.bgLoop, served]
  change runAlone V2KPool.protocol p (.call ⟨.removeK, k⟩ _) = _
  simp only [runAlone, silent]
  rfl

theorem runAlone_RemoveVal {p' : V2KPool α σ} (served : p.removeVal v = .ok p') :
    runAlone V2KPool.protocol p (V2KPool.RemoveVal v) = some ((), p') := by
  have silent : V2KPool.protocol.serve p ⟨.removeV, v⟩ = .silent p' := by
    simp only [V2KPool.protocol, V2KPool.bgLoop, served]
  change runAlone V2KPool.protocol p (.call ⟨.removeV, v⟩ _) = _
  simp only [runAlone, silent]
  rfl

/-! ### The invariant of a run -/

/-- The pool is a partial bijection of what the history assigned. -/
def Remembers (val2key : α → σ → Except α α × σ) (p : V2KPool α σ)
    (history : List (PoolEvent α)) : Prop :=
  ∃ e : PEquiv α α, Holds val2key p e ∧ ∀ k v, e k = some v ↔ AssignedSince history k v

omit [DecidableEq α] in
theorem remembers_new (gen : σ) : Remembers val2key (.new val2key true gen) [] := by
  refine ⟨⊥, .new gen, ?_⟩
  intro k v
  constructor
  · intro absent
    cases absent
  · exact fun assigned => absurd assigned EventLog.not_happenedSince_nil

theorem remembers_V2K (typed : Val2KeyTyped val2key) {history : List (PoolEvent α)}
    (remembers : Remembers val2key p history) (isVal : v ≠ GoValue.nil)
    (hashable : GoValue.hashable v = true) (unused : DrawsUnused p v) {p' : V2KPool α σ}
    {res : Except α α} (ran : runAlone V2KPool.protocol p (V2KPool.V2K v) = some (res, p')) :
    Remembers val2key p' (.V2K v res :: history) := by
  obtain ⟨e, holds, assigned⟩ := remembers
  cases held : e.symm v with
  | some k =>
    -- the key it has
    have pair : e k = some v := e.eq_some_iff.mp held
    rw [runAlone_V2K (holds.val2Key_present pair), (holds.entries k v pair).noError] at ran
    cases ran
    refine ⟨e, holds, ?_⟩
    intro k' v'
    rw [assignedSince_cons]
    constructor
    · intro other
      refine .inr ⟨?_, (assigned k' v').mp other⟩
      rintro rfl
      exact Option.some.inj (pair.symm.trans other)
    · rintro (same | ⟨_, older⟩)
      · cases same
        exact pair
      · exact (assigned k' v').mpr older
  | none =>
    cases drawn : val2key v p.gen with
    | mk outcome gen =>
      cases outcome with
      | ok k =>
        have free : e k = none := by
          rw [← holds.keys]
          exact unused (by rw [holds.vals, held]) k gen (by rw [holds.drawsWith, drawn])
        obtain ⟨key, noError⟩ := typed.keys v p.gen k gen drawn
        have entry : PoolEntry k v := ⟨key, noError, hashable, isVal⟩
        obtain ⟨stored, returned, holds'⟩ := holds.val2Key_drawn held drawn free entry
        rw [runAlone_V2K returned, noError] at ran
        cases ran
        refine ⟨_, holds', ?_⟩
        intro k' v'
        rw [store_apply, assignedSince_cons, assigned]
        constructor
        · rintro (⟨rfl, rfl⟩ | older)
          · exact .inl rfl
          · refine .inr ⟨?_, older⟩
            -- the new key was nobody's
            rintro rfl
            rw [← assigned, free] at older
            cases older
        · rintro (same | ⟨_, older⟩)
          · cases same
            exact .inl ⟨rfl, rfl⟩
          · exact .inr older
      | error err =>
        have failed := holds.val2Key_failed held hashable drawn
        rw [runAlone_V2K failed, typed.errors v p.gen err gen drawn] at ran
        cases ran
        refine ⟨e, ⟨holds.keys, holds.vals, holds.hashes, holds.drawsWith, holds.entries⟩, ?_⟩
        intro k' v'
        rw [assignedSince_cons, assigned]
        constructor
        · exact fun older => .inr ⟨trivial, older⟩
        · rintro (same | ⟨_, older⟩)
          · cases same
          · exact older

/-- Each call of the run is one change of the bijection. -/
theorem remembers_run (typed : Val2KeyTyped val2key) {gen : σ} {history : List (PoolEvent α)}
    (run : PoolRun (.new val2key true gen) history p) : Remembers val2key p history := by
  -- over the run: the pool's maps stay the two directions of one partial bijection
  induction run with
  | start => exact remembers_new gen
  | V2K _ isVal hashable unused ran ih => exact remembers_V2K typed ih isVal hashable unused ran
  | GetVal _ hashable ran ih =>
    obtain ⟨e, holds, assigned⟩ := ih
    rw [runAlone_GetVal (holds.getVal hashable)] at ran
    cases ran
    refine ⟨e, holds, ?_⟩
    intro k' v'
    rw [assignedSince_cons, assigned]
    simp [PoolEvent.Spares]
  | RemoveKey _ hashable ran ih =>
    obtain ⟨e, holds, assigned⟩ := ih
    obtain ⟨removed, returned, holds'⟩ := holds.removeKey hashable
    rw [runAlone_RemoveKey returned] at ran
    cases ran
    refine ⟨_, holds', ?_⟩
    intro k' v'
    rw [forget_apply, assignedSince_cons, assigned]
    simp [PoolEvent.Spares, and_comm, eq_comm]
  | RemoveVal _ hashable ran ih =>
    obtain ⟨e, holds, assigned⟩ := ih
    obtain ⟨removed, returned, holds'⟩ := holds.removeVal hashable
    rw [runAlone_RemoveVal returned] at ran
    cases ran
    refine ⟨_, holds', ?_⟩
    intro k' v'
    rw [PEquiv.eq_some_iff, forget_apply, PEquiv.eq_some_iff, assignedSince_cons, assigned]
    simp [PoolEvent.Spares, and_comm, eq_comm]

/-- In every run of a hashing pool whose keys are unused when drawn, the pool is a bijection of
the values to the keys they were last given. -/
theorem pool_bijection (typed : Val2KeyTyped val2key) (gen : σ) (history : List (PoolEvent α))
    (p : V2KPool α σ) (run : PoolRun (.new val2key true gen) history p) :
    PoolBijection p history := by
  obtain ⟨e, holds, assigned⟩ := remembers_run typed run
  constructor
  · intro k v
    rw [holds.keys, holds.vals, e.eq_some_iff]
  · intro k v held
    rw [holds.vals, e.eq_some_iff] at held
    rw [runAlone_V2K (holds.val2Key_present held), (holds.entries k v held).noError]
    rfl
  · intro k v hashable isVal
    rw [runAlone_GetVal (holds.getVal hashable), ← assigned]
    cases e k with
    | none => simp [Ne.symm isVal]
    | some held => simp
  · intro k v pair
    rw [holds.mem_pairs] at pair
    obtain ⟨p', removed, holds'⟩ := holds.removeKey (holds.entries k v pair).key
    exact ⟨p', runAlone_RemoveKey removed, holds.pairs_forget holds' pair⟩
  · intro k v pair
    rw [holds.mem_pairs] at pair
    obtain ⟨p', removed, holds'⟩ := holds.removeVal (holds.entries k v pair).val
    rw [forget_symm_apply pair] at holds'
    exact ⟨p', runAlone_RemoveVal removed, holds.pairs_forget holds' pair⟩
  · intro k hashable absent
    apply runAlone_RemoveKey
    simp [V2KPool.removeKey, GoMap.index, hashable, absent, bind, Except.bind, pure, Except.pure]
  · intro v hashable absent
    apply runAlone_RemoveVal
    simp [V2KPool.removeVal, holds.hashes, GoMap.index, hashable, absent, bind, Except.bind, pure,
      Except.pure]

/-- Two values, one of them removed. -/
theorem pool_bijection_twoValues : ∃ p,
    PoolRun countingPool [.RemoveVal (some 5), .V2K (some 6) (.ok (some 8)),
      .V2K (some 5) (.ok (some 7))] p ∧
    PoolBijection p [.RemoveVal (some 5), .V2K (some 6) (.ok (some 8)),
      .V2K (some 5) (.ok (some 7))] := by
  have typed : Val2KeyTyped fun (_ : Option Int) (next : Int) => (.ok (some next), next + 1) := by
    constructor
    · intro val gen key gen' _
      exact ⟨rfl, rfl⟩
    · intro val gen err gen' failed
      cases failed
  have first : PoolRun countingPool [.V2K (some 5) (.ok (some 7))] _ :=
    .V2K .start (by decide) rfl (fun _ _ _ drawn => by cases drawn; rfl) rfl
  have second : PoolRun countingPool [.V2K (some 6) (.ok (some 8)),
    .V2K (some 5) (.ok (some 7))] _ :=
    .V2K first (by decide) rfl (fun _ _ _ drawn => by cases drawn; rfl) rfl
  have removed : PoolRun countingPool [.RemoveVal (some 5), .V2K (some 6) (.ok (some 8)),
    .V2K (some 5) (.ok (some 7))] _ := .RemoveVal second rfl rfl
  exact ⟨_, removed, pool_bijection typed 7 _ _ removed⟩

end DukBridge
