import DukBridge.PoolBijection

/-!
# Pools of values that need not be hashable

A pool made without `valHashable` is meant to store any Go value. `val2Key` and `removeVal` test
the flag before they touch `v2k`; `removeKey` looks the value up there without testing it.
-/
namespace DukBridge

open Rendezvous EventLog

variable {α σ : Type} [DecidableEq α] [GoValue α]

/-- One method call, before it runs. -/
inductive PoolRequest (α : Type) where
  | V2K (val : α)
  | GetVal (key : α)
  | RemoveKey (key : α)
  | RemoveVal (val : α)

/-- The call on a pool that nobody else uses; nothing comes back when `bgLoop` panics. -/
def PoolRequest.perform (p : V2KPool α σ) : PoolRequest α → Option (PoolEvent α × V2KPool α σ)
  | .V2K val =>
    (runAlone V2KPool.protocol p (V2KPool.V2K val)).map fun (res, p') => (.V2K val res, p')
  | .GetVal key =>
    (runAlone V2KPool.protocol p (V2KPool.GetVal key)).map fun (res, p') => (.GetVal key res, p')
  | .RemoveKey key =>
    (runAlone V2KPool.protocol p (V2KPool.RemoveKey key)).map fun (_, p') => (.RemoveKey key, p')
  | .RemoveVal val =>
    (runAlone V2KPool.protocol p (V2KPool.RemoveVal val)).map fun (_, p') => (.RemoveVal val, p')

/-- The keys asked for are hashable, and a key that is drawn was not returned before. The values
are arbitrary. -/
def PoolRequest.Admitted (history : List (PoolEvent α)) (p : V2KPool α σ) : PoolRequest α → Prop
  | .V2K val => ∀ key gen, p.val2key val p.gen = (.ok key, gen) → ∀ v, .V2K v (.ok key) ∉ history
  | .GetVal key | .RemoveKey key => GoValue.hashable key = true
  | .RemoveVal _ => True

/-- Only values of a hashable type are removed by their key. -/
def PoolRequest.RemovesHashable (p : V2KPool α σ) : PoolRequest α → Prop
  | .RemoveKey key => ∀ v, p.k2v key = some v → GoValue.hashable v = true
  | .V2K _ | .GetVal _ | .RemoveVal _ => True

/-- The calls on one pool, one after another; the process is gone once `bgLoop` panics. -/
inductive PoolProcess (start : V2KPool α σ) (allowed : V2KPool α σ → PoolRequest α → Prop) :
    List (PoolEvent α) → Option (V2KPool α σ) → Prop where
  | start : PoolProcess start allowed [] (some start)
  | performed {history p event p'} (request : PoolRequest α)
      (before : PoolProcess start allowed history (some p))
      (admitted : request.Admitted history p) (allows : allowed p request)
      (ran : request.perform p = some (event, p')) :
      PoolProcess start allowed (event :: history) (some p')
  | panicked {history p} (request : PoolRequest α)
      (before : PoolProcess start allowed history (some p))
      (admitted : request.Admitted history p) (allows : allowed p request)
      (ran : request.perform p = none) :
      PoolProcess start allowed history none

/-- `V2K` returned `k` for `v`, and `k` was not removed since. -/
def StoredSince (history : List (PoolEvent α)) (k v : α) : Prop :=
  HappenedSince (· ≠ .RemoveKey k) (.V2K v (.ok k)) history

/-- What `NewV2KPool` is given: keys are hashable, and errors are of the type `error`. -/
structure HashableKeys (val2key : α → σ → Except α α × σ) : Prop where
  keys : ∀ val gen key gen', val2key val gen = (.ok key, gen') → GoValue.hashable key = true
  errors : ∀ val gen err gen', val2key val gen = (.error err, gen') → GoValue.isError err = true

/-- Look-ups answer what was stored, and a call runs to its end unless it removes a value of
another type by its key. -/
structure NonHashing (p : V2KPool α σ) (history : List (PoolEvent α)) : Prop where
  lookup : ∀ k v, GoValue.hashable k = true → StoredSince history k v →
    runAlone V2KPool.protocol p (V2KPool.GetVal k) = some (v, p)
  performs : ∀ request : PoolRequest α, request.Admitted history p →
    ((request.perform p).isSome = true ↔ request.RemovesHashable p)

/-! ### What a pool without the flag does -/

/-- The second map is empty, and the first one has what was stored. -/
structure Unhashed (val2key : α → σ → Except α α × σ) (p : V2KPool α σ)
    (history : List (PoolEvent α)) : Prop where
  drawsWith : p.val2key = val2key
  unhashed : p.valHashable = false
  vals : ∀ v, p.v2k v = none
  stored : ∀ k v, StoredSince history k v → p.k2v k = some v

variable {val2key : α → σ → Except α α × σ} {p : V2KPool α σ} {history : List (PoolEvent α)}
  {k v : α}

namespace Unhashed

omit [DecidableEq α] [GoValue α] in
theorem new (gen : σ) : Unhashed val2key (.new val2key false gen) [] :=
  ⟨rfl, rfl, fun _ => rfl, fun _ _ stored => absurd stored not_happenedSince_nil⟩

theorem val2Key_drawn (pool : Unhashed val2key p history) {gen : σ}
    (drawn : val2key v p.gen = (.ok k, gen)) (hashable : GoValue.hashable k = true) :
    p.val2Key v = .ok (k, { p with k2v := Function.update p.k2v k (some v), gen }) := by
  simp [V2KPool.val2Key, V2KPool.drawKey, pool.unhashed, pool.drawsWith, drawn, GoMap.assign,
    hashable, bind, Except.bind, pure, Except.pure]

theorem val2Key_failed (pool : Unhashed val2key p history) {err : α} {gen : σ}
    (failed : val2key v p.gen = (.error err, gen)) : p.val2Key v = .ok (err, { p with gen }) := by
  simp [V2KPool.val2Key, V2KPool.drawKey, pool.unhashed, pool.drawsWith, failed, pure, Except.pure]

omit [DecidableEq α] in
theorem getVal (hashable : GoValue.hashable k = true) :
    p.getVal k = .ok ((p.k2v k).getD GoValue.nil) := by
  simp only [V2KPool.getVal, GoMap.index, hashable, if_true, bind, Except.bind]
  cases p.k2v k <;> simp [pure, Except.pure]

theorem removeKey_absent (hashable : GoValue.hashable k = true) (absent : p.k2v k = none) :
    p.removeKey k = .ok p := by
  simp [V2KPool.removeKey, GoMap.index, hashable, absent, bind, Except.bind, pure, Except.pure]

theorem removeKey_found (pool : Unhashed val2key p history) (hashable : GoValue.hashable k = true)
    (found : p.k2v k = some v) (val : GoValue.hashable v = true) :
    p.removeKey k = .ok { p with k2v := Function.update p.k2v k none } := by
  simp [V2KPool.removeKey, GoMap.index, GoMap.delete, hashable, found, val, pool.vals, bind,
    Except.bind, pure, Except.pure]

/-- The look-up in the empty `v2k` is the panic. -/
theorem removeKey_panics (hashable : GoValue.hashable k = true) (found : p.k2v k = some v)
    (val : GoValue.hashable v = false) : p.removeKey k = .error .unhashable := by
  simp [V2KPool.removeKey, GoMap.index, GoMap.delete, hashable, found, val, bind, Except.bind]

theorem removeVal (pool : Unhashed val2key p history) : p.removeVal v = .ok p := by
  simp [V2KPool.removeVal, pool.unhashed, pure, Except.pure]

end Unhashed

theorem runAlone_RemoveKey_panics {panic : GoPanic} (served : p.removeKey k = .error panic) :
    runAlone V2KPool.protocol p (V2KPool.RemoveKey k) = none := by
  have halted : V2KPool.protocol.serve p ⟨.removeK, k⟩ = .halted := by
    simp only [V2KPool.protocol, V2KPool.bgLoop, served]
  change runAlone V2KPool.protocol p (.call ⟨.removeK, k⟩ _) = _
  simp only [runAlone, halted]

/-! ### The calls -/

theorem perform_V2K {res : α} {p' : V2KPool α σ} (served : p.val2Key v = .ok (res, p')) :
    (PoolRequest.V2K v).perform p =
      some (.V2K v (if GoValue.isError res then .error res else .ok res), p') := by
  simp [PoolRequest.perform, runAlone_V2K served]

theorem perform_GetVal (hashable : GoValue.hashable k = true) :
    (PoolRequest.GetVal k).perform p = some (.GetVal k ((p.k2v k).getD GoValue.nil), p) := by
  simp [PoolRequest.perform, runAlone_GetVal (Unhashed.getVal hashable)]

theorem perform_RemoveKey {p' : V2KPool α σ} (served : p.removeKey k = .ok p') :
    (PoolRequest.RemoveKey k).perform p = some (.RemoveKey k, p') := by
  simp [PoolRequest.perform, runAlone_RemoveKey served]

theorem perform_RemoveVal (pool : Unhashed val2key p history) :
    (PoolRequest.RemoveVal v).perform p = some (.RemoveVal v, p) := by
  simp [PoolRequest.perform, runAlone_RemoveVal pool.removeVal]

/-- Every call that may run keeps the invariant, and runs exactly when it removes nothing that is
not hashable. -/
theorem perform_cases (keys : HashableKeys val2key) (pool : Unhashed val2key p history)
    (request : PoolRequest α) (admitted : request.Admitted history p) :
    (request.RemovesHashable p ∧ ∃ event p', request.perform p = some (event, p') ∧
      Unhashed val2key p' (event :: history)) ∨
    (¬ request.RemovesHashable p ∧ request.perform p = none) := by
  cases request with
  | V2K v =>
    cases drawn : val2key v p.gen with
    | mk outcome gen =>
      cases outcome with
      | ok k =>
        have served := pool.val2Key_drawn drawn (keys.keys v p.gen k gen drawn)
        refine .inl ⟨trivial, _, _, perform_V2K served, ?_⟩
        refine ⟨pool.drawsWith, pool.unhashed, pool.vals, ?_⟩
        intro k' v' stored
        rcases happenedSince_cons.mp stored with newest | ⟨_, older⟩
        · -- what the call itself returned
          split at newest
          · cases newest
          · cases newest
            simp
        · -- an older key is not the one drawn now
          have other : k' ≠ k := by
            rintro rfl
            exact admitted k' gen (by rw [pool.drawsWith, drawn]) v' older.mem
          simpa [Function.update_of_ne other] using pool.stored k' v' older
      | error err =>
        have served := pool.val2Key_failed drawn
        refine .inl ⟨trivial, _, _, perform_V2K served, ?_⟩
        refine ⟨pool.drawsWith, pool.unhashed, pool.vals, ?_⟩
        intro k' v' stored
        rcases happenedSince_cons.mp stored with newest | ⟨_, older⟩
        · simp [keys.errors v p.gen err gen drawn] at newest
        · exact pool.stored k' v' older
  -- nothing that reads the pool changes what is stored
  | GetVal k =>
    refine .inl ⟨trivial, _, _, perform_GetVal admitted, ?_⟩
    refine ⟨pool.drawsWith, pool.unhashed, pool.vals, ?_⟩
    intro k' v' stored
    rcases happenedSince_cons.mp stored with newest | ⟨_, older⟩
    · simp at newest
    · exact pool.stored k' v' older
  | RemoveKey k =>
    have removed : ∀ k' v', StoredSince (.RemoveKey k :: history) k' v' →
        k' ≠ k ∧ p.k2v k' = some v' := by
      intro k' v' stored
      rcases happenedSince_cons.mp stored with newest | ⟨spared, older⟩
      · simp at newest
      · exact ⟨fun same => spared (by rw [same]), pool.stored k' v' older⟩
    cases found : p.k2v k with
    | none =>
      refine .inl ⟨?_, _, _, perform_RemoveKey (Unhashed.removeKey_absent admitted found),
        pool.drawsWith, pool.unhashed, pool.vals, fun k' v' stored => (removed k' v' stored).2⟩
      intro v present
      simp [found] at present
    | some v =>
      cases hashable : GoValue.hashable v with
      | true =>
        refine .inl ⟨?_, _, _, perform_RemoveKey (pool.removeKey_found admitted found hashable),
          pool.drawsWith, pool.unhashed, pool.vals, ?_⟩
        · intro v' present
          rw [found] at present
          rwa [← Option.some.inj present]
        · intro k' v' stored
          obtain ⟨other, older⟩ := removed k' v' stored
          simpa [Function.update_of_ne other] using older
      -- the value is looked up in the other map, which panics
      | false =>
        refine .inr ⟨?_, ?_⟩
        · intro all
          simp [all v found] at hashable
        · simp [PoolRequest.perform,
            runAlone_RemoveKey_panics (Unhashed.removeKey_panics admitted found hashable)]
  | RemoveVal v =>
    refine .inl ⟨trivial, _, _, perform_RemoveVal pool, ?_⟩
    refine ⟨pool.drawsWith, pool.unhashed, pool.vals, ?_⟩
    intro k' v' stored
    rcases happenedSince_cons.mp stored with newest | ⟨_, older⟩
    · simp at newest
    · exact pool.stored k' v' older

/-- No call of a process that removes only hashable values by key panics. -/
theorem unhashed_process (keys : HashableKeys val2key) {gen : σ} {state : Option (V2KPool α σ)}
    (run : PoolProcess (.new val2key false gen) (fun p request => request.RemovesHashable p)
      history state) : ∃ p, state = some p ∧ Unhashed val2key p history := by
  -- over the run: the invariant holds, so the next call is one of `perform_cases`
  induction run with
  | start => exact ⟨_, rfl, .new gen⟩
  | performed request _ admitted allows ran ih =>
    obtain ⟨p, same, pool⟩ := ih
    cases same
    rcases perform_cases keys pool request admitted with
      ⟨_, event, p', returned, pool'⟩ | ⟨refused, _⟩
    · rw [returned] at ran
      cases ran
      exact ⟨_, rfl, pool'⟩
    · exact absurd allows refused
  | panicked request _ admitted allows ran ih =>
    obtain ⟨p, same, pool⟩ := ih
    cases same
    rcases perform_cases keys pool request admitted with ⟨_, event, p', returned, _⟩ | ⟨refused, _⟩
    · simp [returned] at ran
    · exact absurd allows refused

theorem nonHashing_process (keys : HashableKeys val2key) (gen : σ) (history : List (PoolEvent α))
    (state : Option (V2KPool α σ))
    (run : PoolProcess (.new val2key false gen) (fun p request => request.RemovesHashable p)
      history state) : ∃ p, state = some p ∧ NonHashing p history := by
  obtain ⟨p, rfl, pool⟩ := unhashed_process keys run
  refine ⟨p, rfl, ?_, ?_⟩
  · intro k v hashable stored
    simp [runAlone_GetVal (Unhashed.getVal hashable), pool.stored k v stored]
  · intro request admitted
    rcases perform_cases keys pool request admitted with ⟨allows, event, p', returned, _⟩ |
      ⟨refused, panics⟩
    · simp [returned, allows]
    · simp [panics, refused]

/-! ### A slice in the pool -/

/-- An `interface{}` that holds an integer, a slice of integers or nothing. -/
inductive SliceOrInt where
  | nothing
  | int (n : Int)
  | slice (elems : List Int)
deriving DecidableEq

instance : GoValue SliceOrInt where
  nil := .nothing
  hashable
    | .slice _ => false
    | .nothing | .int _ => true
  isError _ := false

def slicePool : V2KPool SliceOrInt Int :=
  .new (fun _ next => (.ok (.int next), next + 1)) false 1

theorem slicePool_keys : HashableKeys slicePool.val2key := by
  constructor
  · rintro val gen key gen' drawn
    cases drawn
    rfl
  · rintro val gen err gen' failed
    cases failed

/-- A slice is stored, found and asked to be removed by value; an integer is removed by key. -/
theorem nonHashing_process_slice : ∃ p,
    PoolProcess slicePool (fun p request => request.RemovesHashable p)
      [.RemoveKey (.int 2), .RemoveVal (.slice [5]), .V2K (.int 6) (.ok (.int 2)),
        .V2K (.slice [5]) (.ok (.int 1))] (some p) ∧
    NonHashing p [.RemoveKey (.int 2), .RemoveVal (.slice [5]), .V2K (.int 6) (.ok (.int 2)),
      .V2K (.slice [5]) (.ok (.int 1))] := by
  have stored : PoolProcess slicePool (fun p request => request.RemovesHashable p)
      [.V2K (.slice [5]) (.ok (.int 1))] _ :=
    .performed (.V2K (.slice [5])) .start (by simp [PoolRequest.Admitted]) trivial rfl
  have both : PoolProcess slicePool (fun p request => request.RemovesHashable p)
      [.V2K (.int 6) (.ok (.int 2)), .V2K (.slice [5]) (.ok (.int 1))] _ :=
    .performed (.V2K (.int 6)) stored
      (by intro key gen drawn v; cases drawn; simp [slicePool, V2KPool.new]) trivial rfl
  have asked : PoolProcess slicePool (fun p request => request.RemovesHashable p)
      [.RemoveVal (.slice [5]), .V2K (.int 6) (.ok (.int 2)),
        .V2K (.slice [5]) (.ok (.int 1))] _ :=
    .performed (.RemoveVal (.slice [5])) both trivial trivial rfl
  have removed : PoolProcess slicePool (fun p request => request.RemovesHashable p)
      [.RemoveKey (.int 2), .RemoveVal (.slice [5]), .V2K (.int 6) (.ok (.int 2)),
        .V2K (.slice [5]) (.ok (.int 1))] _ :=
    .performed (.RemoveKey (.int 2)) asked rfl
      (by intro v found; cases found; rfl) rfl
  obtain ⟨p, same, pool⟩ := nonHashing_process slicePool_keys 1 _ _ removed
  cases same
  exact ⟨_, removed, pool⟩

/-- The slice is removed by its key. -/
theorem slice_removal_panics : PoolProcess slicePool (fun _ _ => True)
    [.V2K (.slice [5]) (.ok (.int 1))] none := by
  have stored : PoolProcess slicePool (fun _ _ => True) [.V2K (.slice [5]) (.ok (.int 1))] _ :=
    .performed (.V2K (.slice [5])) .start (by simp [PoolRequest.Admitted]) trivial rfl
  exact .panicked (.RemoveKey (.int 1)) stored rfl trivial rfl

end DukBridge
