import DukBridge.LoaderBinding

/-!
# Finalizers that run more than once

The pool belongs to all environments, so between two invocations of the finalizer for one
handle other modules come and go, and a reading may repeat the key of one of them.
-/
namespace DukBridge

open Rendezvous KeyStore MethodKeyGenerator

/-! ### Programs that run alone -/

variable {L S : Type} [DecidableEq L] [DecidableEq S] {clock : Nat → Int64}
  {p p' : V2KPool (PoolVal L S) Nat} {α β : Type}

/-- Nothing else uses the pool meanwhile, and whatever reading is next is drawn. -/
def Alone (p : V2KPool (PoolVal L S) Nat) (prog : KeyProg L S β) (b : β)
    (p' : V2KPool (PoolVal L S) Nat) : Prop :=
  RunsAlone V2KPool.protocol (fun _ _ => True) p prog.run (.ok b) p'

theorem alone_pure {a b : β} : Alone p (pure a : KeyProg L S β) b p' ↔ b = a ∧ p' = p :=
  keyProg_pure

theorem alone_bind {x : KeyProg L S α} {f : α → KeyProg L S β} {b : β} :
    Alone p (x >>= f) b p' ↔ ∃ a q, Alone p x a q ∧ Alone q (f a) b p' :=
  keyProg_bind

theorem alone_assertInt64 {out : Except (PoolVal L S) (PoolVal L S)} {key : Int64}
    (ran : Alone p (liftM (assertInt64 out) : KeyProg L S Int64) key p') :
    out = .ok (.int64 key) ∧ p' = p := keyProg_assertInt64 ran

/-- The next reading becomes the key of `val`. -/
def V2KPool.drawn (clock : Nat → Int64) (val : PoolVal L S) (p : V2KPool (PoolVal L S) Nat) :
    V2KPool (PoolVal L S) Nat :=
  { p with
    k2v := Function.update p.k2v (.int64 (clock p.gen)) (some val)
    gen := p.gen + 1 }

/-- The entries under these keys are gone. -/
def V2KPool.without (keys : List Int64) (p : V2KPool (PoolVal L S) Nat) :
    V2KPool (PoolVal L S) Nat :=
  { p with k2v := fun k => if k ∈ keys.map .int64 then none else p.k2v k }

theorem alone_V2K (sound : KeyPool.Sound clock ⟨p, []⟩) {val : PoolVal L S}
    {out : Except (PoolVal L S) (PoolVal L S)} (ran : Alone p (V2K val) out p') :
    out = .ok (.int64 (clock p.gen)) ∧ p' = p.drawn clock val := (keyProg_V2K sound ran).2

theorem alone_GetVal {key : Int64} {v : PoolVal L S} (ran : Alone p (GetVal key) v p') :
    v = (p.k2v (.int64 key)).getD .nil ∧ p' = p := keyProg_GetVal ran

theorem alone_RemoveKey (sound : KeyPool.Sound clock ⟨p, []⟩) {key : Int64} {u : Unit}
    (ran : Alone p (RemoveKey key : KeyProg L S Unit) u p') : p' = p.without [key] := by
  rw [keyProg_RemoveKey sound ran]
  simp only [V2KPool.without, List.map_cons, List.map_nil, List.mem_singleton]
  congr
  funext k
  by_cases same : k = .int64 key <;> simp [same]

/-! ### What the functions do to any pool -/

section Pools

theorem sound_drawn (sound : KeyPool.Sound clock ⟨p, []⟩) (val : PoolVal L S) :
    KeyPool.Sound clock ⟨p.drawn clock val, []⟩ :=
  ⟨sound.generator, sound.unhashed, sound.noVals, .empty _⟩

theorem drawn_k2v_self (val : PoolVal L S) (p : V2KPool (PoolVal L S) Nat) :
    (p.drawn clock val).k2v (.int64 (clock p.gen)) = some val :=
  Function.update_self ..

theorem drawn_k2v_of_ne {key : Int64} (other : key ≠ clock p.gen) (val : PoolVal L S) :
    (p.drawn clock val).k2v (.int64 key) = p.k2v (.int64 key) :=
  Function.update_of_ne (by simpa using other) ..

theorem sound_without (sound : KeyPool.Sound clock ⟨p, []⟩) (keys : List Int64) :
    KeyPool.Sound clock ⟨p.without keys, []⟩ :=
  ⟨sound.generator, sound.unhashed, sound.noVals, .empty _⟩

theorem without_k2v (keys : List Int64) (p : V2KPool (PoolVal L S) Nat) (key : Int64) :
    (p.without keys).k2v (.int64 key) = if key ∈ keys then none else p.k2v (.int64 key) := by
  simp [V2KPool.without]

theorem without_append (a b : List Int64) (p : V2KPool (PoolVal L S) Nat) :
    (p.without a).without b = p.without (a ++ b) := by
  simp only [V2KPool.without, List.map_append, List.mem_append]
  congr
  funext k
  by_cases first : k ∈ a.map .int64 <;> by_cases second : k ∈ b.map .int64 <;>
    simp [first, second]

theorem without_nil (p : V2KPool (PoolVal L S) Nat) : p.without [] = p := by
  simp [V2KPool.without]

/-- A reading drawn on the way from `p` to `p'`. -/
def DrawnBetween (clock : Nat → Int64) (p p' : V2KPool (PoolVal L S) Nat) (key : Int64) : Prop :=
  ∃ n, p.gen ≤ n ∧ n < p'.gen ∧ key = clock n

/-- Keys were drawn, and none of them for a module. -/
structure Grown (clock : Nat → Int64) (p p' : V2KPool (PoolVal L S) Nat) : Prop where
  sound : KeyPool.Sound clock ⟨p', []⟩
  reads : p.gen ≤ p'.gen
  entries : ∀ key, p'.k2v (.int64 key) = p.k2v (.int64 key) ∨ DrawnBetween clock p p' key
  records : ∀ key info, p'.k2v (.int64 key) = some (.goModuleInfo info) →
    p.k2v (.int64 key) = some (.goModuleInfo info)

omit [DecidableEq L] [DecidableEq S] in
theorem grown_refl (sound : KeyPool.Sound clock ⟨p, []⟩) : Grown clock p p :=
  ⟨sound, Nat.le_refl _, fun _ => .inl rfl, fun _ _ stored => stored⟩

theorem grown_drawn (sound : KeyPool.Sound clock ⟨p, []⟩) {val : PoolVal L S}
    (noModule : ∀ info, val ≠ .goModuleInfo info) : Grown clock p (p.drawn clock val) := by
  refine ⟨sound_drawn sound val, Nat.le_succ _, ?_, ?_⟩
  · intro key
    by_cases same : key = clock p.gen
    · exact .inr ⟨p.gen, Nat.le_refl _, Nat.lt_succ_self _, same⟩
    · exact .inl (drawn_k2v_of_ne same val)
  · intro key info stored
    by_cases same : key = clock p.gen
    · rw [same, drawn_k2v_self, Option.some.injEq] at stored
      exact absurd stored (noModule info)
    · rwa [drawn_k2v_of_ne same] at stored

omit [DecidableEq L] [DecidableEq S] in
theorem DrawnBetween.mono {q q' : V2KPool (PoolVal L S) Nat} {key : Int64}
    (drawn : DrawnBetween clock p p' key) (before : q.gen ≤ p.gen) (after : p'.gen ≤ q'.gen) :
    DrawnBetween clock q q' key := by
  obtain ⟨n, low, high, rfl⟩ := drawn
  exact ⟨n, by omega, by omega, rfl⟩

omit [DecidableEq L] [DecidableEq S] in
theorem Grown.trans {q : V2KPool (PoolVal L S) Nat} (first : Grown clock p q)
    (second : Grown clock q p') : Grown clock p p' := by
  refine ⟨second.sound, first.reads.trans second.reads, ?_, ?_⟩
  · intro key
    rcases second.entries key with same | drawn
    · rw [same]
      exact (first.entries key).imp_right fun drawn => drawn.mono (Nat.le_refl _) second.reads
    · exact .inr (drawn.mono first.reads (Nat.le_refl _))
  · intro key info stored
    exact first.records key info (second.records key info stored)

end Pools

theorem alone_methodKeysFrom {structP : S} {i n : Nat} {keys : List Int64}
    (sound : KeyPool.Sound clock ⟨p, []⟩)
    (ran : Alone p (methodKeysFrom structP i n : KeyProg L S (List Int64)) keys p') :
    keys.length = n ∧ Grown clock p p' ∧ ∀ key ∈ keys, DrawnBetween clock p p' key := by
  induction n generalizing i keys p with
  | zero =>
    obtain ⟨rfl, rfl⟩ := alone_pure.mp ran
    exact ⟨rfl, grown_refl sound, by simp⟩
  | succ n ih =>
    obtain ⟨out, q, stored, ran⟩ := alone_bind.mp ran
    obtain ⟨rfl, rfl⟩ := alone_V2K sound stored
    obtain ⟨key, r, asserted, ran⟩ := alone_bind.mp ran
    obtain ⟨same, rfl⟩ := alone_assertInt64 asserted
    cases same
    obtain ⟨rest, q', others, ran⟩ := alone_bind.mp ran
    obtain ⟨rfl, rfl⟩ := alone_pure.mp ran
    have grown : Grown clock p (p.drawn clock (.reflectValue structP i)) :=
      grown_drawn sound fun _ other => by cases other
    obtain ⟨count, more, drawn⟩ := ih grown.sound others
    refine ⟨by simp [count], grown.trans more, ?_⟩
    intro key member
    rcases List.mem_cons.mp member with rfl | later
    · exact ⟨p.gen, Nat.le_refl _, more.reads, rfl⟩
    · exact (drawn key later).mono grown.reads (Nat.le_refl _)

/-- The record of the module is stored last. -/
theorem alone_createMethodKeys [GoStructs S] {structPtr structP : S} {modKey : Int64}
    {methodKeys : List Int64} (sound : KeyPool.Sound clock ⟨p, []⟩)
    (ran : Alone p (createMethodKeys structPtr structP : KeyProg L S _)
      (modKey, methodKeys) p') :
    ∃ q, Grown clock p q ∧ (∀ key ∈ methodKeys, DrawnBetween clock p q key) ∧
      methodKeys.length = GoStructs.numMethod structP ∧ modKey = clock q.gen ∧
      p' = q.drawn clock
        (.goModuleInfo ⟨structPtr, structP, GoStructs.numMethod structP, methodKeys⟩) := by
  obtain ⟨keys, q, methods, ran⟩ := alone_bind.mp ran
  obtain ⟨count, grown, drawn⟩ := alone_methodKeysFrom sound methods
  obtain ⟨out, q', stored, ran⟩ := alone_bind.mp ran
  obtain ⟨rfl, rfl⟩ := alone_V2K grown.sound stored
  obtain ⟨key, r, asserted, ran⟩ := alone_bind.mp ran
  obtain ⟨same, rfl⟩ := alone_assertInt64 asserted
  cases same
  obtain ⟨same, rfl⟩ := alone_pure.mp ran
  cases same
  exact ⟨q, grown, drawn, count, rfl, rfl⟩

theorem alone_saveModuleLoader {loader : L} {env : Word} {key : Int64}
    (sound : KeyPool.Sound clock ⟨p, []⟩)
    (ran : Alone p (saveModuleLoader loader env : KeyProg L S Int64) key p') :
    Grown clock p p' := by
  obtain ⟨out, q, stored, asserted⟩ := alone_bind.mp ran
  obtain ⟨rfl, rfl⟩ := alone_V2K sound stored
  obtain ⟨_, rfl⟩ := alone_assertInt64 asserted
  refine grown_drawn sound ?_
  intro info other
  cases other

theorem alone_removeMethodKeys {before keys : List Int64} {u : Unit}
    (sound : KeyPool.Sound clock ⟨p, []⟩)
    (ran : Alone p (removeMethodKeys (before ++ keys) before.length keys.length : KeyProg L S Unit)
      u p') : p' = p.without keys := by
  induction keys generalizing before p with
  | nil =>
    obtain ⟨_, rfl⟩ := alone_pure.mp ran
    exact (without_nil _).symm
  | cons key rest ih =>
    simp only [List.length_cons, removeMethodKeys, List.getElem?_append_right (Nat.le_refl _),
      Nat.sub_self, List.getElem?_cons_zero] at ran
    obtain ⟨_, q, removed, ran⟩ := alone_bind.mp ran
    -- the key that is gone joins those before
    rw [← List.singleton_append, ← List.append_assoc] at ran
    rw [← List.length_singleton, ← List.length_append] at ran
    obtain rfl := alone_RemoveKey sound removed
    rw [ih (sound_without sound [key]) ran, without_append]
    rfl

/-! ### The finalizer -/

/-- The record under a key, if it is one of a module. -/
def V2KPool.moduleAt (p : V2KPool (PoolVal L S) Nat) (key : Int64) : Option (GoModuleInfo S) :=
  match p.k2v (.int64 key) with
  | some (.goModuleInfo info) => some info
  | _ => none

def V2KPool.loaderAt (p : V2KPool (PoolVal L S) Nat) (key : Int64) : Option (L × Word) :=
  match p.k2v (.int64 key) with
  | some (.moduleLoaderEnv le) => some (le.loader, le.env)
  | _ => none

omit [DecidableEq L] [DecidableEq S] in
theorem moduleAt_eq_some {key : Int64} {info : GoModuleInfo S} :
    p.moduleAt key = some info ↔ p.k2v (.int64 key) = some (.goModuleInfo info) := by
  unfold V2KPool.moduleAt
  split <;> simp_all

theorem moduleAt_without (keys : List Int64) (p : V2KPool (PoolVal L S) Nat) (key : Int64) :
    (p.without keys).moduleAt key = if key ∈ keys then none else p.moduleAt key := by
  unfold V2KPool.moduleAt
  rw [without_k2v]
  by_cases own : key ∈ keys <;> simp [own]

theorem alone_getModInfo {modKey : Int64} {out : Option (GoModuleInfo S)}
    (ran : Alone p (getModInfo modKey : KeyProg L S _) out p') :
    out = p.moduleAt modKey ∧ p' = p := by
  obtain ⟨v, q, got, ran⟩ := alone_bind.mp ran
  obtain ⟨rfl, rfl⟩ := alone_GetVal got
  unfold V2KPool.moduleAt
  cases stored : q.k2v (.int64 modKey) with
  | none =>
    rw [stored] at ran
    exact alone_pure.mp ran
  | some v =>
    rw [stored] at ran
    cases v <;> exact alone_pure.mp ran

theorem alone_getModuleLoader {loaderKey : Int64} {out : Except String (L × Word)}
    (ran : Alone p (getModuleLoader loaderKey : KeyProg L S _) out p') :
    out.toOption = p.loaderAt loaderKey ∧ p' = p := by
  obtain ⟨v, q, got, ran⟩ := alone_bind.mp ran
  obtain ⟨rfl, rfl⟩ := alone_GetVal got
  unfold V2KPool.loaderAt
  cases stored : q.k2v (.int64 loaderKey) with
  | none =>
    rw [stored] at ran
    obtain ⟨rfl, rfl⟩ := alone_pure.mp ran
    exact ⟨rfl, rfl⟩
  | some v =>
    rw [stored] at ran
    cases v <;> (obtain ⟨rfl, rfl⟩ := alone_pure.mp ran; exact ⟨rfl, rfl⟩)

theorem alone_removeModule_found {modKey : Int64} {info : GoModuleInfo S} {u : Unit}
    (sound : KeyPool.Sound clock ⟨p, []⟩) (counted : info.methodKeys.length = info.nMethods)
    (found : p.moduleAt modKey = some info)
    (ran : Alone p (removeModule modKey : KeyProg L S Unit) u p') :
    p' = p.without (modKey :: info.methodKeys) := by
  obtain ⟨v, q, got, ran⟩ := alone_bind.mp ran
  obtain ⟨rfl, rfl⟩ := alone_GetVal got
  rw [moduleAt_eq_some.mp found] at ran
  obtain ⟨_, q', removed, ran⟩ := alone_bind.mp ran
  obtain rfl := alone_RemoveKey sound removed
  rw [← counted] at ran
  have ran : Alone (q.without [modKey]) (removeMethodKeys ([] ++ info.methodKeys)
      ([] : List Int64).length info.methodKeys.length : KeyProg L S Unit) u p' := ran
  rw [alone_removeMethodKeys (sound_without sound _) ran, without_append]
  rfl

theorem alone_removeModule_missing {modKey : Int64} {u : Unit} (missing : p.moduleAt modKey = none)
    (ran : Alone p (removeModule modKey : KeyProg L S Unit) u p') : p' = p := by
  obtain ⟨v, q, got, ran⟩ := alone_bind.mp ran
  obtain ⟨rfl, rfl⟩ := alone_GetVal got
  unfold V2KPool.moduleAt at missing
  cases stored : q.k2v (.int64 modKey) with
  | none =>
    rw [stored] at ran
    exact (alone_pure.mp ran).2
  | some v =>
    rw [stored] at ran missing
    cases v with
    | goModuleInfo info => cases missing
    | _ => exact (alone_pure.mp ran).2

/-- With the record there, the loader is called if it is found. -/
theorem alone_goFinalizeModule_found {udd modHandle : Word} {modName : Bytes}
    {info : GoModuleInfo S} {call : FinalizeCall L S} (sound : KeyPool.Sound clock ⟨p, []⟩)
    (counted : info.methodKeys.length = info.nMethods)
    (found : p.moduleAt modHandle.toInt64 = some info)
    (ran : Alone p (goFinalizeModule udd modName modHandle) call p') :
    call = ((p.loaderAt udd.toInt64).elim .notCalled fun le =>
        .finalizeModule le.1 modName info.structPtr) ∧
      p' = p.without (modHandle.toInt64 :: info.methodKeys) := by
  obtain ⟨modInfo, q, got, asking⟩ := alone_bind.mp ran
  obtain ⟨rfl, rfl⟩ := alone_getModInfo got
  obtain ⟨out, q', asked, removing⟩ := alone_bind.mp asking
  obtain ⟨loader, rfl⟩ := alone_getModuleLoader asked
  rw [found] at removing
  rw [← loader]
  cases out with
  | ok le =>
    obtain ⟨_, r, removed, ended⟩ := alone_bind.mp removing
    obtain ⟨rfl, rfl⟩ := alone_pure.mp ended
    exact ⟨rfl, alone_removeModule_found sound counted found removed⟩
  | error text =>
    obtain ⟨_, r, removed, ended⟩ := alone_bind.mp removing
    obtain ⟨rfl, rfl⟩ := alone_pure.mp ended
    exact ⟨rfl, alone_removeModule_found sound counted found removed⟩

/-- Without it, the loader decides between nothing and the end of the process. -/
theorem alone_goFinalizeModule_missing {udd modHandle : Word} {modName : Bytes}
    {call : FinalizeCall L S} (missing : p.moduleAt modHandle.toInt64 = none)
    (ran : Alone p (goFinalizeModule udd modName modHandle) call p') :
    call = ((p.loaderAt udd.toInt64).elim .notCalled fun _ => .nilDereference) ∧ p' = p := by
  obtain ⟨modInfo, q, got, asking⟩ := alone_bind.mp ran
  obtain ⟨rfl, rfl⟩ := alone_getModInfo got
  obtain ⟨out, q', asked, removing⟩ := alone_bind.mp asking
  obtain ⟨loader, rfl⟩ := alone_getModuleLoader asked
  rw [missing] at removing
  rw [← loader]
  cases out with
  | ok le =>
    obtain ⟨rfl, rfl⟩ := alone_pure.mp removing
    exact ⟨rfl, rfl⟩
  | error text =>
    obtain ⟨_, r, removed, ended⟩ := alone_bind.mp removing
    obtain ⟨rfl, rfl⟩ := alone_pure.mp ended
    exact ⟨rfl, alone_removeModule_missing missing removed⟩

theorem nilDereference_iff {udd modHandle : Word} {modName : Bytes} {call : FinalizeCall L S}
    (sound : KeyPool.Sound clock ⟨p, []⟩)
    (counted : ∀ info, p.moduleAt modHandle.toInt64 = some info →
      info.methodKeys.length = info.nMethods)
    (ran : Alone p (goFinalizeModule udd modName modHandle) call p') :
    call = .nilDereference ↔
      p.moduleAt modHandle.toInt64 = none ∧ (p.loaderAt udd.toInt64).isSome := by
  cases found : p.moduleAt modHandle.toInt64 with
  | some info =>
    obtain ⟨rfl, _⟩ := alone_goFinalizeModule_found sound (counted info found) found ran
    cases p.loaderAt udd.toInt64 <;> simp
  | none =>
    obtain ⟨rfl, _⟩ := alone_goFinalizeModule_missing found ran
    cases p.loaderAt udd.toInt64 <;> simp

/-! ### Loading a module -/

/-- What `LoadModule` returned, as `reflect` sees it. -/
inductive LoadedModule (S : Type) where
  | nil
  | struct (s : S)
  | structPtr (s : S)
  /-- A pointer to anything else, or a nil pointer. -/
  | otherPtr
  | other

def goLoadModule [GoStructs S] (loadModule : L → Bytes → Bytes → LoadedModule S) (udd : Word)
    (modHome modName : Bytes) : KeyProg L S Word := do
  match ← getModuleLoader udd.toInt64 with
  | .error _ => return 0
  | .ok (loader, _) =>
    match loadModule loader modHome modName with
    | .nil | .otherPtr | .other => return 0
    | .struct s | .structPtr s => do
      let (modKey, _) ← createMethodKeys s s
      return modKey.toUInt64

/-! ### Runs -/

def Exposed.keys (x : Exposed S) : List Int64 := x.modKey :: x.info.methodKeys

def FinalizeCall.isFinalizeModule : FinalizeCall L S → Bool
  | .finalizeModule .. => true
  | _ => false

/-- The modules made so far, the oldest first; what every invocation of a finalizer did, with the
number of the module it was for. -/
structure Finalizing (L S : Type) where
  pool : V2KPool (PoolVal L S) Nat
  modules : List (Exposed S)
  calls : List (Nat × FinalizeCall L S)

namespace Finalizing

def init (clock : Nat → Int64) : Finalizing L S := ⟨methodKeyGenerator clock, [], []⟩

def invoked (st : Finalizing L S) : List Nat := st.calls.map Prod.fst

/-- The modules that a `FinalizeModule` was called for, in the order of the calls. -/
def finalized (st : Finalizing L S) : List Nat :=
  (st.calls.filter fun c => c.2.isFinalizeModule).map Prod.fst

/-- Module `i` is `x`, and no later one was given the same key. -/
def Latest (st : Finalizing L S) (i : Nat) (x : Exposed S) : Prop :=
  st.modules[i]? = some x ∧ ∀ j y, i < j → st.modules[j]? = some y → y.modKey ≠ x.modKey

/-- What else the pool is used for. -/
inductive Other [GoStructs S] : Finalizing L S → Finalizing L S → Prop where
  /-- By `go_loadModule`, or for a struct that is handed to a script. -/
  | createMethodKeys {st pool} (x : Exposed S)
      (methods : x.info.nMethods = GoStructs.numMethod x.info.structP)
      (ran : Alone st.pool
        (createMethodKeys x.info.structPtr x.info.structP : KeyProg L S (Int64 × List Int64))
        (x.modKey, x.info.methodKeys) pool) :
      Other st { st with pool, modules := st.modules ++ [x] }
  | saveModuleLoader {st pool} (loader : L) (env : Word) (key : Int64)
      (ran : Alone st.pool (saveModuleLoader loader env : KeyProg L S Int64) key pool) :
      Other st { st with pool }
  | removeModuleLoader {st pool} (loaderKey : Int64)
      (ran : Alone st.pool (removeModuleLoader loaderKey : KeyProg L S Unit) () pool) :
      Other st { st with pool }

/-- `go_finalizeModule` on the handle of module `i`, which is `x`. -/
inductive Invokes (st : Finalizing L S) (i : Nat) (x : Exposed S) (udd : Word) :
    Finalizing L S → Prop where
  | intro {pool call} (modName : Bytes) (modHandle : Word) (made : st.modules[i]? = some x)
      (handle : modHandle.toInt64 = x.modKey)
      (ran : Alone st.pool (goFinalizeModule udd modName modHandle : KeyProg L S _) call pool) :
      Invokes st i x udd { st with pool, calls := st.calls ++ [(i, call)] }

/-- Runs from the start of the program whose invocations are admitted. -/
inductive Run [GoStructs S] (clock : Nat → Int64)
    (admits : Finalizing L S → Nat → Exposed S → Word → Prop) : Finalizing L S → Prop where
  | start : Run clock admits (init clock)
  | other {st st'} (run : Run clock admits st) (step : Other st st') : Run clock admits st'
  | invoke {st st' x} (i : Nat) (udd : Word) (run : Run clock admits st)
      (admitted : admits st i x udd) (step : Invokes st i x udd st') : Run clock admits st'

/-- The record found under the handle is the module's own; or the finalizer has run for it before,
and there is neither a record under the handle nor a loader. -/
def FindsOwn (st : Finalizing L S) (i : Nat) (x : Exposed S) (udd : Word) : Prop :=
  (st.Latest i x ∧ (st.pool.moduleAt x.modKey).isSome) ∨
    (i ∈ st.invoked ∧ st.pool.moduleAt x.modKey = none ∧ st.pool.loaderAt udd.toInt64 = none)

/-- While no reading repeats another, what an invocation removed stays away. -/
structure FinalizesOnce (clock : Nat → Int64) (st : Finalizing L S) : Prop where
  defined : ∀ c ∈ st.calls, c.2 ≠ .nilDereference
  once : st.finalized.Nodup
  gone : (∀ m n, m < n → n < st.pool.gen → clock m ≠ clock n) →
    ∀ i ∈ st.invoked, ∀ x, st.modules[i]? = some x →
      ∀ key ∈ x.keys, st.pool.k2v (.int64 key) = none

/-- What one invocation did to the pool. -/
structure Released (st st' : Finalizing L S) (i : Nat) (x : Exposed S) : Prop where
  gone : i ∉ st.invoked → ∀ key ∈ x.keys, st'.pool.k2v (.int64 key) = none
  others : ∀ key, key ∉ x.keys → st'.pool.k2v (.int64 key) = st.pool.k2v (.int64 key)
  again : i ∈ st.invoked → st'.pool = st.pool

/-! ### The invariant -/

structure Inv (clock : Nat → Int64) (st : Finalizing L S) : Prop where
  sound : KeyPool.Sound clock ⟨st.pool, []⟩
  drawn : ∀ x ∈ st.modules, ∀ key ∈ x.keys, ∃ n < st.pool.gen, key = clock n
  records : ∀ key info, st.pool.moduleAt key = some info →
    ∃ i x, st.Latest i x ∧ x.modKey = key ∧ x.info = info
  made : ∀ i ∈ st.invoked, i < st.modules.length
  spent : ∀ i ∈ st.invoked, ∀ x, st.Latest i x → st.pool.moduleAt x.modKey = none
  property : st.FinalizesOnce clock

variable {st st' : Finalizing L S} {i j : Nat} {x y : Exposed S} {udd : Word}

omit [DecidableEq L] [DecidableEq S] in
theorem Latest.unique (first : st.Latest i x) (second : st.Latest j y)
    (same : x.modKey = y.modKey) : i = j := by
  rcases Nat.lt_trichotomy i j with lt | eq | gt
  · exact absurd same.symm (first.2 j y lt second.1)
  · exact eq
  · exact absurd same (second.2 i x gt first.1)

omit [DecidableEq L] [DecidableEq S] in
theorem Latest.append (latest : st.Latest i y) (other : x.modKey ≠ y.modKey)
    {pool : V2KPool (PoolVal L S) Nat} :
    Latest { st with pool, modules := st.modules ++ [x] } i y := by
  have within := (List.getElem?_eq_some_iff.mp latest.1).1
  refine ⟨(List.getElem?_append_left within).trans latest.1, ?_⟩
  intro j z later made
  by_cases old : j < st.modules.length
  · rw [List.getElem?_append_left old] at made
    exact latest.2 j z later made
  · rw [List.getElem?_append_right (Nat.le_of_not_lt old), List.getElem?_singleton] at made
    split at made
    · cases made
      exact other
    · cases made

omit [DecidableEq L] [DecidableEq S] in
theorem Latest.of_append {pool : V2KPool (PoolVal L S) Nat}
    (latest : Latest { st with pool, modules := st.modules ++ [x] } i y)
    (within : i < st.modules.length) : st.Latest i y ∧ x.modKey ≠ y.modKey := by
  have older : ∀ {j}, j < st.modules.length → (st.modules ++ [x])[j]? = st.modules[j]? :=
    List.getElem?_append_left
  refine ⟨⟨older within ▸ latest.1, ?_⟩, latest.2 _ x within List.getElem?_concat_length⟩
  intro j z later made
  exact latest.2 j z later ((older (List.getElem?_eq_some_iff.mp made).1).trans made)

omit [DecidableEq L] [DecidableEq S] in
theorem inv_init : (init clock : Finalizing L S).Inv clock where
  sound := sound_init clock
  drawn _ member := by cases member
  records _ _ stored := by cases stored
  made _ member := by cases member
  spent _ member := by cases member
  property :=
    { defined := fun _ member => by cases member
      once := List.nodup_nil
      gone := fun _ _ member => by cases member }

omit [DecidableEq L] [DecidableEq S] in
theorem inv_grown {pool : V2KPool (PoolVal L S) Nat} (inv : st.Inv clock)
    (grown : Grown clock st.pool pool) : Inv clock { st with pool } where
  sound := grown.sound
  drawn x member key own := by
    obtain ⟨n, before, rfl⟩ := inv.drawn x member key own
    exact ⟨n, Nat.lt_of_lt_of_le before grown.reads, rfl⟩
  records key info stored := by
    rw [moduleAt_eq_some] at stored
    exact inv.records key info (moduleAt_eq_some.mpr (grown.records key info stored))
  made := inv.made
  spent i member x latest := by
    rw [Option.eq_none_iff_forall_ne_some]
    intro info stored
    have old := moduleAt_eq_some.mpr (grown.records _ _ (moduleAt_eq_some.mp stored))
    rw [inv.spent i member x latest] at old
    cases old
  property := by
    refine ⟨inv.property.defined, inv.property.once, ?_⟩
    intro distinct i member x made key own
    have was := inv.property.gone
      (fun m n lt before => distinct m n lt (Nat.lt_of_lt_of_le before grown.reads))
      i member x made key own
    rcases grown.entries key with same | ⟨m, low, high, again⟩
    · exact same.trans was
    · -- the key is an earlier reading, and no reading repeats it
      obtain ⟨n, before, rfl⟩ := inv.drawn x (List.mem_of_getElem? made) key own
      exact absurd again (distinct n m (Nat.lt_of_lt_of_le before low) high)

/-- The record of a new module is stored. -/
theorem inv_record (inv : st.Inv clock) (own : x.modKey = clock st.pool.gen)
    (methods : ∀ key ∈ x.info.methodKeys, ∃ n < st.pool.gen, key = clock n) :
    Inv clock { st with
      pool := st.pool.drawn clock (.goModuleInfo x.info)
      modules := st.modules ++ [x] } where
  sound := sound_drawn inv.sound _
  drawn y member key owned := by
    rcases List.mem_append.mp member with older | new
    · obtain ⟨n, before, rfl⟩ := inv.drawn y older key owned
      exact ⟨n, Nat.lt_succ_of_lt before, rfl⟩
    · obtain rfl := List.mem_singleton.mp new
      rcases List.mem_cons.mp owned with rfl | method
      · exact ⟨_, Nat.lt_succ_self _, own⟩
      · obtain ⟨n, before, rfl⟩ := methods key method
        exact ⟨n, Nat.lt_succ_of_lt before, rfl⟩
  records key info stored := by
    rw [moduleAt_eq_some] at stored
    -- the record under the new key is that of the new module
    by_cases same : key = clock st.pool.gen
    · rw [same, drawn_k2v_self] at stored
      cases stored
      refine ⟨st.modules.length, x, ⟨List.getElem?_concat_length, ?_⟩, own.trans same.symm, rfl⟩
      intro j y later made
      have within := (List.getElem?_eq_some_iff.mp made).1
      simp only [List.length_append, List.length_singleton] at within
      omega
    · rw [drawn_k2v_of_ne same] at stored
      obtain ⟨i, y, latest, rfl, rfl⟩ := inv.records key info (moduleAt_eq_some.mpr stored)
      exact ⟨i, y, latest.append (own ▸ Ne.symm same), rfl, rfl⟩
  made i member := by
    rw [List.length_append]
    exact Nat.lt_add_right _ (inv.made i member)
  spent i member y latest := by
    obtain ⟨old, apart⟩ := latest.of_append (inv.made i member)
    have same : y.modKey ≠ clock st.pool.gen := own ▸ apart.symm
    have kept := inv.spent i member y old
    unfold V2KPool.moduleAt at kept ⊢
    rwa [drawn_k2v_of_ne same]
  property := by
    refine ⟨inv.property.defined, inv.property.once, ?_⟩
    -- the keys of a finalized module were read before the new one
    intro distinct i member y made key owned
    rw [List.getElem?_append_left (inv.made i member)] at made
    obtain ⟨n, before, rfl⟩ := inv.drawn y (List.mem_of_getElem? made) key owned
    have other : clock n ≠ clock st.pool.gen := distinct n _ before (Nat.lt_succ_self _)
    rw [drawn_k2v_of_ne other]
    exact inv.property.gone (fun m n lt within => distinct m n lt (Nat.lt_succ_of_lt within))
      i member y made _ owned

theorem inv_without (inv : st.Inv clock) (keys : List Int64) :
    Inv clock { st with pool := st.pool.without keys } where
  sound := sound_without inv.sound keys
  drawn := inv.drawn
  records key info stored := by
    rw [moduleAt_without] at stored
    split at stored
    · cases stored
    · exact inv.records key info stored
  made := inv.made
  spent i member x latest := by
    rw [moduleAt_without, inv.spent i member x latest, ite_self]
  property := by
    refine ⟨inv.property.defined, inv.property.once, ?_⟩
    intro distinct i member x made key own
    rw [without_k2v, inv.property.gone distinct i member x made key own, ite_self]

theorem inv_other [GoStructs S] (inv : st.Inv clock) (step : st.Other st') : st'.Inv clock := by
  cases step with
  | createMethodKeys x methods ran =>
    obtain ⟨q, grown, drawn, _, own, rfl⟩ := alone_createMethodKeys inv.sound ran
    have info : (⟨x.info.structPtr, x.info.structP, GoStructs.numMethod x.info.structP,
        x.info.methodKeys⟩ : GoModuleInfo S) = x.info := by
      rw [← methods]
    rw [info]
    refine inv_record (inv_grown inv grown) own ?_
    intro key member
    obtain ⟨n, _, before, rfl⟩ := drawn key member
    exact ⟨n, before, rfl⟩
  | saveModuleLoader loader env key ran => exact inv_grown inv (alone_saveModuleLoader inv.sound ran)
  | removeModuleLoader loaderKey ran =>
    obtain rfl := alone_RemoveKey inv.sound ran
    exact inv_without inv _

/-! ### Invocations -/

omit [DecidableEq L] [DecidableEq S] in
/-- The record of the latest module with its key is its own, and no finalizer has run for it. -/
theorem own_record (inv : st.Inv clock) (latest : st.Latest i x)
    (present : (st.pool.moduleAt x.modKey).isSome) :
    st.pool.moduleAt x.modKey = some x.info ∧ i ∉ st.invoked := by
  constructor
  · obtain ⟨info, stored⟩ := Option.isSome_iff_exists.mp present
    obtain ⟨j, y, other, same, rfl⟩ := inv.records _ _ stored
    obtain rfl := other.unique latest same
    obtain rfl : y = x := Option.some.inj (other.1.symm.trans latest.1)
    exact stored
  · intro member
    rw [inv.spent i member x latest] at present
    cases present

omit [DecidableEq L] [DecidableEq S] in
theorem inv_call (inv : st.Inv clock) (call : FinalizeCall L S) (made : st.modules[i]? = some x)
    (defined : call ≠ .nilDereference) (first : call.isFinalizeModule → i ∉ st.invoked)
    (spent : st.pool.moduleAt x.modKey = none)
    (gone : (∀ m n, m < n → n < st.pool.gen → clock m ≠ clock n) →
      ∀ key ∈ x.keys, st.pool.k2v (.int64 key) = none) :
    Inv clock { st with calls := st.calls ++ [(i, call)] } := by
  have asked : ∀ j, j ∈ invoked { st with calls := st.calls ++ [(i, call)] } ↔
      j ∈ st.invoked ∨ j = i := by
    simp [invoked]
  refine ⟨inv.sound, inv.drawn, inv.records, ?_, ?_, ?_, ?_, ?_⟩
  · intro j member
    rcases (asked j).mp member with older | rfl
    · exact inv.made j older
    · exact (List.getElem?_eq_some_iff.mp made).1
  · intro j member y latest
    rcases (asked j).mp member with older | rfl
    · exact inv.spent j older y latest
    · obtain rfl : x = y := Option.some.inj (made.symm.trans latest.1)
      exact spent
  · intro c member
    rcases List.mem_append.mp member with older | new
    · exact inv.property.defined c older
    · rw [List.mem_singleton.mp new]
      exact defined
  · have called : finalized { st with calls := st.calls ++ [(i, call)] } =
        st.finalized ++ if call.isFinalizeModule then [i] else [] := by
      simp only [finalized, List.filter_append, List.map_append]
      cases calls : call.isFinalizeModule <;> simp [calls]
    rw [called]
    split
    · next calls =>
      -- a module that was finalized was invoked
      have fresh : i ∉ st.finalized := by
        intro member
        obtain ⟨c, kept, rfl⟩ := List.mem_map.mp member
        exact first calls (List.mem_map_of_mem (List.mem_filter.mp kept).1)
      exact List.nodup_append.mpr ⟨inv.property.once, List.nodup_singleton _, by
        intro a member b single same
        rw [List.mem_singleton.mp single] at same
        exact fresh (same ▸ member)⟩
    · rw [List.append_nil]
      exact inv.property.once
  · intro distinct j member y at_j key own
    rcases (asked j).mp member with older | rfl
    · exact inv.property.gone distinct j older y at_j key own
    · obtain rfl : x = y := Option.some.inj (made.symm.trans at_j)
      exact gone distinct key own

/-- One invocation that finds the module's own record, or comes too late to find anything. -/
theorem inv_invoke (inv : st.Inv clock) (finds : st.FindsOwn i x udd)
    (step : st.Invokes i x udd st') : st'.Inv clock ∧ st.Released st' i x := by
  obtain ⟨modName, modHandle, made, handle, ran⟩ := step
  -- the first finalizer of a module takes its keys away, and any other finds nothing
  rcases finds with ⟨latest, present⟩ | ⟨again, missing, noLoader⟩
  · obtain ⟨own, first⟩ := own_record inv latest present
    rw [← handle] at own
    obtain ⟨rfl, rfl⟩ := alone_goFinalizeModule_found inv.sound x.counted own ran
    have keys : modHandle.toInt64 :: x.info.methodKeys = x.keys := by rw [handle, Exposed.keys]
    rw [keys]
    have removed : ∀ key ∈ x.keys, (st.pool.without x.keys).k2v (.int64 key) = none := by
      intro key member
      rw [without_k2v, if_pos member]
    constructor
    · refine inv_call (inv_without inv x.keys) _ made ?_ (fun _ => first) ?_ fun _ => removed
      · cases st.pool.loaderAt udd.toInt64 <;> simp
      · have own : x.modKey ∈ x.keys := List.mem_cons_self
        rw [moduleAt_without, if_pos own]
    · refine ⟨fun _ => removed, ?_, fun member => absurd member first⟩
      intro key other
      exact (without_k2v ..).trans (if_neg other)
  · rw [← handle] at missing
    obtain ⟨rfl, rfl⟩ := alone_goFinalizeModule_missing missing ran
    rw [noLoader, handle] at *
    constructor
    · refine inv_call inv .notCalled made ?_ (fun calls => by cases calls) missing ?_
      · simp
      · intro distinct
        exact inv.property.gone distinct i again x made
    · exact ⟨fun first => absurd again first, fun _ _ => rfl, fun _ => rfl⟩

theorem inv_run [GoStructs S] (run : Run clock FindsOwn st) : st.Inv clock := by
  -- over the run: only a later module can put a record back under the key of an earlier one
  induction run with
  | start => exact inv_init
  | other _ step ih => exact inv_other ih step
  | invoke _ _ _ finds step ih => exact (inv_invoke ih finds step).1

/-- In every run whose invocations each find the record of their own module, or come after an
earlier one when the record and the loader are gone. -/
theorem finalization_idempotent [GoStructs S] (clock : Nat → Int64) (st : Finalizing L S)
    (run : Run clock FindsOwn st) :
    st.FinalizesOnce clock ∧ ∀ i x udd st', st.FindsOwn i x udd → st.Invokes i x udd st' →
      st'.FinalizesOnce clock ∧ st.Released st' i x := by
  have inv := inv_run run
  refine ⟨inv.property, ?_⟩
  intro i x udd st' finds step
  obtain ⟨after, released⟩ := inv_invoke inv finds step
  exact ⟨after.property, released⟩

/-! ### A greeter whose finalizer is called by a script as well -/

/-- The key of the loader is 11, so those of the first greeter are 12 and 13. -/
def firstGreeter : Exposed Greeter := ⟨13, ⟨.greeter, .greeter, 1, [12]⟩, rfl⟩

def secondGreeter : Exposed Greeter := ⟨15, ⟨.greeter, .greeter, 1, [14]⟩, rfl⟩

def oneAfterAnother (n : Nat) : Int64 := Int64.ofNat (n + 11)

/-- With its loader there, the second invocation for one handle dereferences nil. -/
theorem second_invocation_dereferences_nil : ∃ st : Finalizing Bool Greeter,
    Run oneAfterAnother (fun _ _ _ _ => True) st ∧
      (∀ m n, m < n → n < st.pool.gen → oneAfterAnother m ≠ oneAfterAnother n) ∧
      st.calls = [(0, .finalizeModule true [] .greeter), (0, .nilDereference)] ∧
      ¬ st.FinalizesOnce oneAfterAnother := by
  have begun : Run oneAfterAnother (fun _ _ _ _ => True) (_ : Finalizing Bool Greeter) := .start
  have loaded := begun.other (.saveModuleLoader true 64 11 (.reply trivial rfl .pure))
  have made := loaded.other
    (.createMethodKeys firstGreeter rfl (.reply trivial rfl (.reply trivial rfl .pure)))
  have once := made.invoke 0 11 trivial (.intro [] 13 rfl rfl (.reply trivial rfl
    (.reply trivial rfl (.reply trivial rfl (.silent trivial rfl (.silent trivial rfl .pure))))))
  have twice := once.invoke 0 11 trivial
    (.intro [] 13 rfl rfl (.reply trivial rfl (.reply trivial rfl .pure)))
  have apart : ∀ n < 3, ∀ m < n, oneAfterAnother m ≠ oneAfterAnother n := by decide
  refine ⟨_, twice, fun m n lt within => apart n within m lt, rfl, ?_⟩
  intro property
  exact property.defined (0, .nilDereference) (List.mem_cons_of_mem _ List.mem_cons_self) rfl

theorem latest_firstGreeter {pool : V2KPool (PoolVal Bool Greeter) Nat}
    {calls : List (Nat × FinalizeCall Bool Greeter)} :
    Latest ⟨pool, [firstGreeter, secondGreeter], calls⟩ 0 firstGreeter := by
  refine ⟨rfl, ?_⟩
  intro j y later made
  match j, later with
  | 1, _ =>
    cases made
    decide
  | j + 2, _ => cases made

theorem latest_secondGreeter {pool : V2KPool (PoolVal Bool Greeter) Nat}
    {calls : List (Nat × FinalizeCall Bool Greeter)} :
    Latest ⟨pool, [firstGreeter, secondGreeter], calls⟩ 1 secondGreeter := by
  refine ⟨rfl, ?_⟩
  intro j y later made
  match j, later with
  | j + 2, _ => cases made

/-- The second greeter is finalized first; the finalizer of the first one runs again when their
loader is removed. -/
theorem finalization_idempotent_twoGreeters : ∃ st : Finalizing Bool Greeter,
    Run oneAfterAnother FindsOwn st ∧ st.finalized = [1, 0] ∧ st.FinalizesOnce oneAfterAnother ∧
      ∃ st', st.Invokes 0 firstGreeter 11 st' ∧ st'.invoked = [1, 0, 0] ∧
        st'.FinalizesOnce oneAfterAnother ∧ st.Released st' 0 firstGreeter := by
  have begun : Run oneAfterAnother FindsOwn (_ : Finalizing Bool Greeter) := .start
  have loaded := begun.other (.saveModuleLoader true 64 11 (.reply trivial rfl .pure))
  have made := loaded.other
    (.createMethodKeys firstGreeter rfl (.reply trivial rfl (.reply trivial rfl .pure)))
  have both := made.other
    (.createMethodKeys secondGreeter rfl (.reply trivial rfl (.reply trivial rfl .pure)))
  have second := both.invoke 1 11 (.inl ⟨latest_secondGreeter, rfl⟩) (.intro [] 15 rfl rfl
    (.reply trivial rfl (.reply trivial rfl (.reply trivial rfl (.silent trivial rfl
      (.silent trivial rfl .pure))))))
  have first := second.invoke 0 11 (.inl ⟨latest_firstGreeter, rfl⟩) (.intro [] 13 rfl rfl
    (.reply trivial rfl (.reply trivial rfl (.reply trivial rfl (.silent trivial rfl
      (.silent trivial rfl .pure))))))
  have removed := first.other (.removeModuleLoader 11 (.silent trivial rfl .pure))
  obtain ⟨once, again⟩ := finalization_idempotent _ _ removed
  have repeated := again 0 firstGreeter 11 _
    (.inr ⟨List.mem_cons_of_mem _ List.mem_cons_self, rfl, rfl⟩)
    (.intro [] 13 rfl rfl (.reply trivial rfl (.reply trivial rfl (.reply trivial rfl .pure))))
  exact ⟨_, removed, rfl, once, _,
    .intro [] 13 rfl rfl (.reply trivial rfl (.reply trivial rfl (.reply trivial rfl .pure))), rfl,
    repeated⟩

end Finalizing

end DukBridge
