import DukBridge.ModuleKeys
import DukBridge.Words

/-!
# Environments and their module loaders (duk_bridge.go, module_loader.go)

`NewEnv` stores a key for each loader of the new environment, and `_firstLoaderKey` finds the
first of them again from the address of the environment. An object made for a struct carries
a loader key and a module key until its finalizer hands both back.
-/
namespace DukBridge

open Rendezvous KeyStore

variable {L S : Type}

structure JSEnv where
  env : Word
  loaderKey : List Int64
deriving DecidableEq

/-- `map[unsafe.Pointer]int64` -/
abbrev LoaderKeyMap := Word → Option Int64

/-- Programs over the pool and `_firstLoaderKey`. -/
abbrev GoProg (L S β : Type) := StateT LoaderKeyMap (KeyProg L S) β

/-- The registration in C, `js_add_module_loader`, knows the loader by its key. -/
def addGoModuleLoader (ctx : JSEnv) : Option L → GoProg L S JSEnv
  | none => return ctx
  | some loader => do
    let loaderKey ← StateT.lift (saveModuleLoader loader ctx.env)
    if ctx.loaderKey.length = 0 then
      modify fun firstLoaderKey => Function.update firstLoaderKey ctx.env (some loaderKey)
    return { ctx with loaderKey := ctx.loaderKey ++ [loaderKey] }

/-- `env` is what `js_create_env` returned, `plugin` the `&GoPluginModuleLoader{}`. -/
def newEnv (env : Word) (plugin : L) (loader : Option L) : GoProg L S JSEnv := do
  let jsEnv ← addGoModuleLoader ⟨env, []⟩ (some plugin)
  match loader with
  | some _ => addGoModuleLoader jsEnv loader
  | none => return jsEnv

/-- What `go_finalizeModule` does with the loader it finds. -/
inductive FinalizeCall (L S : Type) where
  | notCalled
  | finalizeModule (loader : L) (modName : Bytes) (structPtr : S)
  /-- `modInfo.structPtr` of a nil `modInfo`; nothing after it is executed. -/
  | nilDereference

def goFinalizeModule (udd : Word) (modName : Bytes) (modHandle : Word) :
    KeyProg L S (FinalizeCall L S) := do
  let modKey := modHandle.toInt64
  let modInfo ← getModInfo modKey
  match ← getModuleLoader udd.toInt64, modInfo with
  | .ok _, none => return .nilDereference
  | .ok (loader, _), some info => do
    removeModule modKey
    return .finalizeModule loader modName info.structPtr
  | .error _, _ => do
    removeModule modKey
    return .notCalled

/-- An object with `unload_native_obj` for its finalizer, and what the finalizer was given. -/
structure NativeObj where
  env : Word
  udd : Word
  modName : Bytes
  modHandle : Word
deriving DecidableEq

/-- `duk_destroy_heap` finalizes what is left in the heap. -/
def jsDestroyEnv : List NativeObj → KeyProg L S Unit
  | [] => return
  | obj :: rest => do
    let _ ← goFinalizeModule obj.udd obj.modName obj.modHandle
    jsDestroyEnv rest

/-- The loop of `Destroy`. -/
def removeLoaders : List Int64 → KeyProg L S Unit
  | [] => return
  | loaderKey :: rest => do
    if loaderKey ≠ 0 then
      removeModuleLoader loaderKey
    removeLoaders rest

def destroy (ctx : JSEnv) (heap : List NativeObj) : GoProg L S Unit := do
  modify fun firstLoaderKey => Function.update firstLoaderKey ctx.env none
  StateT.lift (jsDestroyEnv heap)
  StateT.lift (removeLoaders ctx.loaderKey)

/-- The `udd` and the handle `go_createEcmascriptObject` gives the new object; it fails without
a loader key. -/
def goCreateEcmascriptObject (firstLoaderKey : LoaderKeyMap) (env udd : Word) :
    Option NativeObj :=
  (firstLoaderKey env).map fun loaderKey => ⟨env, loaderKey.toUInt64, [], udd⟩

/-! ### Programs that run to their end on fresh readings -/

/-- The reading that `V2K` draws next is no key of the pool. -/
def Unused (clock : Nat → Int64) (p : V2KPool (PoolVal L S) Nat)
    (od : OpWithData (PoolVal L S)) : Prop :=
  od.op = .v2k → p.k2v (.int64 (clock p.gen)) = none

variable [DecidableEq L] [DecidableEq S]

/-- Nothing else uses the pool meanwhile. -/
def Runs (clock : Nat → Int64) (p : V2KPool (PoolVal L S) Nat) {β : Type} (prog : KeyProg L S β)
    (b : β) (p' : V2KPool (PoolVal L S) Nat) : Prop :=
  RunsAlone V2KPool.protocol (Unused clock) p prog.run (.ok b) p'

section Rules

variable {clock : Nat → Int64} {p p' : V2KPool (PoolVal L S) Nat} {α β : Type}
  {m m' : LoaderKeyMap}

section Admitting

variable {admits : V2KPool (PoolVal L S) Nat → OpWithData (PoolVal L S) → Prop}

theorem keyProg_pure {a b : β} :
    RunsAlone V2KPool.protocol admits p (pure a : KeyProg L S β).run (.ok b) p' ↔
      b = a ∧ p' = p := by
  change RunsAlone _ _ p (.pure (Except.ok a)) (.ok b) p' ↔ _
  rw [runsAlone_pure, Except.ok.injEq]

theorem keyProg_throw {e : GoPanic} {b : β} :
    ¬ RunsAlone V2KPool.protocol admits p (throw e : KeyProg L S β).run (.ok b) p' := by
  change ¬ RunsAlone _ _ p (.pure (Except.error e)) (.ok b) p'
  rw [runsAlone_pure]
  rintro ⟨same, _⟩
  cases same

theorem keyProg_bind {x : KeyProg L S α} {f : α → KeyProg L S β} {b : β} :
    RunsAlone V2KPool.protocol admits p (x >>= f).run (.ok b) p' ↔
      ∃ a q, RunsAlone V2KPool.protocol admits p x.run (.ok a) q ∧
        RunsAlone V2KPool.protocol admits q (f a).run (.ok b) p' := by
  change RunsAlone _ _ p (Prog.bind x.run (ExceptT.bindCont f)) (.ok b) p' ↔ _
  rw [runsAlone_bind]
  constructor
  · rintro ⟨outcome, q, first, rest⟩
    cases outcome with
    | ok a => exact ⟨a, q, first, rest⟩
    | error e => exact absurd rest (keyProg_throw (e := e))
  · rintro ⟨a, q, first, rest⟩
    exact ⟨.ok a, q, first, rest⟩

end Admitting

theorem runs_pure {a b : β} : Runs clock p (pure a : KeyProg L S β) b p' ↔ b = a ∧ p' = p :=
  keyProg_pure

theorem runs_bind {x : KeyProg L S α} {f : α → KeyProg L S β} {b : β} :
    Runs clock p (x >>= f) b p' ↔ ∃ a q, Runs clock p x a q ∧ Runs clock q (f a) b p' :=
  keyProg_bind

theorem runs_bind_state {x : GoProg L S α} {f : α → GoProg L S β} {b : β} :
    Runs clock p ((x >>= f).run m) (b, m') p' ↔
      ∃ a n q, Runs clock p (x.run m) (a, n) q ∧ Runs clock q ((f a).run n) (b, m') p' := by
  change Runs clock p (x.run m >>= fun r => (f r.1).run r.2) (b, m') p' ↔ _
  rw [runs_bind]
  constructor
  · rintro ⟨⟨a, n⟩, q, first, rest⟩
    exact ⟨a, n, q, first, rest⟩
  · rintro ⟨a, n, q, first, rest⟩
    exact ⟨(a, n), q, first, rest⟩

theorem runs_lift {x : KeyProg L S β} {b : β} :
    Runs clock p ((StateT.lift x : GoProg L S β).run m) (b, m') p' ↔ Runs clock p x b p' ∧ m' = m := by
  change Runs clock p (x >>= fun a => pure (a, m)) (b, m') p' ↔ _
  rw [runs_bind]
  constructor
  · rintro ⟨a, q, first, rest⟩
    obtain ⟨same, rfl⟩ := runs_pure.mp rest
    cases same
    exact ⟨first, rfl⟩
  · rintro ⟨first, rfl⟩
    exact ⟨b, p', first, runs_pure.mpr ⟨rfl, rfl⟩⟩

theorem runs_modify {f : LoaderKeyMap → LoaderKeyMap} {u : Unit} :
    Runs clock p ((modify f : GoProg L S Unit).run m) (u, m') p' ↔ m' = f m ∧ p' = p := by
  change Runs clock p (pure ((), f m)) (u, m') p' ↔ _
  rw [runs_pure, Prod.mk.injEq]
  simp

end Rules

end DukBridge
