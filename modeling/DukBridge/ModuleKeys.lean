import DukBridge.Lib.KeyStore
import DukBridge.V2KPool

/-!
# native_module_key.go

Module loaders, modules and their methods are kept in one pool, `methodKeyGenerator`,
and are known to C by their keys alone. A key is a reading of `time.Now().UnixNano()`,
stored without looking whether it is in use.
-/
namespace DukBridge

open Rendezvous KeyStore

/-- `structP` has `nMethods` methods; `Method(i)` is the bound method `i`. -/
class GoStructs (S : Type) where
  numMethod : S → Nat

structure ModuleLoaderEnv (L : Type) where
  loader : L
  env : UInt64
deriving DecidableEq

structure GoModuleInfo (S : Type) where
  structPtr : S
  structP : S
  nMethods : Nat
  methodKeys : List Int64
deriving DecidableEq

/-- The dynamic types that meet in `methodKeyGenerator`. -/
inductive PoolVal (L S : Type) where
  | nil
  | int64 (key : Int64)
  | moduleLoaderEnv (le : ModuleLoaderEnv L)
  | reflectValue (structP : S) (method : Nat)
  | goModuleInfo (info : GoModuleInfo S)
  | err (text : String)
deriving DecidableEq

/-- All of them are integers or pointers, so any of them can be a map key. -/
instance (L S : Type) : GoValue (PoolVal L S) where
  nil := .nil
  hashable _ := true
  isError
    | .err _ => true
    | _ => false

variable {L S ι : Type}

/-- `clock n` is the `n`-th reading of `time.Now().UnixNano()`. -/
def keyGenerator (clock : Nat → Int64) (_ : PoolVal L S) (reads : Nat) :
    Except (PoolVal L S) (PoolVal L S) × Nat :=
  (.ok (.int64 (clock reads)), reads + 1)

def methodKeyGenerator (clock : Nat → Int64) :
    V2KPool (PoolVal L S) Nat :=
  .new (keyGenerator clock) false 0

/-! ### The functions of the file, as programs over the pool's methods -/

/-- `k.(int64)`; any other dynamic type panics. -/
def assertInt64 : Except (PoolVal L S) (PoolVal L S) → Except GoPanic Int64
  | .ok (.int64 key) => .ok key
  | _ => .error .typeAssertion

abbrev KeyProg (L S β : Type) := ExceptT GoPanic (PoolProg (PoolVal L S)) β

namespace MethodKeyGenerator

def V2K (val : PoolVal L S) : KeyProg L S (Except (PoolVal L S) (PoolVal L S)) :=
  ExceptT.lift (V2KPool.V2K val)

def GetVal (key : Int64) : KeyProg L S (PoolVal L S) :=
  ExceptT.lift (V2KPool.GetVal (.int64 key))

def RemoveKey (key : Int64) : KeyProg L S Unit :=
  ExceptT.lift (V2KPool.RemoveKey (.int64 key))

end MethodKeyGenerator

open MethodKeyGenerator

def saveModuleLoader (loader : L) (env : UInt64) : KeyProg L S Int64 := do
  let loaderKey ← V2K (.moduleLoaderEnv ⟨loader, env⟩)
  assertInt64 loaderKey

def getModuleLoader (loaderKey : Int64) : KeyProg L S (Except String (L × UInt64)) := do
  match ← GetVal loaderKey with
  | .moduleLoaderEnv le => return .ok (le.loader, le.env)
  | _ => return .error ("no such loaderKey: " ++ toString loaderKey)

def removeModuleLoader (loaderKey : Int64) : KeyProg L S Unit :=
  RemoveKey loaderKey

def getModInfo (modKey : Int64) : KeyProg L S (Option (GoModuleInfo S)) := do
  match ← GetVal modKey with
  | .goModuleInfo info => return some info
  | _ => return none

/-- The loop of `createMethodKeys`, from method `i` on. -/
def methodKeysFrom (structP : S) (i : Nat) : Nat → KeyProg L S (List Int64)
  | 0 => return []
  | n + 1 => do
    let methodKey ← V2K (.reflectValue structP i)
    let key ← assertInt64 methodKey
    return key :: (← methodKeysFrom structP (i + 1) n)

def createMethodKeys [GoStructs S] (structPtr structP : S) : KeyProg L S (Int64 × List Int64) := do
  let nMethods := GoStructs.numMethod structP
  let methodKeys ← methodKeysFrom structP 0 nMethods
  let modKey ← V2K (.goModuleInfo ⟨structPtr, structP, nMethods, methodKeys⟩)
  return (← assertInt64 modKey, methodKeys)

def getMethodType (methodKey : Int64) : KeyProg L S (Except String (S × Nat)) := do
  match ← GetVal methodKey with
  | .reflectValue structP i => return .ok (structP, i)
  | _ => return .error ("no such methodKey: " ++ toString methodKey)

/-- The loop of `removeModule`, from index `i` on. -/
def removeMethodKeys (methodKeys : List Int64) (i : Nat) : Nat → KeyProg L S Unit
  | 0 => return
  | n + 1 =>
    match methodKeys[i]? with
    | some key => do
      RemoveKey key
      removeMethodKeys methodKeys (i + 1) n
    | none => throw .indexOutOfRange

def removeModule (modKey : Int64) : KeyProg L S Unit := do
  match ← GetVal modKey with
  | .goModuleInfo info =>
    RemoveKey modKey
    removeMethodKeys info.methodKeys 0 info.nMethods
  | _ => return

/-- A goroutine that stores and removes modules and loaders of any environments; what it does
next may depend on the keys it got. -/
inductive KeyTask (L S : Type) where
  | finished
  | saveModuleLoader (loader : L) (env : UInt64) (next : Int64 → KeyTask L S)
  | createMethodKeys (structPtr structP : S) (next : Int64 × List Int64 → KeyTask L S)
  | removeModule (modKey : Int64) (next : KeyTask L S)
  | removeModuleLoader (loaderKey : Int64) (next : KeyTask L S)

def KeyTask.prog [GoStructs S] : KeyTask L S → KeyProg L S Unit
  | .finished => return
  | .saveModuleLoader loader env next => do
    (next (← DukBridge.saveModuleLoader loader env)).prog
  | .createMethodKeys structPtr structP next => do
    (next (← DukBridge.createMethodKeys structPtr structP)).prog
  | .removeModule modKey next => do
    DukBridge.removeModule modKey
    next.prog
  | .removeModuleLoader loaderKey next => do
    DukBridge.removeModuleLoader loaderKey
    next.prog

/-! ### The pool with the ledger of what is stored -/

/-- `live` is a history variable: what `V2K` stored and `RemoveKey` has not removed since. -/
structure KeyPool (L S : Type) where
  pool : V2KPool (PoolVal L S) Nat
  live : Ledger (PoolVal L S) (PoolVal L S)

variable [DecidableEq L] [DecidableEq S]

def KeyPool.record (live : Ledger (PoolVal L S) (PoolVal L S)) (od : OpWithData (PoolVal L S))
    (reply : Option (PoolVal L S)) : Ledger (PoolVal L S) (PoolVal L S) :=
  match od.op, reply with
  | .v2k, some k => (k, od.data) :: live
  | .removeK, _ => live.remove od.data
  | _, _ => live

def KeyPool.bgLoop (s : KeyPool L S) (od : OpWithData (PoolVal L S)) :
    Served (KeyPool L S) (PoolVal L S) :=
  match s.pool.bgLoop od with
  | .reply r pool => .reply r ⟨pool, record s.live od (some r)⟩
  | .silent pool => .silent ⟨pool, record s.live od none⟩
  | .halted => .halted

def keyProtocol : Protocol (KeyPool L S) (OpWithData (PoolVal L S)) (PoolVal L S) where
  awaits := V2KPool.awaits
  serve := KeyPool.bgLoop
  matched s od := by
    have matched := V2KPool.bgLoop_matched s.pool od
    unfold KeyPool.bgLoop
    split <;> simp_all [Served.Matches]

/-- The reading the next `V2K` draws is no key of the pool. -/
def FreshReading (clock : Nat → Int64) (s : KeyPool L S) (od : OpWithData (PoolVal L S)) : Prop :=
  od.op = .v2k → s.pool.k2v (.int64 (clock s.pool.gen)) = none

/-- Keys of live entries differ, and the lookups of the file find what was stored. -/
structure KeysResolve (s : KeyPool L S) : Prop where
  distinct : s.live.keys.Nodup
  method : ∀ k structP i, (.int64 k, .reflectValue structP i) ∈ s.live →
    runAlone keyProtocol s (getMethodType k).run = some (.ok (.ok (structP, i)), s)
  module : ∀ k info, (.int64 k, .goModuleInfo info) ∈ s.live →
    runAlone keyProtocol s (getModInfo k).run = some (.ok (some info), s)
  loader : ∀ k le, (.int64 k, .moduleLoaderEnv le) ∈ s.live →
    runAlone keyProtocol s (getModuleLoader k).run = some (.ok (.ok (le.loader, le.env)), s)

/-- What every operation of the pool keeps while the readings are fresh. -/
structure KeyPool.Sound (clock : Nat → Int64) (s : KeyPool L S) : Prop where
  generator : s.pool.val2key = keyGenerator clock
  unhashed : s.pool.valHashable = false
  noVals : ∀ v, s.pool.v2k v = none
  tracks : Tracks s.pool.k2v s.live

omit [DecidableEq L] [DecidableEq S] in
theorem sound_init (clock : Nat → Int64) :
    KeyPool.Sound clock (⟨methodKeyGenerator clock, []⟩ : KeyPool L S) :=
  ⟨rfl, rfl, fun _ => rfl, Tracks.empty _⟩

/-! ### One lemma for each pool operation on a sound pool -/

theorem val2Key_sound {clock : Nat → Int64} {s : KeyPool L S} (sound : s.Sound clock)
    (val : PoolVal L S) :
    s.pool.val2Key val = .ok (.int64 (clock s.pool.gen),
      { s.pool with
        k2v := Function.update s.pool.k2v (.int64 (clock s.pool.gen)) (some val)
        gen := s.pool.gen + 1 }) := by
  simp [V2KPool.val2Key, V2KPool.drawKey, sound.generator, sound.unhashed, keyGenerator,
    GoMap.assign, GoValue.hashable, bind, Except.bind, pure, Except.pure]

omit [DecidableEq L] [DecidableEq S] in
theorem getVal_sound (s : KeyPool L S) (key : PoolVal L S) :
    s.pool.getVal key = .ok ((s.pool.k2v key).getD .nil) := by
  simp only [V2KPool.getVal, GoMap.index, GoValue.hashable, if_true, bind, Except.bind]
  cases s.pool.k2v key <;> rfl

theorem removeKey_sound {clock : Nat → Int64} {s : KeyPool L S} (sound : s.Sound clock)
    (key : PoolVal L S) :
    s.pool.removeKey key =
      .ok { s.pool with k2v := Function.update s.pool.k2v key none } := by
  simp only [V2KPool.removeKey, GoMap.index, GoMap.delete, GoValue.hashable, if_true, bind,
    Except.bind]
  cases absent : s.pool.k2v key with
  | none =>
    -- the source returns without deleting, which is the same
    have same : Function.update s.pool.k2v key none = s.pool.k2v := by
      rw [← absent, Function.update_eq_self]
    rw [same]
    rfl
  | some v => simp only [sound.noVals]; rfl

theorem removeVal_sound {clock : Nat → Int64} {s : KeyPool L S} (sound : s.Sound clock)
    (val : PoolVal L S) : s.pool.removeVal val = .ok s.pool := by
  simp [V2KPool.removeVal, sound.unhashed, pure, Except.pure]

theorem sound_step {clock : Nat → Int64} (s : KeyPool L S) (od : OpWithData (PoolVal L S))
    (sound : s.Sound clock) (fresh : FreshReading clock s od) :
    (keyProtocol.serve s od).Keeps (KeyPool.Sound clock) := by
  obtain ⟨op, data⟩ := od
  simp only [keyProtocol, KeyPool.bgLoop, V2KPool.bgLoop]
  cases op with
  | v2k =>
    rw [val2Key_sound sound]
    -- a key without an entry is none of the ledger's
    have unused := sound.tracks.fresh_of_absent (fresh rfl)
    exact ⟨sound.generator, sound.unhashed, sound.noVals, sound.tracks.insert unused data⟩
  | k2v =>
    rw [getVal_sound]
    exact sound
  | removeK =>
    rw [removeKey_sound sound]
    exact ⟨sound.generator, sound.unhashed, sound.noVals, sound.tracks.remove data⟩
  | removeV =>
    rw [removeVal_sound sound]
    exact sound
  | exit => trivial

/-! ### Lookups -/

omit [DecidableEq L] [DecidableEq S] in
theorem getVal_bind (key : Int64) {β : Type} (next : PoolVal L S → KeyProg L S β) :
    (GetVal key >>= next).run =
      .call ⟨.k2v, .int64 key⟩ fun res => (next (res.getD .nil)).run := rfl

theorem runAlone_getVal (s : KeyPool L S) (key : Int64) {β : Type}
    (next : PoolVal L S → KeyProg L S β) :
    runAlone keyProtocol s (GetVal key >>= next).run =
      runAlone keyProtocol s (next ((s.pool.k2v (.int64 key)).getD .nil)).run := by
  have served : keyProtocol.serve s ⟨.k2v, .int64 key⟩ =
      .reply ((s.pool.k2v (.int64 key)).getD .nil) s := by
    simp only [keyProtocol, KeyPool.bgLoop, V2KPool.bgLoop, getVal_sound]
    rfl
  -- the look-up leaves the pool as it is, and the program goes on with what it found
  rw [getVal_bind]
  simp only [runAlone, served, Option.getD_some]

theorem keysResolve_of_sound {clock : Nat → Int64} {s : KeyPool L S} (sound : s.Sound clock) :
    KeysResolve s := by
  constructor
  · exact sound.tracks.distinct
  · intro k structP i member
    rw [getMethodType, runAlone_getVal, sound.tracks.found _ _ member]
    rfl
  · intro k info member
    rw [getModInfo, runAlone_getVal, sound.tracks.found _ _ member]
    rfl
  · intro k le member
    rw [getModuleLoader, runAlone_getVal, sound.tracks.found _ _ member]
    rfl

variable [DecidableEq ι] [GoStructs S]

/-- Runs of any goroutines on `methodKeyGenerator` in which no reading drawn for a key is
already a key of the pool. -/
abbrev FreshRun (clock : Nat → Int64) (tasks : ι → KeyTask L S) :
    State ι (KeyPool L S) (OpWithData (PoolVal L S)) (PoolVal L S) (Except GoPanic Unit) → Prop :=
  ReachableWhere keyProtocol (FreshReading clock) (fun i => (tasks i).prog)
    ⟨methodKeyGenerator clock, []⟩

/-- In every run whose readings are fresh when drawn, the keys stored and not yet removed are
pairwise different and resolve to the method, the module or the loader they were drawn for. -/
theorem keys_resolve_of_fresh (clock : Nat → Int64) (tasks : ι → KeyTask L S)
    (st : State ι (KeyPool L S) (OpWithData (PoolVal L S)) (PoolVal L S) (Except GoPanic Unit))
    (run : FreshRun clock tasks st) (s : KeyPool L S) (now : st.control.state = some s) :
    KeysResolve s :=
  keysResolve_of_sound (server_invariant sound_step (sound_init clock) run s now)

/-! ### One struct with one method -/

inductive Greeter where
  | greeter
deriving DecidableEq

instance : GoStructs Greeter where
  numMethod _ := 1

def exposeGreeter (_ : Unit) : KeyTask Unit Greeter :=
  .createMethodKeys .greeter .greeter fun _ => .finished

/-- The readings may stand still: the module then takes the key of its own method. -/
theorem keys_collide_on_repeated_reading :
    ∃ clock : Nat → Int64, (∀ n, clock n ≤ clock (n + 1)) ∧ ∃ st s,
      Reachable keyProtocol (fun i => (exposeGreeter i).prog) ⟨methodKeyGenerator clock, []⟩ st ∧
      st.control.state = some s ∧ (.int64 5, .reflectValue .greeter 0) ∈ s.live ∧
      runAlone keyProtocol s (getMethodType 5).run = some (.ok (.error "no such methodKey: 5"), s) ∧
      ¬ KeysResolve s := by
  refine ⟨fun _ => 5, fun _ => Int64.le_refl _, ?_⟩
  have start : Reachable keyProtocol (fun i => (exposeGreeter i).prog)
      ⟨methodKeyGenerator fun _ => 5, []⟩ (.init _ _) := .refl
  -- the method is stored under 5, and then the module
  have methodAsked := start.tail (.send (i := ()) rfl rfl)
  have methodStored := methodAsked.tail (.execute rfl)
  have methodKnown := methodStored.tail (.deliver (i := ()) rfl rfl)
  have moduleAsked := methodKnown.tail (.send (i := ()) rfl rfl)
  have moduleStored := moduleAsked.tail (.execute rfl)
  refine ⟨_, _, moduleStored, rfl, by decide, rfl, ?_⟩
  intro resolve
  exact absurd resolve.distinct (by decide)

theorem keys_resolve_of_fresh_greeter :
    ∃ st s, FreshRun (fun n => Int64.ofNat n) exposeGreeter st ∧ st.control.state = some s ∧
      s.live.length = 2 ∧ KeysResolve s := by
  have start : FreshRun (fun n => Int64.ofNat n) exposeGreeter (.init _ _) := .refl
  have methodAsked := start.tail ⟨.send (i := ()) rfl rfl, fun _ _ busy => by cases busy⟩
  have methodStored := methodAsked.tail ⟨.execute rfl, fun _ _ busy => by cases busy; exact fun _ => rfl⟩
  have methodKnown := methodStored.tail ⟨.deliver (i := ()) rfl rfl, fun _ _ busy => by cases busy⟩
  have moduleAsked := methodKnown.tail ⟨.send (i := ()) rfl rfl, fun _ _ busy => by cases busy⟩
  have moduleStored := moduleAsked.tail
    ⟨.execute rfl, fun _ _ busy => by cases busy; exact fun _ => rfl⟩
  exact ⟨_, _, moduleStored, rfl, rfl, keys_resolve_of_fresh _ _ _ moduleStored _ rfl⟩

end DukBridge
