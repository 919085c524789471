import DukBridge.InstanceCreation
import DukBridge.LoaderBinding
import DukBridge.NativeObjects

/-!
# How long keys stay in the pool

A run of the program, with all environments and the operations on them. The keys of a struct
are drawn before there is an object, and handed back by the finalizer of the object, so what is
drawn for an object that is never made stays.
-/
namespace DukBridge

open Effect Rendezvous KeyStore

variable {H L S : Type}

/-! ### Operations -/

/-- The Go values a call encodes. -/
def GoCall.args {mem : Memory} : GoCall mem S → List (GoVal mem S)
  | .eval _ | .evalBytes _ | .evalFile _ => []
  | .callFunc _ args | .callFileFunc _ args | .callEcmascriptFunc _ args => args.getD []

/-- An operation on one environment that may encode Go values. -/
inductive EnvOp (mem : Memory) (S : Type) where
  | call (call : GoCall mem S)
  | registerVar (name : Bytes) (val : GoVal mem S)

namespace EnvOp

def args {mem : Memory} : EnvOp mem S → List (GoVal mem S)
  | call c => c.args
  | registerVar _ val => [val]

/-- The operation in C, and the pool afterwards. -/
def run [DecidableEq L] [DecidableEq S] [GoStructs S] (b : GoBridge H S)
    (firstLoaderKey : LoaderKeyMap) (env : Word) (pool : V2KPool (PoolVal L S) Nat) :
    EnvOp b.host.mem S → Duk (Traced H) Unit × V2KPool (PoolVal L S) Nat
  | call c =>
    let (m, pool') := GoCall.run (b.inEnv firstLoaderKey env) b.runtime pool c
    (do let _ ← m, pool')
  | registerVar name val =>
    let (m, pool') := DukBridge.registerVar (b.inEnv firstLoaderKey env) b.runtime name val pool
    (do let _ ← m, pool')

end EnvOp

/-- What scripts ask for comes between the operations of the program. `closing` is an environment
whose `Destroy` is under way, so that finalizers are running. -/
inductive Operation (mem : Memory) (H L S : Type) where
  | newEnv
  | destroy (e : LiveEnv L)
  | run (closing : Option Word) (e : LiveEnv L) (op : EnvOp mem S)
  /-- A script requires the module with the name at `id`, which a loader finds. -/
  | require (e : LiveEnv L) (loaderKey : Int64) (id : Word) (x : Exposed S) (frame : Ctx H)
  /-- A Go function returns a struct to a script that runs in this thread. -/
  | structResult (closing : Option Word) (thread : Word) (x : Exposed S) (frame : Ctx H)
  | finalize

/-! ### Objects that scripts get -/

namespace GoBridge

variable (b : GoBridge H S)

/-- `init_native_obj` up to the finalizer. -/
def newObject (obj : NativeObj) (id : Word) : Duk H Unit := do
  pushObject
  if b.finalizeModule ≠ 0 then
    setUnloader b.host obj.udd id obj.modHandle b.finalizeModule

/-- What is left of `init_native_obj` lists methods and attributes. -/
theorem buildNativeObj_eq (obj : NativeObj) (id getMethodsList getAttrsList : Word) :
    buildNativeObj b.host b.fns obj.udd id obj.modHandle getMethodsList getAttrsList
      b.finalizeModule = b.newObject obj id >>= fun _ => (do
        if getMethodsList ≠ 0 then
          addMethods b.host (← b.fns.getMethodsList getMethodsList obj.udd id obj.modHandle)
        if getAttrsList ≠ 0 then
          addAttrs b.host (← b.fns.getAttrsList getAttrsList obj.udd id obj.modHandle)) := by
  by_cases finalized : b.finalizeModule = 0
  · simp only [buildNativeObj, newObject, finalized, ne_eq, not_true_eq_false, if_false, bind_assoc,
      pure_bind]
  · simp only [buildNativeObj, newObject, finalized, ne_eq, not_false_eq_true, if_true, bind_assoc]

/-- The object is there once it has its finalizer, whatever is thrown while its methods and
attributes are listed. -/
def objectMade (obj : NativeObj) (id : Word) (frame : Ctx H) : List NativeObj :=
  match b.newObject obj id frame with
  | .ok _ _ => [obj]
  | .error _ _ => []

/-- For a key from `go_loadModule`; C takes 0 for no module. -/
def requiredObject (env : Word) (loaderKey : Int64) (id : Word) (modKey : Int64) (frame : Ctx H) :
    List NativeObj :=
  let modName := b.host.mem.zstring id (maxStringLen + 1)
  if modKey.toUInt64 = 0 then []
  else b.objectMade ⟨env, loaderKey.toUInt64, modName, modKey.toUInt64⟩ id frame

/-- `go_createEcmascriptObject` for a result, on the thread of the call. -/
def returnedObject (firstLoaderKey : LoaderKeyMap) (thread : Word) (modKey : Int64) (frame : Ctx H) :
    List NativeObj :=
  match goCreateEcmascriptObject firstLoaderKey thread modKey.toUInt64 with
  | none => []
  | some obj => b.objectMade obj 0 frame

end GoBridge

/-- `_firstLoaderKey` for an operation: `Destroy` starts by deleting the environment from it. -/
def Process.loaderKeys (st : Process L S) : Option Word → LoaderKeyMap
  | none => st.firstLoaderKey
  | some env => Function.update st.firstLoaderKey env none

/-! ### Steps -/

/-- The object of these that was made for the struct. -/
def Exposed.instance? (made : List NativeObj) (x : Exposed S) : Option (Instance S) :=
  made.findSome? fun obj =>
    if handle : obj.modHandle.toInt64 = x.modKey then some ⟨x, obj, handle⟩ else none

/-- What is left of an operation that drew keys for `drawn` and made the objects `made`. -/
def Process.afterOp (st : Process L S) (pool : V2KPool (PoolVal L S) Nat)
    (drawn : List (Exposed S)) (made : List NativeObj) : Process L S :=
  { st with
    pool
    exposed := drawn.filter (fun x => (x.instance? made).isNone) ++ st.exposed
    instances := drawn.filterMap (fun x => x.instance? made) ++ st.instances }

variable [DecidableEq L] [DecidableEq S] [GoStructs S]

/-- `createMethodKeys` for one struct after the other. -/
inductive Draws (clock : Nat → Int64) :
    V2KPool (PoolVal L S) Nat → List S → List (Exposed S) → V2KPool (PoolVal L S) Nat → Prop where
  | nil {pool} : Draws clock pool [] [] pool
  | cons {pool pool' pool'' s rest drawn} {x : Exposed S}
      (info : x.info = ⟨s, s, GoStructs.numMethod s, x.info.methodKeys⟩)
      (ran : Runs clock pool (createMethodKeys s s : KeyProg L S (Int64 × List Int64))
        (x.modKey, x.info.methodKeys) pool')
      (others : Draws clock pool' rest drawn pool'') :
      Draws clock pool (s :: rest) (x :: drawn) pool''

/-- The globals of the package, and the value stack of each environment. -/
structure Program (H L S : Type) where
  process : Process L S
  ctx : Word → Ctx H

/-- An operation that comes back, with readings of the clock that are unused when drawn. -/
inductive Program.Step (b : GoBridge H S) (clock : Nat → Int64) :
    Operation b.host.mem H L S → Program H L S → Program H L S → Prop where
  | newEnv {st : Program H L S} {e : LiveEnv L} {m pool} (ctx : Ctx H)
      (unused : ∀ e' ∈ st.process.live, e'.jsEnv.env ≠ e.jsEnv.env)
      (ran : Runs clock st.process.pool
        ((newEnv e.jsEnv.env e.plugin e.loader : GoProg L S JSEnv).run st.process.firstLoaderKey)
        (e.jsEnv, m) pool) :
      Step b clock .newEnv st
        ⟨{ st.process with pool, firstLoaderKey := m, live := e :: st.process.live },
          Function.update st.ctx e.jsEnv.env ctx⟩
  | destroy {st : Program H L S} {e : LiveEnv L} {process}
      (destroys : Destroys clock st.process e process) :
      Step b clock (.destroy e) st ⟨process, st.ctx⟩
  | run {st : Program H L S} {closing : Option Word} {e : LiveEnv L} {op : EnvOp b.host.mem S}
      {pool ctx} (drawn : List (Exposed S)) (alive : e ∈ st.process.live)
      (draws : Draws clock st.process.pool (structs op.args) drawn pool)
      (ran : (op.run b (st.process.loaderKeys closing) e.jsEnv.env st.process.pool).1
        (st.ctx e.jsEnv.env).traced = .ok () ctx) :
      Step b clock (.run closing e op) st
        ⟨st.process.afterOp
            (op.run b (st.process.loaderKeys closing) e.jsEnv.env st.process.pool).2
            drawn ctx.world.heap.made,
          Function.update st.ctx e.jsEnv.env ctx.bare⟩
  | require {st : Program H L S} {e : LiveEnv L} {loaderKey id} {x : Exposed S} {frame pool}
      (alive : e ∈ st.process.live) (own : loaderKey ∈ e.jsEnv.loaderKey)
      (draws : Draws clock st.process.pool [x.info.structP] [x] pool) :
      Step b clock (.require e loaderKey id x frame) st
        ⟨st.process.afterOp pool [x] (b.requiredObject e.jsEnv.env loaderKey id x.modKey frame),
          st.ctx⟩
  | structResult {st : Program H L S} {closing thread} {x : Exposed S} {frame pool}
      (draws : Draws clock st.process.pool [x.info.structP] [x] pool) :
      Step b clock (.structResult closing thread x frame) st
        ⟨st.process.afterOp pool [x]
          (b.returnedObject (st.process.loaderKeys closing) thread x.modKey frame), st.ctx⟩
  | finalize {st : Program H L S} {i : Instance S} {before after call pool}
      (alive : st.process.instances = before ++ i :: after)
      (ran : Runs clock st.process.pool
        (goFinalizeModule i.obj.udd i.obj.modName i.obj.modHandle : KeyProg L S _) call pool) :
      Step b clock .finalize st
        ⟨{ st.process with pool, instances := before ++ after }, st.ctx⟩

def Program.init (clock : Nat → Int64) (ctx : Word → Ctx H) : Program H L S := ⟨.init clock, ctx⟩

/-! ### The keys that are in use -/

/-- The keys in the pool are the loader keys of live environments, and the module key and the method
keys of each object that has been made and not been finalized. -/
def Process.KeysInUse (st : Process L S) : Prop :=
  ∀ k, (st.pool.k2v k).isSome ↔ ∃ key : Int64, k = .int64 key ∧
    ((∃ e ∈ st.live, key ∈ e.jsEnv.loaderKey) ∨
      ∃ i ∈ st.instances, key = i.modKey ∨ key ∈ i.info.methodKeys)

/-- The function is bound, or the file is there and compiles: nothing is left but to push the
arguments and call. -/
def GoCall.Reaches (host : Host H) (ctx : Ctx H) {mem : Memory} : GoCall mem S → Prop
  | .callFunc funcName _ =>
    ∃ found, getGlobalString host (cString funcName) ctx = .ok true found
  | .callFileFunc scriptFile _ => ∃ src compiled,
    host.readFileContent (cString scriptFile) = .ok src ∧
      pcompileLstring host .function src ctx = .ok 0 compiled
  | _ => True

/-- There are slots for an object with its finalizer, and scripts have left the names of the
finalizer's properties alone. -/
structure FitsObject (host : Host H) (frame : Ctx H) : Prop where
  room : frame.height + 5 ≤ frame.reserve
  plain : PlainUnloader host frame.world.heap

/-- Each struct gets to C, in an environment with a loader and with slots for its object, and no key
is taken for none at all. -/
def Operation.Tidy (b : GoBridge H S) (st : Program H L S) : Operation b.host.mem H L S → Prop
  | .destroy e => 0 ∉ e.jsEnv.loaderKey
  | .run closing e (.call c) => structs c.args = [] ∨ closing ≠ some e.jsEnv.env ∧
    c.Reaches (b.inEnv (st.process.loaderKeys closing) e.jsEnv.env) (st.ctx e.jsEnv.env).traced
  | .run _ _ (.registerVar _ val) => val.struct? = none
  | .require _ _ id x frame => x.modKey ≠ 0 ∧ FitsObject b.host frame ∧
    (b.host.mem.zstring id (maxStringLen + 1)).length ≤ maxStringLen
  | .structResult closing thread _ frame =>
    (∃ e ∈ st.process.live, thread = e.jsEnv.env) ∧ closing ≠ some thread ∧ FitsObject b.host frame
  | .newEnv | .finalize => True

/-- Runs of operations that come back. -/
abbrev Program.Run (b : GoBridge H S) (clock : Nat → Int64) : Program H L S → Program H L S → Prop :=
  Relation.ReflTransGen fun st st' => ∃ op, Program.Step b clock op st st'

abbrev Program.TidyRun (b : GoBridge H S) (clock : Nat → Int64) :
    Program H L S → Program H L S → Prop :=
  Relation.ReflTransGen fun st st' => ∃ op, Program.Step b clock op st st' ∧ op.Tidy b st

/-! ### Drawing -/

section Draws

variable {clock : Nat → Int64} {p p' : V2KPool (PoolVal L S) Nat} {held : KeyEntries L S}
  {ss : List S} {drawn : List (Exposed S)}

theorem draws_holds (holds : PoolHolds clock p held) (draws : Draws clock p ss drawn p') :
    PoolHolds clock p' (drawn.flatMap Exposed.entries ++ held) := by
  induction draws generalizing held with
  | nil => exact holds
  | cons info ran others ih =>
    rename_i x
    obtain ⟨_, holds⟩ := runs_createMethodKeys holds ran
    rw [← info] at holds
    refine (ih holds).perm ?_
    rw [List.flatMap_cons, List.append_assoc]
    exact List.perm_append_comm_assoc ..

theorem draws_keys (b : GoBridge H S) (draws : Draws clock p ss drawn p') :
    drawKeys b.runtime ss p = (drawn.map fun x => x.modKey.toUInt64, p') := by
  induction draws with
  | nil => rfl
  | cons info ran others ih =>
    simp only [drawKeys, GoBridge.runtime, ran.runAlone_eq]
    change (_ :: (drawKeys b.runtime _ _).1, (drawKeys b.runtime _ _).2) = _
    rw [ih, List.map_cons]

theorem op_pool (b : GoBridge H S) (m : LoaderKeyMap) (env : Word) (op : EnvOp b.host.mem S) :
    (op.run b m env p).2 = (drawKeys b.runtime (structs op.args) p).2 := by
  cases op with
  | registerVar name val => exact parseArgsFrom_state b.runtime [val] (ParseLoop.start 1) p
  | call c =>
    cases c with
    | eval jsCode | evalBytes jsCode | evalFile scriptFile => rfl
    | callFunc f args | callFileFunc f args | callEcmascriptFunc f args =>
      exact @callArgs_state _ _ _ (b.inEnv m env) b.runtime args p

end Draws

/-! ### The objects of an operation -/

omit [DecidableEq S] [GoStructs S] in
theorem instance?_exposed {made : List NativeObj} {x : Exposed S} {i : Instance S}
    (found : x.instance? made = some i) : i.toExposed = x := by
  obtain ⟨obj, _, same⟩ := List.exists_of_findSome?_eq_some found
  split at same
  · cases same
    rfl
  · cases same

omit [DecidableEq S] [GoStructs S] in
theorem instance?_isSome {made : List NativeObj} {x : Exposed S} {obj : NativeObj}
    (member : obj ∈ made) (handle : obj.modHandle.toInt64 = x.modKey) :
    (x.instance? made).isSome := by
  rw [Exposed.instance?, List.findSome?_isSome_iff]
  exact ⟨obj, member, by rw [dif_pos handle]; rfl⟩

omit [DecidableEq L] [DecidableEq S] [GoStructs S] in
/-- An entry that was drawn belongs to an object or to a struct that got none. -/
theorem drawn_perm (drawn : List (Exposed S)) (made : List NativeObj) :
    (drawn.flatMap Exposed.entries : KeyEntries L S).Perm
      ((drawn.filter fun x => (x.instance? made).isNone).flatMap Exposed.entries ++
        (drawn.filterMap fun x => x.instance? made).flatMap (·.entries)) := by
  induction drawn with
  | nil => exact .refl _
  | cons x rest ih =>
    cases found : x.instance? made with
    | none =>
      rw [List.filter_cons_of_pos (by rw [found]; rfl), List.filterMap_cons, found]
      rw [List.flatMap_cons, List.flatMap_cons, List.append_assoc]
      exact ih.append_left _
    | some i =>
      rw [List.filter_cons_of_neg (by rw [found]; exact Bool.false_ne_true), List.filterMap_cons,
        found]
      rw [List.flatMap_cons, List.flatMap_cons, instance?_exposed found]
      exact (ih.append_left _).trans (List.perm_append_comm_assoc ..)

variable {b : GoBridge H S} {clock : Nat → Int64} {st st' : Program H L S}

theorem accounted_afterOp {process : Process L S} (inv : process.Accounted clock)
    {pool : V2KPool (PoolVal L S) Nat} {ss : List S} {drawn : List (Exposed S)}
    (draws : Draws clock process.pool ss drawn pool) (made : List NativeObj) :
    (process.afterOp pool drawn made).Accounted clock := by
  refine ⟨(draws_holds inv.holds draws).perm ?_, inv.addresses, inv.first⟩
  -- what was drawn is divided among objects and structs without one, and nothing else moves
  have split := drawn_perm (L := L) drawn made
  rw [List.perm_iff_count] at split ⊢
  intro entry
  have split := split entry
  simp only [Process.entries, Process.afterOp, List.flatMap_append, List.count_append] at *
  omega

omit [DecidableEq L] [DecidableEq S] [GoStructs S] in
/-- A call that gets to its arguments has made an object for each struct when it comes back. -/
theorem made_of_reaches {m : LoaderKeyMap} {env : Word} {loaderKey : Int64} {σ : Type}
    (found : m env = some loaderKey) {go : GoRuntime b.host.mem S σ}
    (addressed : go.createEcmascriptObject ≠ 0) {c : GoCall b.host.mem S} {s : σ}
    {ctx ctx' : Ctx (Traced H)} {r : GoRes × Option GoErr}
    (reaches : c.Reaches (b.inEnv m env) ctx)
    (ran : (GoCall.run (b.inEnv m env) go s c).1 ctx = .ok r ctx') :
    ∀ modKey ∈ (drawKeys go (structs c.args) s).1,
      instanceOf env loaderKey modKey ∈ ctx'.world.heap.made := by
  intro modKey member
  have made_mem : ∀ {args : Option (List (GoVal b.host.mem S))} {before : Ctx (Traced H)},
      modKey ∈ (drawKeys go (structs (args.getD [])) s).1 →
      ctx'.world.heap.made = ((drawKeys go (structs (args.getD [])) s).1.map
        (instanceOf env loaderKey)).reverse ++ before.world.heap.made →
      instanceOf env loaderKey modKey ∈ ctx'.world.heap.made := by
    intro args before member made
    rw [made]
    exact List.mem_append_left _ (List.mem_reverse.mpr (List.mem_map_of_mem member))
  -- what `Reaches` names comes first, and the rest of the call has the arguments
  cases c with
  | eval jsCode | evalBytes jsCode | evalFile scriptFile => cases member
  | callFunc funcName args =>
    obtain ⟨before, looked⟩ := reaches
    obtain ⟨returned, _, called, same⟩ := bind_eq_ok.mp ran
    cases same
    rw [jsCallRegisteredFunc, bind_ok looked] at called
    exact made_mem member (made_call go found addressed args s called)
  | callFileFunc scriptFile args =>
    obtain ⟨src, before, read, compiled⟩ := reaches
    obtain ⟨returned, _, called, same⟩ := bind_eq_ok.mp ran
    cases same
    rw [jsCallFileFunc, read] at called
    dsimp only at called
    rw [bind_ok compiled] at called
    exact made_mem member (made_call go found addressed args s called)
  | callEcmascriptFunc ecmaFunc args =>
    obtain ⟨returned, _, called, same⟩ := bind_eq_ok.mp ran
    cases same
    obtain ⟨_, before, _, called⟩ := bind_eq_ok.mp called
    exact made_mem member (made_call go found addressed args s called)

/-! ### The invariant -/

/-- Every entry of the pool has an owner that is alive. -/
structure Process.Clean (clock : Nat → Int64) (st : Process L S) : Prop extends
    st.Accounted clock where
  exposed : st.exposed = []
  stale : st.stale = []

omit [DecidableEq L] [DecidableEq S] [GoStructs S] in
theorem Process.Clean.loaderKeys_isSome {process : Process L S} (inv : process.Clean clock)
    {e : LiveEnv L} (alive : e ∈ process.live) {closing : Option Word}
    (staying : closing ≠ some e.jsEnv.env) :
    ∃ loaderKey, process.loaderKeys closing e.jsEnv.env = some loaderKey := by
  have same : process.loaderKeys closing e.jsEnv.env = process.firstLoaderKey e.jsEnv.env := by
    cases closing with
    | none => rfl
    | some env =>
      have other : e.jsEnv.env ≠ env := fun closed => staying (closed ▸ rfl)
      exact Function.update_of_ne other ..
  rw [same, inv.first e alive]
  have counted := e.counted
  cases keys : e.jsEnv.loaderKey with
  | nil => simp [keys] at counted
  | cons loaderKey rest => exact ⟨loaderKey, rfl⟩

omit [GoStructs S] in
theorem clean_destroy {process process' : Process L S} {e : LiveEnv L}
    (inv : process.Clean clock) (nonzero : 0 ∉ e.jsEnv.loaderKey)
    (destroys : Destroys clock process e process') : process'.Clean clock := by
  have accounted := accounted_destroy inv.toAccounted destroys
  obtain ⟨alive, inside, ran⟩ := destroys
  refine ⟨accounted, inv.exposed, ?_⟩
  have removed : (e.bound.filter fun b => b.1 = 0) = [] := by
    rw [List.filter_eq_nil_iff]
    intro bound member zero
    rw [← e.map_fst_bound] at nonzero
    exact nonzero (List.mem_map.mpr ⟨bound, member, by simpa using zero⟩)
  dsimp only
  rw [removed, inv.stale]
  rfl

/-- The objects of an operation that gets its structs to C. -/
theorem drawn_made {pool : V2KPool (PoolVal L S) Nat} {closing : Option Word} {e : LiveEnv L}
    {op : EnvOp b.host.mem S} {drawn : List (Exposed S)} {ctx : Ctx (Traced H)}
    (inv : st.process.Clean clock) (alive : e ∈ st.process.live)
    (tidy : (Operation.run closing e op).Tidy b st)
    (draws : Draws clock st.process.pool (structs op.args) drawn pool)
    (ran : (op.run b (st.process.loaderKeys closing) e.jsEnv.env st.process.pool).1
      (st.ctx e.jsEnv.env).traced = .ok () ctx) :
    ∀ x ∈ drawn, (x.instance? ctx.world.heap.made).isSome := by
  have nothing : structs op.args = [] → ∀ x ∈ drawn,
      (x.instance? ctx.world.heap.made).isSome := by
    intro none x member
    rw [none] at draws
    cases draws
    cases member
  -- a variable is bound to no struct, and a call brings its structs to C
  cases op with
  | registerVar name val =>
    apply nothing
    have none : val.struct? = none := tidy
    rw [EnvOp.args, structs, List.filterMap_cons, none]
    rfl
  | call c =>
    rcases tidy with none | ⟨staying, reaches⟩
    · exact nothing none
    · intro x member
      obtain ⟨loaderKey, found⟩ := inv.loaderKeys_isSome alive staying
      obtain ⟨r, _, called, same⟩ := bind_eq_ok.mp ran
      cases same
      have keys : (drawKeys b.runtime (structs c.args) st.process.pool).1 =
          drawn.map fun x => x.modKey.toUInt64 := congrArg Prod.fst (draws_keys b draws)
      have own : x.modKey.toUInt64 ∈ (drawKeys b.runtime (structs c.args) st.process.pool).1 := by
        rw [keys]
        exact List.mem_map_of_mem member
      have made := made_of_reaches found b.addressed reaches called _ own
      exact instance?_isSome made (Int64.toInt64_toUInt64 _)

/-- An operation that makes an object for everything it draws keys for leaves none behind. -/
theorem clean_afterOp {process : Process L S} (inv : process.Clean clock)
    {pool : V2KPool (PoolVal L S) Nat} {ss : List S} {drawn : List (Exposed S)}
    (draws : Draws clock process.pool ss drawn pool) {made : List NativeObj}
    (all : ∀ x ∈ drawn, (x.instance? made).isSome) : (process.afterOp pool drawn made).Clean clock := by
  refine ⟨accounted_afterOp inv.toAccounted draws _, ?_, inv.stale⟩
  have none : (drawn.filter fun x => (x.instance? made).isNone) = [] := by
    rw [List.filter_eq_nil_iff]
    intro x member
    simpa [Option.isSome_iff_ne_none] using all x member
  rw [Process.afterOp, none, inv.exposed]
  rfl

omit [DecidableEq L] [DecidableEq S] [GoStructs S] in
theorem objectMade_of_fits {obj : NativeObj} {id : Word} {frame : Ctx H}
    (fits : FitsObject b.host frame)
    (short : id = 0 ∨ (b.host.mem.zstring id (maxStringLen + 1)).length ≤ maxStringLen) :
    b.objectMade obj id frame = [obj] := by
  obtain ⟨stack, reserve, w⟩ := frame
  have room : stack.length + 5 ≤ reserve := fits.room
  have slot : stack.length + 1 ≤ reserve := by omega
  obtain ⟨made, pushed, fresh, stays⟩ := pushNew_mk (w := w) .plain none slot
  have created : pushObject (Ctx.mk stack reserve w) = _ := pushed
  have plain : PlainUnloader b.host made.heap := stays.heap ▸ fits.plain
  -- the object is new, so its properties are taken by itself
  obtain ⟨_, after, returned⟩ : Returns (b.newObject obj id) ⟨stack, reserve, w⟩ := by
    rw [GoBridge.newObject, returns_bind_of_ok created]
    split
    · exact setUnloader_returns plain room short fresh
    · exact returns_pure _ _
  rw [GoBridge.objectMade, returned]

theorem clean_step {op : Operation b.host.mem H L S} (step : Program.Step b clock op st st')
    (tidy : op.Tidy b st) (inv : st.process.Clean clock) : st'.process.Clean clock := by
  cases step with
  | newEnv ctx unused ran =>
    exact ⟨accounted_newEnv inv.toAccounted unused ran, inv.exposed, inv.stale⟩
  | destroy destroys => exact clean_destroy inv tidy destroys
  | run drawn alive draws ran =>
    have made := drawn_made inv alive tidy draws ran
    rw [op_pool, draws_keys b draws]
    exact clean_afterOp inv draws made
  | require alive own draws =>
    obtain ⟨nonzero, fits, short⟩ := tidy
    refine clean_afterOp inv draws fun x member => ?_
    obtain rfl := List.mem_singleton.mp member
    -- C takes the handle for a module
    have taken : x.modKey.toUInt64 ≠ 0 := fun zero => nonzero (by
      rw [← Int64.toInt64_toUInt64 x.modKey, zero]
      rfl)
    rw [GoBridge.requiredObject, if_neg taken, objectMade_of_fits fits (.inr short)]
    exact instance?_isSome List.mem_cons_self (Int64.toInt64_toUInt64 _)
  | structResult draws =>
    obtain ⟨⟨e, alive, rfl⟩, staying, fits⟩ := tidy
    obtain ⟨loaderKey, found⟩ := inv.loaderKeys_isSome alive staying
    refine clean_afterOp inv draws fun x member => ?_
    obtain rfl := List.mem_singleton.mp member
    simp only [GoBridge.returnedObject, goCreateEcmascriptObject, found, Option.map_some]
    rw [objectMade_of_fits fits (.inl rfl)]
    exact instance?_isSome List.mem_cons_self (Int64.toInt64_toUInt64 _)
  | finalize alive ran =>
    exact ⟨accounted_step (.finalize alive ran) inv.toAccounted, inv.exposed, inv.stale⟩

theorem clean_of_run {ctx : Word → Ctx H} (run : Program.TidyRun b clock (.init clock ctx) st) :
    st.process.Clean clock := by
  induction run with
  | refl => exact ⟨accounted_init, rfl, rfl⟩
  | tail _ step ih =>
    obtain ⟨op, step, tidy⟩ := step
    exact clean_step step tidy ih

/-! ### The keys of what is alive -/

omit [DecidableEq L] [DecidableEq S] [GoStructs S] in
theorem mem_keys_liveEnv {e : LiveEnv L} {k : PoolVal L S} :
    k ∈ Ledger.keys (e.entries : KeyEntries L S) ↔ ∃ key, k = .int64 key ∧ key ∈ e.jsEnv.loaderKey := by
  have keys : Ledger.keys (e.entries : KeyEntries L S) = e.jsEnv.loaderKey.map .int64 := by
    rw [← e.map_fst_bound, List.map_map]
    exact List.map_map
  rw [keys, List.mem_map]
  exact exists_congr fun key => by rw [and_comm, eq_comm]

omit [DecidableEq L] [DecidableEq S] [GoStructs S] in
theorem keys_methodEntries (structP : S) (i : Nat) (keys : List Int64) :
    Ledger.keys (methodEntries structP i keys : KeyEntries L S) = keys.map .int64 := by
  induction keys generalizing i with
  | nil => rfl
  | cons key rest ih => exact congrArg _ (ih (i + 1))

omit [DecidableEq L] [DecidableEq S] [GoStructs S] in
theorem mem_keys_exposed {x : Exposed S} {k : PoolVal L S} :
    k ∈ Ledger.keys (x.entries : KeyEntries L S) ↔
      ∃ key, k = .int64 key ∧ (key = x.modKey ∨ key ∈ x.info.methodKeys) := by
  have keys : Ledger.keys (x.entries : KeyEntries L S) =
      (x.modKey :: x.info.methodKeys).map .int64 :=
    congrArg _ (keys_methodEntries x.info.structP 0 x.info.methodKeys)
  rw [keys, List.mem_map]
  refine exists_congr fun key => ?_
  rw [List.mem_cons, and_comm, eq_comm]

omit [DecidableEq L] [DecidableEq S] [GoStructs S] in
theorem keysInUse_of_clean {process : Process L S} (inv : process.Clean clock) :
    process.KeysInUse := by
  intro k
  have entries : process.entries = process.live.flatMap LiveEnv.entries ++
      process.instances.flatMap (·.entries) := by
    rw [Process.entries, inv.exposed, inv.stale]
    rfl
  rw [inv.holds.lists.isSome_iff, entries]
  simp only [Ledger.keys, List.map_append, List.map_flatMap, List.mem_append, List.mem_flatMap]
  constructor
  · rintro (⟨e, alive, member⟩ | ⟨i, made, member⟩)
    · obtain ⟨key, same, own⟩ := mem_keys_liveEnv.mp member
      exact ⟨key, same, .inl ⟨e, alive, own⟩⟩
    · obtain ⟨key, same, own⟩ := mem_keys_exposed.mp member
      exact ⟨key, same, .inr ⟨i, made, own⟩⟩
  · rintro ⟨key, same, ⟨e, alive, own⟩ | ⟨i, made, own⟩⟩
    · exact .inl ⟨e, alive, mem_keys_liveEnv.mpr ⟨key, same, own⟩⟩
    · exact .inr ⟨i, made, mem_keys_exposed.mpr ⟨key, same, own⟩⟩

omit [DecidableEq L] [DecidableEq S] [GoStructs S] in
/-- The keys of a struct without an object belong to nobody. -/
theorem not_keysInUse_of_exposed {process : Process L S} (inv : process.Accounted clock)
    {x : Exposed S} (waiting : x ∈ process.exposed) : ¬ process.KeysInUse := by
  intro inUse
  have own : PoolVal.int64 x.modKey ∈
      Ledger.keys (process.exposed.flatMap Exposed.entries : KeyEntries L S) := by
    simp only [Ledger.keys, List.map_flatMap, List.mem_flatMap]
    exact ⟨x, waiting, mem_keys_exposed.mpr ⟨x.modKey, rfl, .inl rfl⟩⟩
  have distinct := inv.holds.lists.distinct
  have here : PoolVal.int64 x.modKey ∈ Ledger.keys process.entries := by
    simp only [Process.entries, Ledger.keys, List.map_append, List.mem_append]
    exact .inr (.inr (.inl own))
  simp only [Process.entries, Ledger.keys, List.map_append] at distinct
  obtain ⟨_, others, fromLive⟩ := List.nodup_append.mp distinct
  obtain ⟨_, others, _⟩ := List.nodup_append.mp others
  obtain ⟨_, _, fromInstances⟩ := List.nodup_append.mp others
  -- nobody else has the key, as no key is in the pool twice
  obtain ⟨key, same, ⟨e, alive, held⟩ | ⟨i, made, held⟩⟩ :=
    (inUse _).mp (inv.holds.lists.isSome_iff.mpr here)
  · refine fromLive _ ?_ _ (List.mem_append_right _ (List.mem_append_left _ own)) rfl
    simp only [List.map_flatMap, List.mem_flatMap]
    exact ⟨e, alive, mem_keys_liveEnv.mpr ⟨key, same, held⟩⟩
  · refine fromInstances _ own _ ?_ rfl
    simp only [List.map_flatMap, List.mem_flatMap]
    exact ⟨i, made, mem_keys_exposed.mpr ⟨key, same, held⟩⟩

/-- A struct that a Go function returns in a coroutine, or to a finalizer that `Destroy` runs, has
keys and no object. -/
theorem structResult_leaks {closing : Option Word} {thread : Word} {x : Exposed S} {frame : Ctx H}
    (step : Program.Step b clock (.structResult closing thread x frame) st st')
    (inv : st.process.Accounted clock) (unknown : st.process.loaderKeys closing thread = none) :
    ¬ st'.process.KeysInUse := by
  cases step with
  | structResult draws =>
    have nothing : b.returnedObject (st.process.loaderKeys closing) thread x.modKey frame = [] := by
      simp only [GoBridge.returnedObject, goCreateEcmascriptObject, unknown, Option.map_none]
    refine not_keysInUse_of_exposed (accounted_afterOp inv draws _) (x := x) ?_
    rw [nothing]
    exact List.mem_append_left _ (List.mem_filter.mpr ⟨List.mem_singleton_self x, rfl⟩)

/-- In every run in which each struct whose keys are drawn gets its object and no environment is
destroyed that has the key 0. -/
theorem keys_in_use (b : GoBridge H S) (clock : Nat → Int64) (ctx : Word → Ctx H)
    (st : Program H L S) (run : Program.TidyRun b clock (.init clock ctx) st) :
    st.process.KeysInUse :=
  keysInUse_of_clean (clean_of_run run)

/-! ### A greeter for a function -/

/-- No scripts and no files; objects made for structs have neither methods nor attributes. -/
def stillBridge : GoBridge Unit Greeter where
  host := stillHost
  fns := ⟨fun _ _ _ _ w _ => .returns 0 w 0, fun _ _ _ _ => return [], fun _ _ _ _ => return []⟩
  marshal _ := none
  createEcmascriptObject := 1
  getMethodsList := 2
  getAttrsList := 3
  finalizeModule := 4
  addressed := by decide

/-- The greeter with the keys 2 and 3. -/
def drawnGreeter : Exposed Greeter := ⟨3, ⟨.greeter, .greeter, 1, [2]⟩, rfl⟩

def callGreeter (funcName : Bytes) : EnvOp stillBridge.host.mem Greeter :=
  .call (.callFunc funcName (some [.structPtr .greeter]))

def countingClock (n : Nat) : Int64 := Int64.ofNat (n + 1)

def noEnvironments : Program Unit Bool Greeter := .init countingClock fun _ => freshEnvironment

/-- The keys of a greeter for a function that is not bound stay. -/
theorem unbound_function_leaks_keys : ∃ st : Program Unit Bool Greeter,
    Program.Run stillBridge countingClock noEnvironments st ∧
    (st.process.pool.k2v (.int64 3)).isSome ∧ st.process.instances = [] ∧
    ¬ st.process.KeysInUse := by
  have start : Program.Run stillBridge countingClock noEnvironments noEnvironments := .refl
  have created := start.tail ⟨.newEnv, .newEnv (e := envAt 64 1) freshEnvironment
    (fun _ member => by cases member) (.reply (fun _ => rfl) rfl .pure)⟩
  have called := created.tail ⟨.run none (envAt 64 1) (callGreeter (ascii "f")),
    .run [drawnGreeter] List.mem_cons_self
      (.cons rfl (.reply (fun _ => rfl) rfl (.reply (fun _ => rfl) rfl .pure)) .nil) rfl⟩
  refine ⟨_, called, rfl, rfl, ?_⟩
  intro inUse
  obtain ⟨key, same, ⟨e, alive, own⟩ | ⟨i, made, _⟩⟩ := (inUse (.int64 3)).mp rfl
  · cases same
    rw [List.mem_singleton.mp alive] at own
    exact absurd own (by decide)
  · cases made

/-! ### A greeter that gets its object -/

/-- With `f` on the stack. -/
theorem stillBridge_creates {m : LoaderKeyMap} (found : m 64 = some 1) :
    ∃ v w, w.heap.made = [instanceOf 64 1 3] ∧
      (stillBridge.inEnv m 64).createInstance (oneFunction.traced.pushed (.object 1)).world
        (oneFunction.traced.pushed (.object 1)).free 1 3 = .returns (some v) w 0 := by
  have free : (oneFunction.traced.pushed (.object 1)).free = 109 := rfl
  have world : (oneFunction.traced.pushed (.object 1)).world = oneFunction.traced.world := rfl
  rw [free, world]
  obtain ⟨built, unloader, kept⟩ : ∃ built,
      stillBridge.newObject (instanceOf 64 1 3) 0 ⟨[], 109, oneFunction.traced.world.bare⟩ =
        .ok () built ∧ built.reserve - 109 = 0 := ⟨_, rfl, rfl⟩
  have lists : buildNativeObj stillHost stillBridge.fns 1 0 3 2 3 4
      ⟨[], 109, oneFunction.traced.world.bare⟩ = .ok () built := by
    have split := stillBridge.buildNativeObj_eq (instanceOf 64 1 3) 0 2 3
    exact (congrFun split _).trans (bind_ok unloader _)
  have initialized : initNativeObj stillHost stillBridge.fns 3 0 ⟨1, 0, 2, 3, 4⟩
      ⟨[], 109, oneFunction.traced.world.bare⟩ = .ok .initObjOk built := bind_ok lists _
  have made := createInstance_of_ok found (bind_ok initialized _)
  rw [kept] at made
  exact ⟨_, _, rfl, made⟩

theorem stillBridge_looks (m : LoaderKeyMap) :
    getGlobalString (stillBridge.inEnv m 64) (cString (ascii "f")) oneFunction.traced =
      .ok true (oneFunction.traced.pushed (.object 1)) := rfl

/-- The call of `f` that makes the object of the greeter. -/
theorem stillBridge_calls {m : LoaderKeyMap} (found : m 64 = some 1)
    {pool pool' : V2KPool (PoolVal Bool Greeter) Nat} {clock : Nat → Int64}
    (draws : Draws clock pool [.greeter] [drawnGreeter] pool') :
    ∃ ctx, ((callGreeter (ascii "f")).run stillBridge m 64 pool).1 oneFunction.traced = .ok () ctx ∧
      ctx.world.heap.made = [⟨64, 1, [], 3⟩] := by
  obtain ⟨v, w, created, outcome⟩ := stillBridge_creates found
  have modKey : (stillBridge.runtime.createMethodKeys .greeter pool).1 = 3 :=
    (List.cons.inj (congrArg Prod.fst (draws_keys stillBridge draws))).1
  have encoded : ((callArgs (stillBridge.inEnv m 64) stillBridge.runtime
      (some [.structPtr .greeter])).run pool).1 = (some [ArgFormat.mobject.code, 0], [3, 1]) := by
    rw [← modKey]
    rfl
  -- the look-up, the push and the call, in the order in which they run
  have looked := stillBridge_looks m
  have read : readArg ArgFormat.mobject.code [3, 1] 0 = (.mobject 3 1, 2) := by decide
  have instancePushed : pushInstance (stillBridge.inEnv m 64) 1 3
      (oneFunction.traced.pushed (.object 1)) = .ok () ⟨[v, .object 1], 110, w⟩ :=
    pushInstance_eq_ok.mpr (by
      rw [if_neg (by decide)]
      exact ⟨some v, w, 0, outcome, by decide, rfl⟩)
  have pushed : pushArgs (stillBridge.inEnv m 64) [3, 1] [ArgFormat.mobject.code, 0] 0 0
      (oneFunction.traced.pushed (.object 1)) = .ok 1 ⟨[v, .object 1], 110, w⟩ := by
    rw [pushArgs, if_neg (ArgFormat.code_ne_zero _), read, pushArg, bind_ok instancePushed,
      pushArgs, if_pos rfl]
    rfl
  have called : ∃ r ctx, callFunc (stillBridge.inEnv m 64) 1 true ⟨[v, .object 1], 110, w⟩ =
      .ok r ctx ∧ ctx.world.heap.made = w.heap.made := ⟨_, _, rfl, rfl⟩
  obtain ⟨r, ctx, called, made⟩ := called
  refine ⟨ctx, ?_, ?_⟩
  · have registered : jsCallRegisteredFunc (stillBridge.inEnv m 64) (cString (ascii "f")) true
        (some [ArgFormat.mobject.code, 0]) [3, 1] oneFunction.traced = .ok r ctx := by
      rw [jsCallRegisteredFunc, bind_ok looked]
      exact (bind_ok pushed _).trans called
    have run : (callGreeter (ascii "f")).run stillBridge m 64 pool =
        ((do
          let returned ← jsCallRegisteredFunc (stillBridge.inEnv m 64) (cString (ascii "f")) true
            ((callArgs (stillBridge.inEnv m 64) stillBridge.runtime
              (some [.structPtr .greeter])).run pool).1.1
            ((callArgs (stillBridge.inEnv m 64) stillBridge.runtime
              (some [.structPtr .greeter])).run pool).1.2
          return returned.parse stillHost.mem) >>= fun _ => pure (),
          ((callArgs (stillBridge.inEnv m 64) stillBridge.runtime
            (some [.structPtr .greeter])).run pool).2) := rfl
    rw [run, encoded]
    exact bind_eq_ok.mpr ⟨_, _, bind_eq_ok.mpr ⟨_, _, registered, rfl⟩, rfl⟩
  · rw [made, created]
    rfl

theorem keys_in_use_greeter : ∃ st : Program Unit Bool Greeter,
    Program.TidyRun stillBridge countingClock noEnvironments st ∧
    (st.process.instances.map fun i => (i.obj.env, i.modKey, i.info.methodKeys)) = [(64, 3, [2])] ∧
    st.process.KeysInUse := by
  have start : Program.TidyRun stillBridge countingClock noEnvironments noEnvironments := .refl
  have created : ∃ st pool, Program.TidyRun stillBridge countingClock noEnvironments st ∧
      envAt 64 1 ∈ st.process.live ∧ st.process.firstLoaderKey 64 = some 1 ∧
      st.ctx 64 = oneFunction ∧ st.process.instances = [] ∧
      Draws countingClock st.process.pool [.greeter] [drawnGreeter] pool :=
    ⟨_, _, start.tail ⟨.newEnv, .newEnv (e := envAt 64 1) oneFunction
        (fun _ member => by cases member) (.reply (fun _ => rfl) rfl .pure), trivial⟩,
      List.mem_cons_self, rfl, rfl, rfl,
      .cons rfl (.reply (fun _ => rfl) rfl (.reply (fun _ => rfl) rfl .pure)) .nil⟩
  obtain ⟨st, pool, created, alive, found, globals, fresh, draws⟩ := created
  obtain ⟨ctx, ran, made⟩ := stillBridge_calls found draws
  have looked : getGlobalString (stillBridge.inEnv st.process.firstLoaderKey 64) (cString (ascii "f"))
      (st.ctx 64).traced = .ok true (oneFunction.traced.pushed (.object 1)) := by
    rw [globals]
    exact stillBridge_looks _
  rw [← globals] at ran
  have called := created.tail ⟨.run none (envAt 64 1) (callGreeter (ascii "f")),
    .run [drawnGreeter] alive draws ran, .inr ⟨fun impossible => (by cases impossible), _, looked⟩⟩
  refine ⟨_, called, ?_, keys_in_use _ _ _ _ called⟩
  simp only [Process.afterOp, made, fresh]
  rfl

end DukBridge
