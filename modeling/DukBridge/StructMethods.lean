import DukBridge.CallGoFunc
import DukBridge.Finalization
import DukBridge.GoAttrs
import DukBridge.KeyLifetimes
import DukBridge.NativeObjects

/-!
# Methods of a struct, from the pool to a script

`createMethodKeys` stores the methods of a struct, `go_getMethodsList` makes a property for each
of them, and `go_modBridge` finds the method again when a script calls the property.
`removeModule` takes back what was stored, whatever modules came and went in between.
-/
namespace DukBridge

open Rendezvous KeyStore MethodKeyGenerator Effect

variable {H L S : Type}

/-! ### Methods as `reflect` lists them -/

/-- The method set of a struct type: exported names, no two the same. -/
class NamedMethods (S : Type) extends GoStructs S where
  methodName : S → Nat → Bytes
  exported : ∀ s i, i < numMethod s → ∃ c rest, methodName s i = c :: rest ∧ ¬(97 ≤ c ∧ c ≤ 122)
  distinct : ∀ s i j, i < numMethod s → j < numMethod s → methodName s i = methodName s j → i = j

class GoMethods (mem : Memory) (S : Type) extends NamedMethods S where
  /-- `structP.Method(i)` -/
  method : S → Nat → GoFunc mem S

theorem toNat_lowerLetter (c : UInt8) : (if 65 ≤ c && c ≤ 90 then c + 32 else c).toNat =
    if 65 ≤ c.toNat ∧ c.toNat ≤ 90 then c.toNat + 32 else c.toNat := by
  have capital : (65 ≤ c && c ≤ 90) = true ↔ 65 ≤ c.toNat ∧ c.toNat ≤ 90 := by
    simp [UInt8.le_iff_toNat_le]
  by_cases upper : 65 ≤ c.toNat ∧ c.toNat ≤ 90
  · rw [if_pos (capital.mpr upper), if_pos upper, UInt8.toNat_add]
    change (c.toNat + 32) % 256 = _
    omega
  · rw [if_neg (mt capital.mp upper), if_neg upper]

/-- What the capital letters become is not there before. -/
theorem lowerFirst_injective {c d : UInt8} {s t : Bytes} (upper : ¬(97 ≤ c ∧ c ≤ 122))
    (upper' : ¬(97 ≤ d ∧ d ≤ 122)) (same : lowerFirst (c :: s) = lowerFirst (d :: t)) :
    c :: s = d :: t := by
  obtain ⟨first, rfl⟩ := List.cons.inj same
  have first := congrArg UInt8.toNat first
  rw [toNat_lowerLetter, toNat_lowerLetter] at first
  have notLower : ¬(97 ≤ c.toNat ∧ c.toNat ≤ 122) := upper
  have notLower' : ¬(97 ≤ d.toNat ∧ d.toNat ≤ 122) := upper'
  have eq : c.toNat = d.toNat := by
    split at first <;> split at first <;> omega
  rw [UInt8.toNat.inj eq]

/-! ### The functions of module_loader.go -/

variable [DecidableEq L] [DecidableEq S]

/-- What a program finds in the pool, if it ends. -/
def lookUp {β : Type} (prog : KeyProg L S β) (pool : V2KPool (PoolVal L S) Nat) : Option β :=
  match runAlone V2KPool.protocol pool prog.run with
  | some (.ok b, _) => some b
  | _ => none

/-- One round of the loop of `go_getMethodsList`. -/
def goMethod (mem : Memory) [GoMethods mem S] (modBridge : Word) (info : GoModuleInfo S) (i : Nat) :
    ModuleMethod where
  name := lowerFirst (NamedMethods.methodName info.structP i)
  method := modBridge
  nargs :=
    let funType : GoFunc mem S := GoMethods.method info.structP i
    if funType.variadic then -1 else cInt funType.params.length
  udd := (info.methodKeys.getD i 0).toUInt64

def goMethods (mem : Memory) [GoMethods mem S] (modBridge : Word) (info : GoModuleInfo S) :
    List ModuleMethod :=
  (List.range info.nMethods).map (goMethod mem modBridge info)

/-- `sizeof(module_method_t)` -/
def modMethodSize : Nat := 32

/-- The methods go to the object on top of the stack of the loader's environment, which is the one
that asks; there is none to go to without the loader. -/
def goGetMethodsList (host : Host H) [GoMethods host.mem S] (modBridge : Word)
    (pool : V2KPool (PoolVal L S) Nat) (udd modHandle : Word) : Duk H (List ModuleMethod) :=
  match lookUp (getModInfo modHandle.toInt64) pool with
  | some (some info) =>
    if host.mallocs modMethodSize then
      match lookUp (getModuleLoader udd.toInt64) pool with
      | some (.ok _) => do
        addMethods host (goMethods host.mem modBridge info)
        return []
      | _ => if info.nMethods = 0 then return [] else throw .noReturn
    else return []
  | _ => return []

def goModBridge {mem : Memory} [GoMethods mem S]
    (go : GoRuntime mem S (V2KPool (PoolVal L S) Nat)) (udd : Word)
    (ft : Option NativeArgs) : StateM (V2KPool (PoolVal L S) Nat) (Option NativeResult) := do
  match lookUp (getMethodType udd.toInt64) (← get) with
  | some (.ok (structP, i)) => callGoFunc go (GoMethods.method structP i) ft
  | _ => return some .none

/-! ### Look-ups -/

variable {clock : Nat → Int64} {p p' : V2KPool (PoolVal L S) Nat} {host : Host H}

theorem lookUp_getVal {β : Type} (key : Int64) (next : PoolVal L S → KeyProg L S β) :
    lookUp (GetVal key >>= next) p = lookUp (next ((p.k2v (.int64 key)).getD .nil)) p := by
  have found : p.getVal (.int64 key) = .ok ((p.k2v (.int64 key)).getD .nil) :=
    getVal_sound ⟨p, []⟩ (.int64 key)
  have reply : V2KPool.protocol.serve p ⟨.k2v, .int64 key⟩ =
      .reply ((p.k2v (.int64 key)).getD .nil) p := by
    simp only [V2KPool.protocol, V2KPool.bgLoop, found]
  unfold lookUp
  rw [getVal_bind]
  simp only [runAlone, reply, Option.getD_some]

theorem lookUp_getMethodType {key : Int64} {structP : S} {i : Nat}
    (stored : p.k2v (.int64 key) = some (.reflectValue structP i)) :
    lookUp (getMethodType key : KeyProg L S _) p = some (.ok (structP, i)) := by
  rw [getMethodType, lookUp_getVal, stored]
  rfl

theorem lookUp_getModInfo {key : Int64} {info : GoModuleInfo S}
    (stored : p.k2v (.int64 key) = some (.goModuleInfo info)) :
    lookUp (getModInfo key : KeyProg L S _) p = some (some info) := by
  rw [getModInfo, lookUp_getVal, stored]
  rfl

/-- The keys of the module are found for what they were drawn for. -/
structure ModuleResolves (p : V2KPool (PoolVal L S) Nat) (x : Exposed S) : Prop where
  methods : ∀ i key, x.info.methodKeys[i]? = some key →
    lookUp (getMethodType key : KeyProg L S _) p = some (.ok (x.info.structP, i))
  module : lookUp (getModInfo x.modKey : KeyProg L S _) p = some (some x.info)

omit [DecidableEq L] [DecidableEq S] in
theorem mem_methodEntries {structP : S} {start i : Nat} {keys : List Int64} {key : Int64}
    (own : keys[i]? = some key) : (.int64 key, .reflectValue structP (start + i)) ∈
      (methodEntries structP start keys : KeyEntries L S) := by
  induction keys generalizing start i with
  | nil => cases own
  | cons first rest ih =>
    cases i with
    | zero =>
      cases own
      exact List.mem_cons_self
    | succ i =>
      have later : (.int64 key, .reflectValue structP (start + 1 + i)) ∈
          (methodEntries structP (start + 1) rest : KeyEntries L S) := ih own
      rw [Nat.add_assoc, Nat.add_comm 1] at later
      exact List.mem_cons_of_mem _ later

theorem moduleResolves_of_holds {x : Exposed S} {held : KeyEntries L S}
    (holds : PoolHolds clock p (x.entries ++ held)) : ModuleResolves p x := by
  constructor
  · intro i key own
    apply lookUp_getMethodType
    rw [holds.lists.exact]
    have member : (.int64 key, .reflectValue x.info.structP (0 + i)) ∈
        (methodEntries x.info.structP 0 x.info.methodKeys : KeyEntries L S) := mem_methodEntries own
    rw [Nat.zero_add] at member
    exact List.mem_append_left _ (List.mem_cons_of_mem _ member)
  · apply lookUp_getModInfo
    rw [holds.lists.exact]
    exact List.mem_append_left _ List.mem_cons_self

/-! ### Creation on fresh readings -/

/-- The next `n` readings are different and no keys of the pool. -/
def FreshReadings (clock : Nat → Int64) (p : V2KPool (PoolVal L S) Nat) (n : Nat) : Prop :=
  ∀ k < n, p.k2v (.int64 (clock (p.gen + k))) = none ∧
    ∀ j < k, clock (p.gen + j) ≠ clock (p.gen + k)

theorem FreshReadings.drawn {n : Nat} (fresh : FreshReadings clock p (n + 1)) (val : PoolVal L S) :
    FreshReadings clock (p.drawn clock val) n := by
  intro k within
  have shift : ∀ k, (p.drawn clock val).gen + k = p.gen + (k + 1) := by
    intro k
    change p.gen + 1 + k = _
    omega
  obtain ⟨unused, apart⟩ := fresh (k + 1) (by omega)
  rw [shift]
  constructor
  · rw [drawn_k2v_of_ne (apart 0 (by omega)).symm]
    exact unused
  · intro j before
    rw [shift]
    exact apart (j + 1) (by omega)

theorem runs_V2K_fresh (sound : KeyPool.Sound clock ⟨p, []⟩) (val : PoolVal L S)
    (unused : p.k2v (.int64 (clock p.gen)) = none) :
    Runs clock p (V2K val) (.ok (.int64 (clock p.gen))) (p.drawn clock val) := by
  have served := val2Key_sound sound val
  have answered : V2KPool.protocol.serve p ⟨.v2k, val⟩ =
      .reply (.int64 (clock p.gen)) (p.drawn clock val) := by
    simp only [V2KPool.protocol, V2KPool.bgLoop, served]
    rfl
  exact .reply (fun _ => unused) answered .pure

theorem runs_methodKeysFrom_fresh (sound : KeyPool.Sound clock ⟨p, []⟩) (structP : S) (i n m : Nat)
    (fresh : FreshReadings clock p (n + m)) : ∃ keys p',
      Runs clock p (methodKeysFrom structP i n : KeyProg L S (List Int64)) keys p' ∧
        KeyPool.Sound clock ⟨p', []⟩ ∧ FreshReadings clock p' m := by
  induction n generalizing i p with
  | zero =>
    rw [Nat.zero_add] at fresh
    exact ⟨[], p, runs_pure.mpr ⟨rfl, rfl⟩, sound, fresh⟩
  | succ n ih =>
    rw [Nat.add_right_comm] at fresh
    have unused := (fresh 0 (by omega)).1
    obtain ⟨keys, p', ran, sound', fresh'⟩ := ih (sound_drawn sound (.reflectValue structP i)) (i + 1)
      (fresh.drawn (.reflectValue structP i))
    refine ⟨clock p.gen :: keys, p', ?_, sound', fresh'⟩
    exact runs_bind.mpr ⟨_, _, runs_V2K_fresh sound _ unused, runs_bind.mpr ⟨_, _,
      runs_pure.mpr ⟨rfl, rfl⟩, runs_bind.mpr ⟨_, _, ran, runs_pure.mpr ⟨rfl, rfl⟩⟩⟩⟩

theorem runs_createMethodKeys_fresh [GoStructs S] (sound : KeyPool.Sound clock ⟨p, []⟩)
    (structPtr structP : S) (fresh : FreshReadings clock p (GoStructs.numMethod structP + 1)) :
    ∃ modKey methodKeys p', Runs clock p (createMethodKeys structPtr structP : KeyProg L S _)
      (modKey, methodKeys) p' := by
  obtain ⟨keys, q, ran, sound', fresh'⟩ := runs_methodKeysFrom_fresh sound structP 0 _ 1 fresh
  have unused := (fresh' 0 (by omega)).1
  exact ⟨clock q.gen, keys, _, runs_bind.mpr ⟨_, _, ran, runs_bind.mpr ⟨_, _,
    runs_V2K_fresh sound' _ unused, runs_bind.mpr ⟨_, _, runs_pure.mpr ⟨rfl, rfl⟩,
      runs_pure.mpr ⟨rfl, rfl⟩⟩⟩⟩⟩

/-! ### Removal -/

theorem runs_GetVal_any (clock : Nat → Int64) (p : V2KPool (PoolVal L S) Nat) (key : Int64) :
    Runs clock p (GetVal key) ((p.k2v (.int64 key)).getD .nil) p := by
  have got : p.getVal (.int64 key) = .ok ((p.k2v (.int64 key)).getD .nil) :=
    getVal_sound ⟨p, []⟩ (.int64 key)
  have answered : V2KPool.protocol.serve p ⟨.k2v, .int64 key⟩ =
      .reply ((p.k2v (.int64 key)).getD .nil) p := by
    simp only [V2KPool.protocol, V2KPool.bgLoop, got]
  exact .reply (fun stores => by cases stores) answered .pure

theorem runs_RemoveKey_any (sound : KeyPool.Sound clock ⟨p, []⟩) (key : Int64) :
    ∃ p', Runs clock p (RemoveKey key : KeyProg L S Unit) () p' ∧ KeyPool.Sound clock ⟨p', []⟩ := by
  have removed := removeKey_sound sound (.int64 key)
  have answered : V2KPool.protocol.serve p ⟨.removeK, .int64 key⟩ =
      .silent { p with k2v := Function.update p.k2v (.int64 key) none } := by
    simp only [V2KPool.protocol, V2KPool.bgLoop, removed]
  exact ⟨_, .silent (fun stores => by cases stores) answered .pure,
    sound.generator, sound.unhashed, sound.noVals, .empty _⟩

theorem runs_removeMethodKeys_any (sound : KeyPool.Sound clock ⟨p, []⟩) (before keys : List Int64) :
    ∃ p', Runs clock p
      (removeMethodKeys (before ++ keys) before.length keys.length : KeyProg L S Unit) () p' := by
  induction keys generalizing before p with
  | nil => exact ⟨p, runs_pure.mpr ⟨rfl, rfl⟩⟩
  | cons key rest ih =>
    obtain ⟨q, removed, sound'⟩ := runs_RemoveKey_any sound key
    obtain ⟨p', others⟩ := ih sound' (before ++ [key])
    refine ⟨p', ?_⟩
    simp only [List.length_cons, removeMethodKeys, List.getElem?_append_right (Nat.le_refl _),
      Nat.sub_self, List.getElem?_cons_zero]
    rw [List.append_assoc, List.singleton_append, List.length_append, List.length_singleton] at others
    exact runs_bind.mpr ⟨_, _, removed, others⟩

theorem runs_removeModule_found (sound : KeyPool.Sound clock ⟨p, []⟩) {x : Exposed S}
    (found : p.k2v (.int64 x.modKey) = some (.goModuleInfo x.info)) :
    ∃ p', Runs clock p (removeModule x.modKey : KeyProg L S Unit) () p' := by
  obtain ⟨q, removed, sound'⟩ := runs_RemoveKey_any sound x.modKey
  obtain ⟨p', others⟩ := runs_removeMethodKeys_any sound' [] x.info.methodKeys
  have read : Runs clock p (GetVal x.modKey) (.goModuleInfo x.info) p := by
    simpa [found] using runs_GetVal_any clock p x.modKey
  rw [x.counted] at others
  exact ⟨p', runs_bind.mpr ⟨_, _, read, runs_bind.mpr ⟨_, _, removed, others⟩⟩⟩

/-! ### Entries that come and go -/

/-- The entries under the keys of the module are new, and nothing else has changed. -/
structure Adds (p p' : V2KPool (PoolVal L S) Nat) (x : Exposed S) : Prop where
  distinct : x.keys.Nodup
  unused : ∀ key ∈ x.keys, p.k2v (.int64 key) = none
  stored : ∀ key ∈ x.keys, (p'.k2v (.int64 key)).isSome
  others : ∀ k, k ∉ x.keys.map .int64 → p'.k2v k = p.k2v k

omit [DecidableEq L] [DecidableEq S] in
theorem keys_exposed (x : Exposed S) :
    Ledger.keys (x.entries : KeyEntries L S) = x.keys.map .int64 :=
  congrArg _ (keys_methodEntries x.info.structP 0 x.info.methodKeys)

omit [DecidableEq L] [DecidableEq S] in
theorem not_mem_entries {x : Exposed S} {k v : PoolVal L S} (other : k ∉ x.keys.map .int64) :
    (k, v) ∉ x.entries := by
  intro member
  exact other (keys_exposed (L := L) x ▸ List.mem_map_of_mem member)

omit [DecidableEq L] [DecidableEq S] in
theorem adds_of_holds {x : Exposed S} {held : KeyEntries L S} (before : PoolHolds clock p held)
    (after : PoolHolds clock p' (x.entries ++ held)) : Adds p p' x := by
  have distinct := after.lists.distinct
  rw [Ledger.keys, List.map_append, List.nodup_append] at distinct
  obtain ⟨own, _, apart⟩ := distinct
  have keys : x.entries.map Prod.fst = x.keys.map (PoolVal.int64 (L := L) (S := S)) := keys_exposed x
  rw [keys] at own apart
  constructor
  · exact own.of_map
  · intro key member
    rw [← Option.not_isSome_iff_eq_none, before.lists.isSome_iff]
    intro held
    exact apart _ (List.mem_map_of_mem member) _ held rfl
  · intro key member
    rw [after.lists.isSome_iff, Ledger.keys, List.map_append, keys]
    exact List.mem_append_left _ (List.mem_map_of_mem member)
  · intro k other
    apply Option.ext
    intro v
    rw [after.lists.exact, before.lists.exact, List.mem_append]
    exact or_iff_right (not_mem_entries other)

/-- From `p` on, modules are made and removed: `now` is there in the end of `present` and the new
ones, `touched` came or went. -/
inductive Between [GoStructs S] (clock : Nat → Int64) (p : V2KPool (PoolVal L S) Nat)
    (present : List (Exposed S)) :
    List (Exposed S) → List (Exposed S) → V2KPool (PoolVal L S) Nat → Prop where
  | start : Between clock p present present [] p
  | create {now touched q q'} (x : Exposed S) (run : Between clock p present now touched q)
      (methods : x.info.nMethods = GoStructs.numMethod x.info.structP)
      (ran : Runs clock q
        (createMethodKeys x.info.structPtr x.info.structP : KeyProg L S (Int64 × List Int64))
        (x.modKey, x.info.methodKeys) q') :
      Between clock p present (x :: now) (x :: touched) q'
  | remove {before after touched q q'} (x : Exposed S)
      (run : Between clock p present (before ++ x :: after) touched q)
      (ran : Runs clock q (removeModule x.modKey : KeyProg L S Unit) () q') :
      Between clock p present (before ++ after) (x :: touched) q'

section Runs

variable [GoStructs S] {present now touched : List (Exposed S)} {held : KeyEntries L S}
  {q : V2KPool (PoolVal L S) Nat}

theorem between_holds (holds : PoolHolds clock p (present.flatMap Exposed.entries ++ held))
    (run : Between clock p present now touched q) :
    PoolHolds clock q (now.flatMap Exposed.entries ++ held) := by
  -- over the run; the entries in `held` are never the ones that are taken away
  induction run with
  | start => exact holds
  | create x _ methods ran ih =>
    obtain ⟨_, stored⟩ := runs_createMethodKeys ih ran
    rw [← methods] at stored
    rw [List.flatMap_cons, List.append_assoc]
    exact stored
  | remove x _ ran ih =>
    rename_i before after _ _ _ _
    have first : ((before ++ x :: after).flatMap Exposed.entries ++ held).Perm
        (x.entries ++ ((before ++ after).flatMap Exposed.entries ++ held)) := by
      rw [← List.append_assoc, ← List.flatMap_cons]
      exact (List.perm_middle.flatMap_right _).append_right _
    exact runs_removeModule x.counted (ih.perm first) ran

/-- What belongs to nobody who came or went is there as before. -/
theorem between_spares (run : Between clock p present now touched q) {k v : PoolVal L S}
    (apart : ∀ y ∈ touched, k ∉ y.keys.map .int64) :
    (k, v) ∈ now.flatMap Exposed.entries ↔ (k, v) ∈ present.flatMap Exposed.entries := by
  induction run with
  | start => rfl
  | create x _ _ _ ih =>
    have others := ih fun y member => apart y (List.mem_cons_of_mem _ member)
    rw [List.flatMap_cons, List.mem_append, ← others]
    exact or_iff_right (not_mem_entries (apart x List.mem_cons_self))
  | remove x _ _ ih =>
    have others := ih fun y member => apart y (List.mem_cons_of_mem _ member)
    rw [← others, List.flatMap_append, List.flatMap_append, List.flatMap_cons, List.mem_append,
      List.mem_append, List.mem_append,
      or_iff_right (not_mem_entries (apart x List.mem_cons_self))]

end Runs

/-! ### What a script calls -/

/-- The number of arguments that the function of a method is made with: one for each parameter, or
any number if the last one is variadic. -/
def declaredArgs {mem : Memory} (method : GoFunc mem S) : Int32 :=
  let nargs := if method.variadic then -1 else cInt method.params.length
  if nargs < 0 then varargs else nargs

/-- Whenever `go_getMethodsList` has listed the methods of `x` on a new object, the property of
method `i` is a function with as many arguments as the method has parameters, and calling it
calls `go_modBridge` with a `udd` that stands for method `i` of the struct, in every pool where the
keys of `x` are found. -/
def CallsMethods (host : Host H) [GoMethods host.mem S]
    (go : GoRuntime host.mem S (V2KPool (PoolVal L S) Nat)) (modBridge : Word)
    (p : V2KPool (PoolVal L S) Nat) (x : Exposed S) : Prop :=
  ∀ (ctx ctx' : Ctx H) (obj : Nat) (rest : List JsVal) (udd modHandle : Word)
    (listed : List ModuleMethod), modHandle.toInt64 = x.modKey → ctx.stack = .object obj :: rest →
    obj < ctx.world.nextId → HiddenWrites host →
    PlainNames host ctx.world.heap obj ((goMethods host.mem modBridge x.info).map ModuleMethod.name) →
    host.mallocs modMethodSize = true →
    goGetMethodsList host modBridge p udd modHandle ctx = .ok listed ctx' →
    ∀ i < GoStructs.numMethod x.info.structP, ∃ f udd',
      Has (ctx'.world.objects obj) (lowerFirst (NamedMethods.methodName x.info.structP i)) (.object f) ∧
      (ctx'.world.objects f).native =
        some (.nativeFuncBridge, declaredArgs (GoMethods.method x.info.structP i : GoFunc host.mem S)) ∧
      (∀ call : Ctx H, call.world.objects f = ctx'.world.objects f →
        call.height + 5 ≤ call.reserve →
        getNativeFunc host (.object f) call = .ok (modBridge, udd') call) ∧
      ∀ q, ModuleResolves q x → ∀ ft,
        goModBridge go udd' ft q = callGoFunc go (GoMethods.method x.info.structP i) ft q

omit [DecidableEq S] in
theorem names_nodup (mem : Memory) [GoMethods mem S] (modBridge : Word) {info : GoModuleInfo S}
    (counted : info.nMethods = GoStructs.numMethod info.structP) :
    ((goMethods mem modBridge info).map ModuleMethod.name).Nodup := by
  rw [goMethods, List.map_map, counted]
  refine List.Nodup.map_on ?_ List.nodup_range
  intro i member j member' same
  have within := List.mem_range.mp member
  have within' := List.mem_range.mp member'
  obtain ⟨c, s, name, upper⟩ := NamedMethods.exported info.structP i within
  obtain ⟨d, t, name', upper'⟩ := NamedMethods.exported info.structP j within'
  have same : lowerFirst (NamedMethods.methodName info.structP i) =
      lowerFirst (NamedMethods.methodName info.structP j) := same
  rw [name, name'] at same
  apply NamedMethods.distinct info.structP i j within within'
  rw [name, name']
  exact lowerFirst_injective upper upper' same

theorem goGetMethodsList_ok [GoMethods host.mem S] {modBridge : Word} {info : GoModuleInfo S}
    {udd modHandle : Word} {listed : List ModuleMethod} {ctx ctx' : Ctx H}
    (found : lookUp (getModInfo modHandle.toInt64 : KeyProg L S _) p = some (some info))
    (memory : host.mallocs modMethodSize = true)
    (returned : goGetMethodsList host modBridge p udd modHandle ctx = .ok listed ctx') :
    listed = [] ∧ addMethods host (goMethods host.mem modBridge info) ctx = .ok () ctx' := by
  unfold goGetMethodsList at returned
  rw [found] at returned
  simp only [memory, if_true] at returned
  -- without a loader the call comes back only if there is nothing to add
  have without : (if info.nMethods = 0 then pure [] else throw .noReturn :
      Duk H (List ModuleMethod)) ctx = .ok listed ctx' →
      listed = [] ∧ addMethods host (goMethods host.mem modBridge info) ctx = .ok () ctx' := by
    intro returned
    split at returned
    · next nothing =>
      cases returned
      rw [goMethods, nothing]
      exact ⟨rfl, rfl⟩
    · cases returned
  generalize lookUp (getModuleLoader udd.toInt64 : KeyProg L S _) p = loader at returned
  cases loader with
  | none => exact without returned
  | some out =>
    cases out with
    | error text => exact without returned
    | ok le =>
      obtain ⟨_, _, added, ended⟩ := bind_eq_ok.mp returned
      cases ended
      exact ⟨rfl, added⟩

theorem goModBridge_resolved {mem : Memory} [GoMethods mem S]
    (go : GoRuntime mem S (V2KPool (PoolVal L S) Nat)) {x : Exposed S} (resolves : ModuleResolves p x)
    {i : Nat} (within : i < x.info.methodKeys.length) (ft : Option NativeArgs) :
    goModBridge go (x.info.methodKeys.getD i 0).toUInt64 ft p =
      callGoFunc go (GoMethods.method x.info.structP i) ft p := by
  have own : x.info.methodKeys[i]? = some (x.info.methodKeys.getD i 0) := by
    rw [List.getD_eq_getElem?_getD, List.getElem?_eq_getElem within]
    rfl
  have found := resolves.methods i _ own
  have called : goModBridge go (x.info.methodKeys.getD i 0).toUInt64 ft p =
      (match lookUp (getMethodType (x.info.methodKeys.getD i 0) : KeyProg L S _) p with
        | some (.ok (structP, i)) => callGoFunc go (GoMethods.method structP i) ft
        | _ => pure (some NativeResult.none)) p := rfl
  rw [called, found]

theorem callsMethods_of_resolves (host : Host H) [GoMethods host.mem S]
    (go : GoRuntime host.mem S (V2KPool (PoolVal L S) Nat)) (modBridge : Word) {x : Exposed S}
    (counted : x.info.nMethods = GoStructs.numMethod x.info.structP)
    (resolves : ModuleResolves p x) : CallsMethods host go modBridge p x := by
  intro ctx ctx' obj rest udd modHandle listed handle stack old hidden plain memory returned i within
  have found := resolves.module
  rw [← handle] at found
  obtain ⟨_, added⟩ := goGetMethodsList_ok found memory returned
  obtain ⟨_, has, _⟩ := addMethods_ok hidden plain (names_nodup host.mem modBridge counted) stack old
    added
  have member : goMethod host.mem modBridge x.info i ∈ goMethods host.mem modBridge x.info :=
    List.mem_map_of_mem (List.mem_range.mpr (counted ▸ within))
  obtain ⟨f, _, _, property, isMethod⟩ := has _ member
  refine ⟨f, (x.info.methodKeys.getD i 0).toUInt64, property, isMethod.native, ?_, ?_⟩
  · intro call same room
    have isMethod : IsMethod call.world f (goMethod host.mem modBridge x.info i) := by
      obtain ⟨native, nativeFunc, udd⟩ := isMethod
      rw [← same] at native nativeFunc udd
      exact ⟨native, nativeFunc, udd⟩
    exact getNativeFunc_run isMethod room
  · intro q resolves ft
    exact goModBridge_resolved go resolves (by rw [x.counted, counted]; exact within) ft

/-! ### The two functions are inverse -/

/-- On fresh readings `createMethodKeys` adds the entries of one module, which are found for the
struct and its methods and called through their properties until `removeModule` takes them away
again; modules that come and go in between keep what is theirs. -/
theorem createMethodKeys_removeModule (host : Host H) [GoMethods host.mem S]
    (go : GoRuntime host.mem S (V2KPool (PoolVal L S) Nat)) (modBridge : Word)
    (clock : Nat → Int64) (p : V2KPool (PoolVal L S) Nat) (present : List (Exposed S))
    (held : KeyEntries L S) (holds : PoolHolds clock p (present.flatMap Exposed.entries ++ held))
    (structPtr structP : S) (fresh : FreshReadings clock p (GoStructs.numMethod structP + 1)) :
    ∃ (x : Exposed S) (p₁ : V2KPool (PoolVal L S) Nat),
      Runs clock p (createMethodKeys structPtr structP : KeyProg L S _)
        (x.modKey, x.info.methodKeys) p₁ ∧
      x.info = ⟨structPtr, structP, GoStructs.numMethod structP, x.info.methodKeys⟩ ∧
      x.keys.length = GoStructs.numMethod structP + 1 ∧ Adds p p₁ x ∧
      ∀ now touched q, Between clock p₁ present now touched q →
        ModuleResolves q x ∧ CallsMethods host go modBridge q x ∧
        ∃ q', Runs clock q (removeModule x.modKey : KeyProg L S Unit) () q' ∧
          PoolHolds clock q' (now.flatMap Exposed.entries ++ held) ∧
          ∀ k, (∀ y ∈ touched, k ∉ y.keys.map .int64) → q'.k2v k = p.k2v k := by
  obtain ⟨modKey, methodKeys, p₁, created⟩ :=
    runs_createMethodKeys_fresh holds.sound structPtr structP fresh
  obtain ⟨count, stored⟩ := runs_createMethodKeys holds created
  let x : Exposed S := ⟨modKey, ⟨structPtr, structP, GoStructs.numMethod structP, methodKeys⟩, count⟩
  have stored : PoolHolds clock p₁ (x.entries ++ (present.flatMap Exposed.entries ++ held)) := stored
  refine ⟨x, p₁, created, rfl, congrArg Nat.succ count, adds_of_holds holds stored, ?_⟩
  intro now touched q run
  -- the module is one of the owners that the others leave alone
  have owned := between_holds (stored.perm (List.perm_append_comm_assoc ..)) run
  have first : PoolHolds clock q (x.entries ++ (now.flatMap Exposed.entries ++ held)) :=
    owned.perm (List.perm_append_comm_assoc ..)
  have resolves := moduleResolves_of_holds first
  have found : q.k2v (.int64 x.modKey) = some (.goModuleInfo x.info) := by
    rw [first.lists.exact]
    exact List.mem_append_left _ List.mem_cons_self
  obtain ⟨q', removed⟩ := runs_removeModule_found first.sound found
  have rest := runs_removeModule x.counted first removed
  refine ⟨resolves, callsMethods_of_resolves host go modBridge rfl resolves, q', removed, rest, ?_⟩
  intro k apart
  apply Option.ext
  intro v
  rw [rest.lists.exact, holds.lists.exact, List.mem_append, List.mem_append,
    between_spares run apart]

/-! ### A greeter with a method `Greet` -/

instance : NamedMethods Greeter where
  methodName _ _ := ascii "Greet"
  exported _ _ _ := ⟨71, ascii "reet", by decide, by decide⟩
  distinct _ i j within within' _ := (Nat.lt_one_iff.mp within).trans (Nat.lt_one_iff.mp within').symm

/-- func () Greet() -/
instance : GoMethods stillBridge.host.mem Greeter where
  method _ _ := ⟨[], false, fun _ => [], fun _ _ => false, fun _ => none⟩

theorem createMethodKeys_removeModule_greeter :
    ∃ (x : Exposed Greeter) (p₁ q' : V2KPool (PoolVal Bool Greeter) Nat),
      x.keys = [2, 1] ∧ Adds (methodKeyGenerator countingClock) p₁ x ∧ ModuleResolves p₁ x ∧
      CallsMethods stillBridge.host stillBridge.runtime 7 p₁ x ∧
      Runs countingClock p₁ (removeModule x.modKey : KeyProg Bool Greeter Unit) () q' ∧
      ∀ k, q'.k2v k = none := by
  have apart : ∀ k < 2, ∀ j < k, countingClock (0 + j) ≠ countingClock (0 + k) := by decide
  obtain ⟨x, p₁, created, _, _, adds, inverse⟩ := createMethodKeys_removeModule (L := Bool)
    stillBridge.host stillBridge.runtime 7 countingClock (methodKeyGenerator countingClock) [] []
    poolHolds_init Greeter.greeter Greeter.greeter fun k within => ⟨rfl, apart k within⟩
  obtain ⟨resolves, calls, q', removed, _, restored⟩ := inverse [] [] p₁ .start
  have drawn := congrArg (Option.map Prod.fst) created.runAlone_eq
  have drawn : some (Except.ok (2, [1])) =
      (some (.ok (x.modKey, x.info.methodKeys)) : Option (Except GoPanic _)) := drawn
  simp only [Option.some.injEq, Except.ok.injEq, Prod.mk.injEq] at drawn
  have keys : x.keys = [2, 1] := by rw [Exposed.keys, ← drawn.1, ← drawn.2]
  exact ⟨x, p₁, q', keys, adds, resolves, calls, removed, fun k => restored k (by simp)⟩

end DukBridge
