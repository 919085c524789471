import DukBridge.DuktapeRules
import DukBridge.Lib.ExactIntegers
import DukBridge.NativeModules

/-!
# The registry of module loaders

The number of loaders is one hidden property of the global object, and every loader is an
object under a hidden property of its own. The search reads them in the order of their
numbers.
-/
namespace DukBridge

open Effect

variable {H : Type} {host : Host H} {fns : LoaderFns H} {ctx ctx' : Ctx H}

/-! ### What the global object holds -/

/-- The object has the properties `js_add_module_loader` gives a loader. -/
structure HoldsLoader (o : ObjectRec) (l : ModuleLoader) : Prop where
  modExt : o.own (ascii "_nme_") = some (.data (.string l.modExt) true true)
  loadModule : o.own (ascii "_nml_") = some (.data (.pointer l.loadModule) true true)
  getMethodsList : o.own (ascii "_nmm_") = some (.data (.pointer l.getMethodsList) true true)
  getAttrsList : o.own (ascii "_nma_") = some (.data (.pointer l.getAttrsList) true true)
  finalizer : o.own (ascii "_nmf_") = some (.data (.pointer l.finalizer) true true)
  udd : o.own (ascii "_nu_") = some (.data (.pointer l.udd) true true)

def slotKey (i : Nat) : Bytes := getNativeModNum (UInt64.ofNat i)

/-- Slot `i` holds this loader. -/
def Filed (w : World H) (i : Nat) (l : ModuleLoader) : Prop :=
  ∃ id configurable, (w.objects globalId).own (slotKey i) =
      some (.data (.object id) true configurable) ∧
    id ≠ globalId ∧ id < w.nextId ∧ HoldsLoader (w.objects id) l

/-- The hidden count is `n`; it is not there before the first loader is. -/
def Counted (w : World H) : Nat → Prop
  | 0 => (w.objects globalId).own nativeModCountKey = none
  | n + 1 => ∃ configurable, (w.objects globalId).own nativeModCountKey =
      some (.data (.number (Binary64.ofInt (n + 1))) true configurable)

structure Registered (w : World H) (loaders : List ModuleLoader) : Prop where
  count : Counted w loaders.length
  slots : ∀ i l, loaders[i]? = some l → Filed w i l
  allocated : globalId < w.nextId

/-- Hidden names are out of reach for scripts, and nobody has given `Object.prototype` a property
with one of the other names. -/
structure PlainLoaders (host : Host H) (heap : H) : Prop where
  reads : ∀ w free, host.readThrough w free (.object globalId) nativeModCountKey =
    .returns none w 0
  count : ∀ w free v, host.writeThrough w free globalId nativeModCountKey v = none
  slots : ∀ w free i v, host.writeThrough w free globalId (slotKey i) v = none
  names : ∀ w free id v, w.heap = heap → ∀ name ∈ ["_nme_", "_nml_", "_nmm_", "_nma_", "_nmf_", "_nu_"],
    host.writeThrough w free id (ascii name) v = none

/-- `DUK_HOBJECT_MAX_PROPERTIES`; a put that needs more throws. -/
def maxProperties : Nat := 0x3fffffff

def ObjectRec.WithinLimit (o : ObjectRec) : Prop :=
  ∀ keys : List Bytes, keys.Nodup → (∀ key ∈ keys, (o.own key).isSome) → keys.length ≤ maxProperties

/-- Calls of `js_add_module_loader` that returned, one after the other. -/
inductive Registrations (host : Host H) (ctx : Ctx H) : List ModuleLoader → Ctx H → Prop where
  | start : Registrations host ctx [] ctx
  | add {loaders ctx' l ctx''} (earlier : Registrations host ctx loaders ctx')
      (ran : jsAddModuleLoader host l.udd l.modExt l.loadModule l.getMethodsList l.getAttrsList
        l.finalizer ctx' = .ok () ctx'')
      (limited : ctx''.global.WithinLimit) : Registrations host ctx (loaders ++ [l]) ctx''

/-! ### Names -/

theorem slotKey_injective {i j : Nat} (small : i < 2 ^ 64) (small' : j < 2 ^ 64)
    (same : slotKey i = slotKey j) : i = j := by
  have words := createHiddenSymbol_injective _ same
  have values := congrArg UInt64.toNat words
  rwa [UInt64.toNat_ofNat', UInt64.toNat_ofNat', Nat.mod_eq_of_lt small,
    Nat.mod_eq_of_lt small'] at values

theorem slotKey_ne_count (i : Nat) : slotKey i ≠ nativeModCountKey := by
  intro same
  have tails : ascii "_nm_" ++ decimal (UInt64.ofNat i).toNat = ascii "_nmc_" :=
    (List.cons.inj same).2
  have fourth := congrArg (fun key => key[3]?) tails
  rw [List.getElem?_append_left (by decide)] at fourth
  exact absurd fourth (by decide)

/-! ### Reads -/

theorem getPropString_mk {w : World H} {obj i reserve : Nat} {stack : List JsVal} {key : Bytes}
    {v : JsVal} {writable configurable : Bool} (target : stack[i]? = some (.object obj))
    (own : (w.objects obj).own key = some (.data v writable configurable))
    (room : stack.length + 3 ≤ reserve) :
    getPropString host i key ⟨stack, reserve, w⟩ = .ok true ⟨v :: stack, reserve, w⟩ := by
  have top : (Ctx.mk stack reserve w).get i = .object obj := by
    rw [Ctx.get, List.getD_eq_getElem?_getD, target]
    rfl
  have reads : Reads host ⟨stack, reserve, w⟩ ((Ctx.mk stack reserve w).get i) key (some v) := by
    rw [top]
    exact Reads.own own
  rw [getPropString_found reads]
  exact if_pos room

/-! ### Writes -/

variable {id : Nat} {key : Bytes} {v : JsVal}

theorem putPropString_ok {rest : List JsVal} (stack : ctx.stack = v :: .object id :: rest)
    (plain : host.writeThrough ctx.world ctx.free id key v = none)
    (returned : putPropString host 1 key ctx = .ok () ctx') :
    ∃ configurable, (ctx.world.objects id).accepts key = some configurable ∧
      ctx' = ⟨.object id :: rest, ctx.reserve,
        ctx.world.setOwn id key (some (.data v true configurable))⟩ := by
  obtain ⟨_, _, room, writing⟩ := bind_eq_ok.mp returned
  obtain ⟨_, rfl⟩ := requireRoom_eq_ok.mp room
  rw [bind_ok (getAt_run 1), bind_ok (getAt_run 0)] at writing
  simp only [Ctx.get, stack, List.getD_cons_succ, List.getD_cons_zero] at writing
  obtain ⟨_, wrote, write, popped⟩ := bind_eq_ok.mp writing
  rw [writeProp_run plain] at write
  split at write
  · next configurable accepts =>
    cases write
    obtain ⟨_, rfl⟩ := popN_eq_ok.mp popped
    exact ⟨configurable, accepts, by rw [stack]; rfl⟩
  · cases write

/-! ### An object under construction -/

/-- Properties as plain writes leave them, the last write first. -/
def ownOf (written : List (Bytes × JsVal)) (key : Bytes) : Option PropSlot :=
  (written.lookup key).map fun v => .data v true true

theorem update_ownOf (written : List (Bytes × JsVal)) (key : Bytes) (v : JsVal) :
    Function.update (ownOf written) key (some (.data v true true)) = ownOf ((key, v) :: written) := by
  funext key'
  by_cases same : key' = key
  · subst same
    simp [ownOf]
  · have other : (key' == key) = false := by simpa using same
    simp [ownOf, List.lookup_cons, same, other]

/-- The new object has been written to, and nothing else since `w`. -/
structure Built (w : World H) (id : Nat) (written : List (Bytes × JsVal)) (w' : World H) : Prop where
  object : w'.objects id = ⟨.plain, ownOf written, true, none⟩
  others : ∀ j, j ≠ id → w'.objects j = w.objects j
  nextId : w'.nextId = w.nextId
  heap : w'.heap = w.heap

variable {w : World H} {written : List (Bytes × JsVal)} {rest : List JsVal}

theorem Built.put (built : Built w id written ctx.world) (absent : written.lookup key = none)
    (stack : ctx.stack = v :: .object id :: rest)
    (plain : host.writeThrough ctx.world ctx.free id key v = none)
    (returned : putPropString host 1 key ctx = .ok () ctx') :
    ctx'.stack = .object id :: rest ∧ Built w id ((key, v) :: written) ctx'.world := by
  obtain ⟨configurable, accepts, rfl⟩ := putPropString_ok stack plain returned
  have new : configurable = true := by
    simpa [ObjectRec.accepts, built.object, ownOf, absent, eq_comm] using accepts
  subst new
  refine ⟨rfl, ?_, ?_, built.nextId, built.heap⟩
  · simp [World.setOwn, World.setObject, built.object, update_ownOf]
  · intro j other
    simp [World.setOwn, World.setObject, other, built.others j other]

theorem Built.pointer {p : Word} (built : Built w id written ctx.world)
    (absent : written.lookup key = none) (stack : ctx.stack = .object id :: rest)
    (plain : ∀ free, host.writeThrough ctx.world free id key (.pointer p) = none)
    (returned : putPointer host p key ctx = .ok () ctx') :
    ctx'.stack = .object id :: rest ∧ Built w id ((key, .pointer p) :: written) ctx'.world := by
  obtain ⟨_, pushed, push, writing⟩ := bind_eq_ok.mp returned
  obtain ⟨_, rfl⟩ := push_eq_ok.mp push
  have pair : (ctx.pushed (.pointer p)).stack = .pointer p :: .object id :: rest := by
    rw [Ctx.pushed_stack, stack]
  have below : Built w id written (ctx.pushed (.pointer p)).world := built
  exact below.put absent pair (plain _) writing

/-! ### One more loader -/

/-- The rest of `js_add_module_loader`, on `[ global, loader_count ]`. -/
def fileLoader (host : Host H) (l : ModuleLoader) (loaderCount : Int32) : Duk H Unit := do
  pop
  pushInt (loaderCount + 1)
  putPropString host 1 nativeModCountKey
  pushObject
  pushBytes l.modExt
  putPropString host 1 (ascii "_nme_")
  putPointer host l.loadModule (ascii "_nml_")
  putPointer host l.getMethodsList (ascii "_nmm_")
  putPointer host l.getAttrsList (ascii "_nma_")
  putPointer host l.finalizer (ascii "_nmf_")
  putPointer host l.udd (ascii "_nu_")
  putPropString host 1 (getNativeModNum (sizeOfInt loaderCount))
  pop

theorem toInt32_count {n : Nat} (small : n ≤ maxProperties + 1) :
    (Binary64.ofInt n).toModel.toInt32.toInt = n := by
  unfold maxProperties at small
  have exact : Binary64.Is (Binary64.ofInt n) n := Binary64.ofInt_is (by simp; omega)
  have least : Int32.minValue.toInt ≤ (n : Int) := by
    have value : Int32.minValue.toInt = -2147483648 := by decide
    omega
  have most : (n : Int) ≤ Int32.maxValue.toInt := by
    have value : Int32.maxValue.toInt = 2147483647 := by decide
    omega
  exact exact.toInt32 least most

theorem requireInt_count {n : Nat} {rest : List JsVal} {k : Int32} (small : n ≤ maxProperties + 1)
    (stack : ctx.stack = .number (Binary64.ofInt n) :: rest)
    (returned : requireInt ctx = .ok k ctx') : k.toInt = n ∧ ctx' = ctx := by
  rw [requireInt, bind_ok (getAt_run 0)] at returned
  simp only [Ctx.get, stack, List.getD_cons_zero] at returned
  cases returned
  exact ⟨toInt32_count small, rfl⟩

theorem loaderCount_read {loaders : List ModuleLoader} {l : ModuleLoader}
    (plain : PlainLoaders host ctx.world.heap) (registered : Registered ctx.world loaders)
    (small : loaders.length ≤ maxProperties)
    (returned : jsAddModuleLoader host l.udd l.modExt l.loadModule l.getMethodsList l.getAttrsList
      l.finalizer ctx = .ok () ctx') :
    ∃ (s : Ctx H) (x : JsVal) (n : Int32), s.stack = x :: .object globalId :: ctx.stack ∧
      s.world = ctx.world ∧ n.toInt = loaders.length ∧ fileLoader host l n s = .ok () ctx' := by
  obtain ⟨_, s, pushed, reading⟩ := bind_eq_ok.mp returned
  obtain ⟨_, rfl⟩ := push_eq_ok.mp pushed
  obtain ⟨found, t, read, counting⟩ := bind_eq_ok.mp reading
  have count := registered.count
  cases total : loaders.length with
  | zero =>
    -- no loader has been counted yet, and nothing is inherited under that name
    rw [total] at count
    have absent : Reads host (ctx.pushed (.object globalId)) (.object globalId) nativeModCountKey
        none := Reads.inherited count (plain.reads _ _)
    rw [getPropString_missing absent] at read
    split at read
    · cases read
      exact ⟨(ctx.pushed (.object globalId)).pushed .undefined, _, 0, rfl, rfl, rfl, counting⟩
    · cases read
  | succ n =>
    rw [total] at count
    -- the count comes back from the number it was stored as
    obtain ⟨configurable, own⟩ := count
    have held : Reads host (ctx.pushed (.object globalId)) (.object globalId) nativeModCountKey
        (some (.number (Binary64.ofInt (n + 1)))) := Reads.own own
    rw [getPropString_found held] at read
    split at read
    · cases read
      obtain ⟨k, u, required, filing⟩ := bind_eq_ok.mp counting
      obtain ⟨value, same⟩ := requireInt_count (n := n + 1) (by omega) rfl required
      subst same
      exact ⟨(ctx.pushed (.object globalId)).pushed (.number (Binary64.ofInt (n + 1))), _, k, rfl,
        rfl, value, filing⟩
    · cases read

/-- The object under a new number, and the number counted. -/
structure FiledAt (w w' : World H) (n : Nat) (l : ModuleLoader) : Prop where
  loader : HoldsLoader (w'.objects w.nextId) l
  own : ∃ c c', (w'.objects globalId).own = Function.update (Function.update
    (w.objects globalId).own nativeModCountKey (some (.data (.number (Binary64.ofInt (n + 1))) true c)))
    (slotKey n) (some (.data (.object w.nextId) true c'))
  others : ∀ j, j ≠ globalId → j ≠ w.nextId → w'.objects j = w.objects j
  nextId : w'.nextId = w.nextId + 1
  heap : w'.heap = w.heap

theorem sizeOfInt_of_nonneg {k : Int32} {n : Nat} (value : k.toInt = n) :
    sizeOfInt k = UInt64.ofNat n := by
  apply UInt64.toNat.inj
  have word := toNat_toUInt64 k.toInt64
  rw [Int32.toInt_toInt64, value] at word
  rw [sizeOfInt, UInt64.toNat_ofNat']
  omega

theorem fileLoader_ok {l : ModuleLoader} {k : Int32} {n : Nat} {x : JsVal} {rest : List JsVal}
    (plain : PlainLoaders host ctx.world.heap) (value : k.toInt = n) (small : n ≤ maxProperties)
    (allocated : globalId < ctx.world.nextId)
    (stack : ctx.stack = x :: .object globalId :: rest)
    (ran : fileLoader host l k ctx = .ok () ctx') :
    ctx'.stack = rest ∧ FiledAt ctx.world ctx'.world n l := by
  unfold maxProperties at small
  obtain ⟨_, reserve, w⟩ := ctx
  cases stack
  obtain ⟨_, s1, popped, ran1⟩ := bind_eq_ok.mp ran
  obtain ⟨_, rfl⟩ := popN_eq_ok.mp popped
  obtain ⟨_, s2, pushed, ran2⟩ := bind_eq_ok.mp ran1
  obtain ⟨_, rfl⟩ := push_eq_ok.mp pushed
  obtain ⟨_, s3, counted, ran3⟩ := bind_eq_ok.mp ran2
  obtain ⟨c, _, rfl⟩ := putPropString_ok rfl (plain.count _ _ _) counted
  -- the number counts one more; the object to come is the only one written to until it is filed
  obtain ⟨_, s4, created, ran4⟩ := bind_eq_ok.mp ran3
  have made := pushNew_ok created
  have apart : globalId ≠ w.nextId := Nat.ne_of_lt allocated
  have plainName : ∀ name ∈ ["_nme_", "_nml_", "_nmm_", "_nma_", "_nmf_", "_nu_"],
      ∀ w' : World H, w'.heap = w.heap → ∀ free v,
        host.writeThrough w' free w.nextId (ascii name) v = none :=
    fun name member w' same free v => plain.names w' free _ v same name member
  have start : Built s4.world w.nextId [] (s4.pushed (.string l.modExt)).world :=
    ⟨by rw [Ctx.pushed_world, made]; exact Function.update_self .., fun _ _ => rfl, rfl, rfl⟩
  have heap : s4.world.heap = w.heap := by rw [made]; rfl
  have stack5 : (s4.pushed (.string l.modExt)).stack =
      .string l.modExt :: .object w.nextId :: .object globalId :: rest := by
    rw [Ctx.pushed_stack, made]
    rfl
  obtain ⟨_, s5, named, ran5⟩ := bind_eq_ok.mp ran4
  obtain rfl := pushBytes_ok named
  obtain ⟨_, s6, put, ran6⟩ := bind_eq_ok.mp ran5
  obtain ⟨stack6, built6⟩ := start.put rfl stack5 (plainName "_nme_" (by simp) _ heap _ _) put
  obtain ⟨_, s7, put, ran7⟩ := bind_eq_ok.mp ran6
  obtain ⟨stack7, built7⟩ :=
    built6.pointer rfl stack6 (fun free => plainName "_nml_" (by simp) _ (built6.heap.trans heap) _ _) put
  obtain ⟨_, s8, put, ran8⟩ := bind_eq_ok.mp ran7
  obtain ⟨stack8, built8⟩ :=
    built7.pointer rfl stack7 (fun free => plainName "_nmm_" (by simp) _ (built7.heap.trans heap) _ _) put
  obtain ⟨_, s9, put, ran9⟩ := bind_eq_ok.mp ran8
  obtain ⟨stack9, built9⟩ :=
    built8.pointer rfl stack8 (fun free => plainName "_nma_" (by simp) _ (built8.heap.trans heap) _ _) put
  obtain ⟨_, s10, put, ran10⟩ := bind_eq_ok.mp ran9
  obtain ⟨stack10, built10⟩ :=
    built9.pointer rfl stack9 (fun free => plainName "_nmf_" (by simp) _ (built9.heap.trans heap) _ _) put
  obtain ⟨_, s11, put, ran11⟩ := bind_eq_ok.mp ran10
  obtain ⟨stack11, built11⟩ :=
    built10.pointer rfl stack10 (fun free => plainName "_nu_" (by simp) _ (built10.heap.trans heap) _ _) put
  obtain ⟨_, s12, put, last⟩ := bind_eq_ok.mp ran11
  rw [sizeOfInt_of_nonneg value] at put
  obtain ⟨c', _, rfl⟩ := putPropString_ok stack11 (plain.slots _ _ n _) put
  obtain ⟨_, rfl⟩ := popN_eq_ok.mp last
  have counts : (k + 1).toInt = (n : Int) + 1 := by
    have one : (1 : Int32).toInt = 1 := by decide
    rw [Int32.toInt_add, value, one]
    exact Int.bmod_eq_of_le (by omega) (by omega)
  refine ⟨rfl, ?_, ⟨c, c', ?_⟩, ?_, ?_, ?_⟩
  · -- the last write was to the global object
    have kept : (s11.world.setOwn globalId (slotKey n)
        (some (.data (.object w.nextId) true c'))).objects w.nextId = s11.world.objects w.nextId :=
      Function.update_of_ne apart.symm ..
    change HoldsLoader (World.objects _ w.nextId) l
    rw [kept, built11.object]
    exact ⟨rfl, rfl, rfl, rfl, rfl, rfl⟩
  · have before : s11.world.objects globalId = _ := built11.others globalId apart
    simp [World.setOwn, World.setObject, before, made, apart, counts]
  · intro j other new
    have before : s11.world.objects j = _ := built11.others j new
    simp [World.setOwn, World.setObject, before, made, other, new]
  · refine built11.nextId.trans ?_
    rw [made]
    rfl
  · exact built11.heap.trans heap

theorem jsAddModuleLoader_ok {loaders : List ModuleLoader} {l : ModuleLoader}
    (plain : PlainLoaders host ctx.world.heap) (registered : Registered ctx.world loaders)
    (small : loaders.length ≤ maxProperties)
    (returned : jsAddModuleLoader host l.udd l.modExt l.loadModule l.getMethodsList l.getAttrsList
      l.finalizer ctx = .ok () ctx') :
    ctx'.stack = ctx.stack ∧ FiledAt ctx.world ctx'.world loaders.length l := by
  obtain ⟨s, x, n, stack, same, value, filing⟩ :=
    loaderCount_read plain registered small returned
  rw [← same] at plain registered ⊢
  exact fileLoader_ok plain value small registered.allocated stack filing

theorem filed_of_filedAt {w w' : World H} {n i : Nat} {l l' : ModuleLoader}
    (at_n : FiledAt w w' n l) (small : n ≤ maxProperties) (below : i < n) (filed : Filed w i l') :
    Filed w' i l' := by
  unfold maxProperties at small
  obtain ⟨id, configurable, own, notGlobal, old, holds⟩ := filed
  obtain ⟨c, c', written⟩ := at_n.own
  have otherSlot : slotKey i ≠ slotKey n := by
    intro same
    have := slotKey_injective (by omega) (by omega) same
    omega
  refine ⟨id, configurable, ?_, notGlobal, by rw [at_n.nextId]; omega, ?_⟩
  · rw [written, Function.update_of_ne otherSlot, Function.update_of_ne (slotKey_ne_count i), own]
  · rw [at_n.others id notGlobal (Nat.ne_of_lt old)]
    exact holds

theorem registered_of_filedAt {loaders : List ModuleLoader} {l : ModuleLoader} {w w' : World H}
    (registered : Registered w loaders) (small : loaders.length ≤ maxProperties)
    (at_n : FiledAt w w' loaders.length l) : Registered w' (loaders ++ [l]) := by
  obtain ⟨c, c', written⟩ := at_n.own
  constructor
  · rw [List.length_append, List.length_singleton]
    refine ⟨c, ?_⟩
    rw [written, Function.update_of_ne (slotKey_ne_count _).symm, Function.update_self]
  · intro i l' slot
    rcases Nat.lt_or_ge i loaders.length with below | above
    · rw [List.getElem?_append_left below] at slot
      exact filed_of_filedAt at_n small below (registered.slots i l' slot)
    · -- the only new slot is the last
      have last : i = loaders.length := by
        have within := (List.getElem?_eq_some_iff.mp slot).1
        rw [List.length_append, List.length_singleton] at within
        omega
      subst last
      rw [List.getElem?_append_right (Nat.le_refl _), Nat.sub_self] at slot
      cases slot
      refine ⟨w.nextId, c', ?_, ?_, ?_, at_n.loader⟩
      · rw [written, Function.update_self]
      · exact (Nat.ne_of_lt registered.allocated).symm
      · rw [at_n.nextId]
        omega
  · rw [at_n.nextId]
    exact Nat.lt_succ_of_lt registered.allocated

theorem registered_add {loaders : List ModuleLoader} {l : ModuleLoader}
    (plain : PlainLoaders host ctx.world.heap) (registered : Registered ctx.world loaders)
    (small : loaders.length ≤ maxProperties)
    (returned : jsAddModuleLoader host l.udd l.modExt l.loadModule l.getMethodsList l.getAttrsList
      l.finalizer ctx = .ok () ctx') :
    Registered ctx'.world (loaders ++ [l]) ∧ ctx'.world.heap = ctx.world.heap := by
  obtain ⟨_, at_n⟩ := jsAddModuleLoader_ok plain registered small returned
  exact ⟨registered_of_filedAt registered small at_n, at_n.heap⟩

/-- Every loader takes a property of the global object. -/
theorem length_le_of_registered {loaders : List ModuleLoader} {w : World H}
    (registered : Registered w loaders) (bounded : loaders.length ≤ maxProperties + 1)
    (limited : (w.objects globalId).WithinLimit) : loaders.length ≤ maxProperties := by
  have slots := limited ((List.range loaders.length).map slotKey) ?_ ?_
  · simpa using slots
  · refine List.Nodup.map_on ?_ List.nodup_range
    intro i below j below' same
    rw [List.mem_range] at below below'
    unfold maxProperties at bounded
    exact slotKey_injective (by omega) (by omega) same
  · intro key member
    obtain ⟨i, below, rfl⟩ := List.mem_map.mp member
    rw [List.mem_range] at below
    obtain ⟨id, c, own, _⟩ := registered.slots i _ (List.getElem?_eq_getElem below)
    rw [own]
    rfl

theorem registered_run {loaders : List ModuleLoader} (plain : PlainLoaders host ctx.world.heap)
    (fresh : Registered ctx.world []) (run : Registrations host ctx loaders ctx') :
    Registered ctx'.world loaders ∧ loaders.length ≤ maxProperties ∧
      ctx'.world.heap = ctx.world.heap := by
  -- over the calls, each of which files one loader more
  induction run with
  | start => exact ⟨fresh, Nat.zero_le _, rfl⟩
  | add earlier ran limited ih =>
    obtain ⟨registered, small, heap⟩ := ih
    obtain ⟨more, same⟩ := registered_add (heap ▸ plain) registered small ran
    refine ⟨more, length_le_of_registered more ?_ limited, same.trans heap⟩
    rw [List.length_append, List.length_singleton]
    omega

end DukBridge
