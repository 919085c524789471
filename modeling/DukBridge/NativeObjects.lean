import DukBridge.LoaderRegistry
import DukBridge.PushRules

/-!
# Objects with native methods and a finalizer

A method of a new object is a C function that holds the native function and its `udd` as hidden
properties; the finalizer holds the handle of the module. Whatever they are called on or run
for, they hand over what was stored with them.
-/
namespace DukBridge

open Effect

variable {H : Type} {host : Host H} {ctx ctx' : Ctx H}

/-! ### Properties -/

def Has (o : ObjectRec) (key : Bytes) (v : JsVal) : Prop :=
  ∃ writable configurable, o.own key = some (.data v writable configurable)

theorem has_setOwn_self (w : World H) (id : Nat) (key : Bytes) (v : JsVal) (writable c : Bool) :
    Has ((w.setOwn id key (some (.data v writable c))).objects id) key v :=
  ⟨writable, c, by simp [World.setOwn, World.setObject]⟩

theorem Has.setOwn {w : World H} {id id' : Nat} {key key' : Bytes} {v : JsVal}
    (has : Has (w.objects id) key v) (other : id ≠ id' ∨ key ≠ key') (slot : Option PropSlot) :
    Has ((w.setOwn id' key' slot).objects id) key v := by
  obtain ⟨writable, c, own⟩ := has
  refine ⟨writable, c, ?_⟩
  by_cases same : id = id'
  · subst same
    have apart : key ≠ key' := other.resolve_left fun absurd => absurd rfl
    simp [World.setOwn, World.setObject, apart, own]
  · simp [World.setOwn, World.setObject, same, own]

theorem putPointer_ok {p : Word} {key : Bytes} {id : Nat} {rest : List JsVal}
    (stack : ctx.stack = .object id :: rest)
    (plain : ∀ free, host.writeThrough ctx.world free id key (.pointer p) = none)
    (returned : putPointer host p key ctx = .ok () ctx') :
    ∃ c, ctx' = ⟨.object id :: rest, ctx.reserve,
      ctx.world.setOwn id key (some (.data (.pointer p) true c))⟩ := by
  obtain ⟨_, _, push, writing⟩ := bind_eq_ok.mp returned
  obtain ⟨_, rfl⟩ := push_eq_ok.mp push
  have pair : (ctx.pushed (.pointer p)).stack = .pointer p :: .object id :: rest := by
    rw [Ctx.pushed_stack, stack]
  obtain ⟨c, _, rfl⟩ := putPropString_ok pair (plain _) writing
  exact ⟨c, rfl⟩

theorem pushString_ok {addr : Word} (returned : pushString host addr ctx = .ok () ctx') :
    ctx' = ctx.pushed ((if addr = 0 then none
      else some (host.mem.zstring addr (maxStringLen + 1))).elim .null .string) := by
  obtain ⟨_, pushed⟩ := pushString_eq_ok.mp returned
  by_cases null : addr = 0
  · rw [if_pos null] at pushed ⊢
    exact pushed
  · rw [if_neg null] at pushed ⊢
    exact pushed.2

/-! ### Methods -/

/-- The function that `make_func_bridge` makes for a method. -/
structure IsMethod (w : World H) (f : Nat) (method : ModuleMethod) : Prop where
  native : (w.objects f).native =
    some (.nativeFuncBridge, if method.nargs < 0 then varargs else method.nargs)
  nativeFunc : Has (w.objects f) nativeFuncKey (.pointer method.method)
  udd : Has (w.objects f) nativeUddKey (.pointer method.udd)

/-- The method is a property of the object. -/
def HasMethod (w : World H) (obj : Nat) (method : ModuleMethod) : Prop :=
  ∃ f, f ≠ obj ∧ f < w.nextId ∧ Has (w.objects obj) method.name (.object f) ∧ IsMethod w f method

/-- Scripts cannot name a hidden property, so none of their code runs when one is written. -/
def HiddenWrites (host : Host H) : Prop :=
  ∀ w free id v, ∀ key ∈ [nativeFuncKey, nativeUddKey], host.writeThrough w free id key v = none

/-- The object inherits no setter and no read-only property under these names. -/
def PlainNames (host : Host H) (heap : H) (obj : Nat) (names : List Bytes) : Prop :=
  ∀ w free v, w.heap = heap → ∀ name ∈ names, host.writeThrough w free obj name v = none

theorem putProp_ok {v : JsVal} {key : Bytes} {id : Nat} {rest : List JsVal} {done : Bool}
    (stack : ctx.stack = v :: .string key :: .object id :: rest)
    (plain : host.writeThrough ctx.world ctx.free id key v = none)
    (returned : putProp host ctx = .ok done ctx') :
    ∃ c, ctx' = ⟨.object id :: rest, ctx.reserve,
      ctx.world.setOwn id key (some (.data v true c))⟩ := by
  obtain ⟨_, _, room, writing⟩ := bind_eq_ok.mp returned
  obtain ⟨_, rfl⟩ := requireRoom_eq_ok.mp room
  rw [bind_ok (getAt_run 2), bind_ok (getAt_run 1), bind_ok (getAt_run 0)] at writing
  simp only [Ctx.get, stack, List.getD_cons_succ, List.getD_cons_zero] at writing
  obtain ⟨_, wrote, write, popping⟩ := bind_eq_ok.mp writing
  rw [writeProp_run plain] at write
  split at write
  · next c _ =>
    cases write
    obtain ⟨_, popped, pop, last⟩ := bind_eq_ok.mp popping
    obtain ⟨_, rfl⟩ := popN_eq_ok.mp pop
    cases last
    exact ⟨c, by rw [stack]; rfl⟩
  · cases write

theorem setOwn_native {w : World H} {id : Nat} {native : Option (CFunction × Int32)}
    (is : (w.objects id).native = native) (id' : Nat) (key : Bytes) (slot : Option PropSlot) :
    ((w.setOwn id' key slot).objects id).native = native := by
  by_cases same : id = id'
  · subst same
    simp [World.setOwn, World.setObject, is]
  · simp [World.setOwn, World.setObject, same, is]

theorem IsMethod.setOwn {w : World H} {f id : Nat} {method : ModuleMethod} {key : Bytes}
    (isMethod : IsMethod w f method) (other : f ≠ id) (slot : Option PropSlot) :
    IsMethod (w.setOwn id key slot) f method :=
  ⟨setOwn_native isMethod.native .., isMethod.nativeFunc.setOwn (.inl other) slot,
    isMethod.udd.setOwn (.inl other) slot⟩

/-- Nothing but an object takes a property. -/
theorem writeProp_object {target v : JsVal} {key : Bytes}
    (returned : writeProp host target key v ctx = .ok () ctx') : ∃ id, target = .object id := by
  cases target with
  | object id => exact ⟨id, rfl⟩
  | _ => cases returned

theorem putProp_object {key : Bytes} {done : Bool} (named : ctx.get 1 = .string key)
    (returned : putProp host ctx = .ok done ctx') : ∃ id, ctx.get 2 = .object id := by
  obtain ⟨_, _, room, writing⟩ := bind_eq_ok.mp returned
  obtain ⟨_, rfl⟩ := requireRoom_eq_ok.mp room
  rw [bind_ok (getAt_run 2), bind_ok (getAt_run 1), bind_ok (getAt_run 0)] at writing
  simp only [named] at writing
  obtain ⟨_, _, write, _⟩ := bind_eq_ok.mp writing
  exact writeProp_object write

theorem stack_of_top {id : Nat} (top : ctx.get 0 = .object id) :
    ∃ rest, ctx.stack = .object id :: rest := by
  obtain ⟨stack, reserve, w⟩ := ctx
  cases stack with
  | nil => cases top
  | cons v rest =>
    cases top
    exact ⟨rest, rfl⟩

/-- The function that is made for a method, with what it holds under its hidden names. -/
def withMethodFunc (w : World H) (method : ModuleMethod) (c c' : Bool) : World H :=
  let nargs := if method.nargs < 0 then varargs else method.nargs
  let made := { w.setObject w.nextId ⟨.plain, fun _ => none, true, some (.nativeFuncBridge, nargs)⟩
    with nextId := w.nextId + 1 }
  (made.setOwn w.nextId nativeFuncKey (some (.data (.pointer method.method) true c))).setOwn
    w.nextId nativeUddKey (some (.data (.pointer method.udd) true c'))

/-- There is an object on top of the stack, and the new function becomes its property. -/
theorem jsAddModuleMethod_inv {method : ModuleMethod} (hidden : HiddenWrites host)
    (plain : ∀ id, ctx.get 0 = .object id → PlainNames host ctx.world.heap id [method.name])
    (returned : jsAddModuleMethod host method ctx = .ok () ctx') :
    ∃ id rest c c' c'', ctx.stack = .object id :: rest ∧
      ctx' = ⟨ctx.stack, ctx.reserve, (withMethodFunc ctx.world method c c').setOwn id method.name
        (some (.data (.object ctx.world.nextId) true c''))⟩ := by
  obtain ⟨stack, reserve, w⟩ := ctx
  obtain ⟨_, s1, named, ran⟩ := bind_eq_ok.mp returned
  obtain rfl := pushBytes_ok named
  obtain ⟨_, s2, created, ran⟩ := bind_eq_ok.mp ran
  unfold pushCFunction at created
  unfold withMethodFunc
  generalize (if method.nargs < 0 then varargs else method.nargs) = nargs at created ⊢
  split at created
  · obtain rfl := pushNew_ok created
    obtain ⟨_, s3, push, ran⟩ := bind_eq_ok.mp ran
    obtain ⟨_, rfl⟩ := push_eq_ok.mp push
    obtain ⟨_, s4, put, ran⟩ := bind_eq_ok.mp ran
    obtain ⟨c, _, rfl⟩ := putPropString_ok rfl (hidden _ _ _ _ nativeFuncKey (by simp)) put
    obtain ⟨_, s5, push, ran⟩ := bind_eq_ok.mp ran
    obtain ⟨_, rfl⟩ := push_eq_ok.mp push
    obtain ⟨_, s6, put, ran⟩ := bind_eq_ok.mp ran
    obtain ⟨c', _, rfl⟩ := putPropString_ok rfl (hidden _ _ _ _ nativeUddKey (by simp)) put
    obtain ⟨_, s7, put, ran⟩ := bind_eq_ok.mp ran
    cases ran
    -- the write needs an object below the function and its name
    obtain ⟨id, top⟩ := putProp_object rfl put
    obtain ⟨rest, below⟩ := stack_of_top top
    cases below
    obtain ⟨c'', rfl⟩ := putProp_ok rfl (plain id rfl _ _ _ (by rfl) _ (by simp)) put
    exact ⟨id, rest, c, c', c'', rfl, rfl⟩
  · cases created

theorem withMethodFunc_old {w : World H} {method : ModuleMethod} {c c' : Bool} {i : Nat}
    (old : i ≠ w.nextId) : (withMethodFunc w method c c').objects i = w.objects i := by
  simp [withMethodFunc, World.setOwn, World.setObject, old]

theorem withMethodFunc_isMethod (w : World H) (method : ModuleMethod) (c c' : Bool) :
    IsMethod (withMethodFunc w method c c') w.nextId method := by
  constructor
  · simp [withMethodFunc, World.setOwn, World.setObject]
  · exact (has_setOwn_self ..).setOwn (.inr (by decide)) _
  · exact has_setOwn_self ..

/-- What `js_add_module_method` does to a new object. -/
theorem jsAddModuleMethod_ok {method : ModuleMethod} {obj : Nat} {rest : List JsVal}
    (hidden : HiddenWrites host) (plain : PlainNames host ctx.world.heap obj [method.name])
    (stack : ctx.stack = .object obj :: rest) (old : obj < ctx.world.nextId)
    (returned : jsAddModuleMethod host method ctx = .ok () ctx') :
    ctx'.stack = .object obj :: rest ∧ ctx'.world.heap = ctx.world.heap ∧
      ctx'.world.nextId = ctx.world.nextId + 1 ∧ HasMethod ctx'.world obj method ∧
      ∀ other, other.name ≠ method.name → HasMethod ctx.world obj other →
        HasMethod ctx'.world obj other := by
  have top : ∀ id, ctx.get 0 = .object id → obj = id := by
    intro id same
    rw [Ctx.get, stack] at same
    exact JsVal.object.inj same
  obtain ⟨id, _, c, c', c'', here, rfl⟩ :=
    jsAddModuleMethod_inv hidden (fun id same => top id same ▸ plain) returned
  rw [stack] at here
  cases here
  have apart : ctx.world.nextId ≠ obj := Nat.ne_of_gt old
  refine ⟨stack, rfl, rfl, ⟨ctx.world.nextId, apart, Nat.lt_succ_self _, has_setOwn_self .., ?_⟩, ?_⟩
  · exact (withMethodFunc_isMethod ..).setOwn apart _
  · -- the new function is none of those there before
    rintro other different ⟨f, notObj, older, has, isMethod⟩
    have notNew : f ≠ ctx.world.nextId := Nat.ne_of_lt older
    refine ⟨f, notObj, Nat.lt_succ_of_lt older, ?_, ?_⟩
    · apply Has.setOwn _ (.inr different)
      rwa [withMethodFunc_old apart.symm]
    · apply IsMethod.setOwn _ notObj
      obtain ⟨native, nativeFunc, udd⟩ := isMethod
      constructor
      · rwa [withMethodFunc_old notNew]
      · rwa [withMethodFunc_old notNew]
      · rwa [withMethodFunc_old notNew]

/-- Methods of different names are all there in the end. -/
theorem addMethods_ok {methods : List ModuleMethod} {obj : Nat} {rest : List JsVal}
    (hidden : HiddenWrites host)
    (plain : PlainNames host ctx.world.heap obj (methods.map ModuleMethod.name))
    (distinct : (methods.map ModuleMethod.name).Nodup) (stack : ctx.stack = .object obj :: rest)
    (old : obj < ctx.world.nextId) (returned : addMethods host methods ctx = .ok () ctx') :
    ctx'.stack = .object obj :: rest ∧ (∀ method ∈ methods, HasMethod ctx'.world obj method) ∧
      ∀ other, other.name ∉ methods.map ModuleMethod.name → HasMethod ctx.world obj other →
        HasMethod ctx'.world obj other := by
  induction methods generalizing ctx with
  | nil =>
    cases returned
    exact ⟨stack, by simp, fun _ _ has => has⟩
  | cons method rest' ih =>
    obtain ⟨_, mid, added, others⟩ := bind_eq_ok.mp returned
    obtain ⟨fresh, distinct⟩ := List.nodup_cons.mp distinct
    have first : PlainNames host ctx.world.heap obj [method.name] := by
      intro w free v same name member
      rw [List.mem_singleton.mp member]
      exact plain w free v same _ List.mem_cons_self
    obtain ⟨stack, heap, next, has, kept⟩ := jsAddModuleMethod_ok hidden first stack old added
    have later : PlainNames host mid.world.heap obj (rest'.map ModuleMethod.name) := by
      intro w free v same name member
      exact plain w free v (same.trans heap) _ (List.mem_cons_of_mem _ member)
    have old : obj < mid.world.nextId := by omega
    obtain ⟨stack, all, spared⟩ := ih later distinct stack old others
    -- the later methods have other names, so that they leave the first as it is
    refine ⟨stack, ?_, ?_⟩
    · intro m member
      rcases List.mem_cons.mp member with rfl | later
      · exact spared _ fresh has
      · exact all m later
    · intro other absent has
      rw [List.map_cons, List.mem_cons, not_or] at absent
      obtain ⟨different, absent⟩ := absent
      exact spared other absent (kept other different has)

theorem getNativeFunc_run {f : Nat} {method : ModuleMethod} (isMethod : IsMethod ctx.world f method)
    (room : ctx.height + 5 ≤ ctx.reserve) :
    getNativeFunc host (.object f) ctx = .ok (method.method, method.udd) ctx := by
  obtain ⟨stack, reserve, w⟩ := ctx
  obtain ⟨_, ⟨_, _, nativeFunc⟩, ⟨_, _, udd⟩⟩ := isMethod
  simp only [Ctx.height_mk] at room
  have pushed : push (.object f) (Ctx.mk stack reserve w) = .ok () ⟨.object f :: stack, reserve, w⟩ := by
    rw [push_run, if_pos (by simp; omega)]
    rfl
  have popped : popN 3 (Ctx.mk (.pointer method.udd :: .pointer method.method :: .object f :: stack)
      reserve w) = .ok () ⟨stack, reserve, w⟩ := by
    rw [popN_run, if_pos (by simp)]
    rfl
  rw [getNativeFunc, bind_ok pushed,
    bind_ok (getPropString_mk rfl nativeFunc (by simp; omega)),
    bind_ok (getPropString_mk rfl udd (by simp; omega))]
  simp only [bind_ok (getAt_run _)]
  exact bind_ok popped _

/-! ### The finalizer -/

/-- The arguments of `finalizer(udd, mod_name, hMod)`, with the pointer that is called. -/
structure UnloadCall where
  finalizer : Word
  udd : Word
  modName : Word
  modHandle : Word
deriving DecidableEq

/-- `duk_get_string(ctx, -1 - i)` -/
def getStringPtr (host : Host H) (i : Nat) : Duk H Word := do
  let ctx ← get
  match ctx.get i with
  | .string s => return host.address ctx.world (.string s)
  | _ => return 0

/-- The object that is finalized is not looked at. -/
def unloadNativeObj (host : Host H) (currentFunction : JsVal) : Duk H UnloadCall := do
  push currentFunction
  let _ ← getPropString host 0 (ascii "_nm_")
  let _ ← getPropString host 1 (ascii "_nmf_")
  let _ ← getPropString host 2 (ascii "_nu_")
  let _ ← getPropString host 3 (ascii "_nmh_")
  let modName ← getStringPtr host 3
  let finalizer := (← getAt 2).getPointer
  let udd := (← getAt 1).getPointer
  let modHandle := (← getAt 0).getPointer
  popN 5
  return { finalizer, udd, modName, modHandle }

/-- The properties that `init_native_obj` gives the finalizer of a new object; without a name
`_nm_` is null. -/
structure HoldsUnloader (o : ObjectRec) (call : UnloadCall) (modName : Option Bytes) : Prop where
  name : Has o (ascii "_nm_") (modName.elim .null .string)
  handle : Has o (ascii "_nmh_") (.pointer call.modHandle)
  udd : Has o (ascii "_nu_") (.pointer call.udd)
  finalizer : Has o (ascii "_nmf_") (.pointer call.finalizer)

theorem unloadNativeObj_run {obj : Nat} {call : UnloadCall} {modName : Option Bytes}
    (holds : HoldsUnloader (ctx.world.objects obj) call modName)
    (named : call.modName = modName.elim 0 fun s => host.address ctx.world (.string s))
    (room : ctx.height + 8 ≤ ctx.reserve) :
    unloadNativeObj host (.object obj) ctx = .ok call ctx := by
  obtain ⟨stack, reserve, w⟩ := ctx
  obtain ⟨⟨_, _, name⟩, ⟨_, _, handle⟩, ⟨_, _, udd⟩, ⟨_, _, finalizer⟩⟩ := holds
  simp only [Ctx.height_mk] at room
  have pushed : push (.object obj) (Ctx.mk stack reserve w) =
      .ok () ⟨.object obj :: stack, reserve, w⟩ := by
    rw [push_run, if_pos (by simp; omega)]
    rfl
  have popped : popN 5 (Ctx.mk (.pointer call.modHandle :: .pointer call.udd ::
      .pointer call.finalizer :: modName.elim .null .string :: .object obj :: stack) reserve w) =
      .ok () ⟨stack, reserve, w⟩ := by
    rw [popN_run, if_pos (by simp)]
    rfl
  -- the finalizer's own properties lie above it, each found under its name
  rw [unloadNativeObj, bind_ok pushed,
    bind_ok (getPropString_mk rfl name (by simp; omega)),
    bind_ok (getPropString_mk rfl finalizer (by simp; omega)),
    bind_ok (getPropString_mk rfl udd (by simp; omega)),
    bind_ok (getPropString_mk rfl handle (by simp; omega))]
  have read : getStringPtr host 3 (Ctx.mk (.pointer call.modHandle :: .pointer call.udd ::
      .pointer call.finalizer :: modName.elim .null .string :: .object obj :: stack) reserve w) =
      .ok call.modName ⟨.pointer call.modHandle :: .pointer call.udd ::
        .pointer call.finalizer :: modName.elim .null .string :: .object obj :: stack, reserve, w⟩ := by
    rw [named]
    cases modName <;> rfl
  rw [bind_ok read]
  simp only [bind_ok (getAt_run _)]
  exact bind_ok popped _

/-- Nobody has given `Function.prototype` or `Object.prototype` a property with one of these
names. -/
def PlainUnloader (host : Host H) (heap : H) : Prop :=
  ∀ w free id v, w.heap = heap →
    ∀ key ∈ finalizerKey :: ["_nm_", "_nmh_", "_nu_", "_nmf_"].map ascii,
      host.writeThrough w free id key v = none

/-- The finalizer that is made for an object, with what it holds. -/
def withUnloaderFunc (w : World H) (name : JsVal) (udd hMod finalizer : Word) (c c₁ c₂ c₃ : Bool) :
    World H :=
  let made := { w.setObject w.nextId ⟨.plain, fun _ => none, true, some (.unloadNativeObj, 0)⟩
    with nextId := w.nextId + 1 }
  let named := made.setOwn w.nextId (ascii "_nm_") (some (.data name true c))
  let handled := named.setOwn w.nextId (ascii "_nmh_") (some (.data (.pointer hMod) true c₁))
  (handled.setOwn w.nextId (ascii "_nu_") (some (.data (.pointer udd) true c₂))).setOwn w.nextId
    (ascii "_nmf_") (some (.data (.pointer finalizer) true c₃))

theorem withUnloaderFunc_old {w : World H} {name : JsVal} {udd hMod finalizer : Word}
    {c c₁ c₂ c₃ : Bool} {i : Nat} (old : i ≠ w.nextId) :
    (withUnloaderFunc w name udd hMod finalizer c c₁ c₂ c₃).objects i = w.objects i := by
  simp [withUnloaderFunc, World.setOwn, World.setObject, old]

/-- The new function becomes the finalizer of the object on top. -/
theorem setUnloader_inv {udd id hMod finalizer : Word} {obj : Nat} {rest : List JsVal}
    (plain : PlainUnloader host ctx.world.heap) (stack : ctx.stack = .object obj :: rest)
    (returned : setUnloader host udd id hMod finalizer ctx = .ok () ctx') :
    ∃ c c₁ c₂ c₃ c₄, ctx' = ⟨ctx.stack, ctx.reserve, (withUnloaderFunc ctx.world
      ((if id = 0 then none else some (host.mem.zstring id (maxStringLen + 1))).elim .null .string)
      udd hMod finalizer c c₁ c₂ c₃).setOwn obj finalizerKey
        (some (.data (.object ctx.world.nextId) true c₄))⟩ := by
  obtain ⟨_, reserve, w⟩ := ctx
  cases stack
  obtain ⟨_, s1, created, ran⟩ := bind_eq_ok.mp returned
  have created : pushNew .plain (some (.unloadNativeObj, 0)) _ = _ := created
  obtain rfl := pushNew_ok created
  obtain ⟨_, s2, named, ran⟩ := bind_eq_ok.mp ran
  obtain rfl := pushString_ok named
  obtain ⟨_, s3, put, ran⟩ := bind_eq_ok.mp ran
  obtain ⟨c, _, rfl⟩ := putPropString_ok rfl (plain _ _ _ _ (by rfl) _ (by decide)) put
  obtain ⟨_, s4, put, ran⟩ := bind_eq_ok.mp ran
  obtain ⟨c₁, rfl⟩ := putPointer_ok rfl (fun _ => plain _ _ _ _ (by rfl) _ (by decide)) put
  obtain ⟨_, s5, put, ran⟩ := bind_eq_ok.mp ran
  obtain ⟨c₂, rfl⟩ := putPointer_ok rfl (fun _ => plain _ _ _ _ (by rfl) _ (by decide)) put
  obtain ⟨_, s6, put, ran⟩ := bind_eq_ok.mp ran
  obtain ⟨c₃, rfl⟩ := putPointer_ok rfl (fun _ => plain _ _ _ _ (by rfl) _ (by decide)) put
  obtain ⟨c₄, _, rfl⟩ := putPropString_ok rfl (plain _ _ _ _ (by rfl) _ (by decide)) ran
  exact ⟨c, c₁, c₂, c₃, c₄, rfl⟩

/-- The finalizer of a new object holds the handle it was made with. -/
theorem setUnloader_ok {udd id hMod finalizer : Word} {obj : Nat} {rest : List JsVal}
    (plain : PlainUnloader host ctx.world.heap) (stack : ctx.stack = .object obj :: rest)
    (old : obj < ctx.world.nextId)
    (returned : setUnloader host udd id hMod finalizer ctx = .ok () ctx') :
    ctx'.stack = .object obj :: rest ∧
      Has (ctx'.world.objects obj) finalizerKey (.object ctx.world.nextId) ∧
      ∀ modName, HoldsUnloader (ctx'.world.objects ctx.world.nextId) ⟨finalizer, udd, modName, hMod⟩
        (if id = 0 then none else some (host.mem.zstring id (maxStringLen + 1))) := by
  have apart : ctx.world.nextId ≠ obj := Nat.ne_of_gt old
  obtain ⟨c, c₁, c₂, c₃, c₄, rfl⟩ := setUnloader_inv plain stack returned
  refine ⟨stack, has_setOwn_self .., ?_⟩
  intro modName
  -- each write leaves the properties written before it
  exact
    { name := ((((has_setOwn_self ..).setOwn (.inr (by decide)) _).setOwn (.inr (by decide)) _).setOwn
        (.inr (by decide)) _).setOwn (.inl apart) _
      handle := (((has_setOwn_self ..).setOwn (.inr (by decide)) _).setOwn (.inr (by decide)) _).setOwn
        (.inl apart) _
      udd := ((has_setOwn_self ..).setOwn (.inr (by decide)) _).setOwn (.inl apart) _
      finalizer := (has_setOwn_self ..).setOwn (.inl apart) _ }

/-- Every property can be written. -/
def Open (o : ObjectRec) : Prop := ∀ key, (o.accepts key).isSome

theorem Open.setOwn {w : World H} {i : Nat} (writable : Open (w.objects i)) (id : Nat) (key : Bytes)
    (v : JsVal) (c : Bool) : Open ((w.setOwn id key (some (.data v true c))).objects i) := by
  intro key'
  have before := writable key'
  by_cases same : i = id
  · subst same
    by_cases written : key' = key
    · subst written
      simp [ObjectRec.accepts, World.setOwn, World.setObject]
    · simpa [ObjectRec.accepts, World.setOwn, World.setObject, written] using before
  · simpa [ObjectRec.accepts, World.setOwn, World.setObject, same] using before

/-- What could be written before still can. -/
structure StaysOpen (w w' : World H) : Prop where
  heap : w'.heap = w.heap
  writable : ∀ i, Open (w.objects i) → Open (w'.objects i)

section Returning

variable {w : World H} {reserve : Nat} {rest : List JsVal} {obj : Nat} {key : Bytes}

theorem putPropString_mk {v : JsVal} (room : rest.length + 4 ≤ reserve)
    (plain : ∀ free, host.writeThrough w free obj key v = none) (writable : Open (w.objects obj)) :
    ∃ w', putPropString host 1 key ⟨v :: .object obj :: rest, reserve, w⟩ =
      .ok () ⟨.object obj :: rest, reserve, w'⟩ ∧ StaysOpen w w' := by
  obtain ⟨c, accepts⟩ := Option.isSome_iff_exists.mp (writable key)
  have wrote : writeProp host (.object obj) key v (Ctx.mk (v :: .object obj :: rest) reserve w) =
      .ok () ⟨v :: .object obj :: rest, reserve, w.setOwn obj key (some (.data v true c))⟩ := by
    rw [writeProp_run (plain _), accepts]
  refine ⟨w.setOwn obj key (some (.data v true c)), ?_, rfl, fun i can => can.setOwn obj key v c⟩
  exact (putPropString_eq_ok rfl).mpr ⟨room, _, wrote, rfl⟩

theorem putPointer_mk {p : Word} (room : rest.length + 4 ≤ reserve)
    (plain : ∀ free, host.writeThrough w free obj key (.pointer p) = none)
    (writable : Open (w.objects obj)) :
    ∃ w', putPointer host p key ⟨.object obj :: rest, reserve, w⟩ =
      .ok () ⟨.object obj :: rest, reserve, w'⟩ ∧ StaysOpen w w' := by
  have slot : (Ctx.mk (.object obj :: rest) reserve w).height + 1 ≤ reserve :=
    Nat.le_trans (Nat.add_le_add_left (by decide : 2 ≤ 4) rest.length) room
  have pushed : pushPointer p (Ctx.mk (.object obj :: rest) reserve w) =
      .ok () ⟨.pointer p :: .object obj :: rest, reserve, w⟩ := push_eq_ok.mpr ⟨slot, rfl⟩
  obtain ⟨w', put, stays⟩ := putPropString_mk (v := .pointer p) room plain writable
  exact ⟨w', by rw [putPointer, bind_ok pushed, put], stays⟩

theorem pushNew_mk (shape : ObjShape) (native : Option (CFunction × Int32)) {stack : List JsVal}
    (slot : stack.length + 1 ≤ reserve) : ∃ w', pushNew shape native ⟨stack, reserve, w⟩ =
      .ok () ⟨.object w.nextId :: stack, reserve, w'⟩ ∧
      Open (w'.objects w.nextId) ∧ StaysOpen w w' := by
  have pushed : push (.object w.nextId) (Ctx.mk stack reserve w) =
      .ok () ⟨.object w.nextId :: stack, reserve, w⟩ := push_eq_ok.mpr ⟨slot, rfl⟩
  let made : World H := { w.setObject w.nextId ⟨shape, fun _ => none, true, native⟩ with
    nextId := w.nextId + 1 }
  have fresh : Open (made.objects w.nextId) := by
    intro key
    simp [made, World.setObject, ObjectRec.accepts]
  refine ⟨made, ?_, fresh, rfl, ?_⟩
  · rw [pushNew, bind_ok (get_run _), bind_ok pushed]
    rfl
  · intro i can
    by_cases new : i = w.nextId
    · exact new ▸ fresh
    · simpa [made, World.setObject, new] using can

theorem pushString_mk {id : Word} {stack : List JsVal} (slot : stack.length + 1 ≤ reserve)
    (short : id = 0 ∨ (host.mem.zstring id (maxStringLen + 1)).length ≤ maxStringLen) :
    ∃ name, pushString host id ⟨stack, reserve, w⟩ = .ok () ⟨name :: stack, reserve, w⟩ := by
  by_cases null : id = 0
  · refine ⟨.null, (pushString_eq_ok (u := ())).mpr ⟨slot, ?_⟩⟩
    rw [if_pos null]
    rfl
  · refine ⟨.string (host.mem.zstring id (maxStringLen + 1)),
      (pushString_eq_ok (u := ())).mpr ⟨slot, ?_⟩⟩
    rw [if_neg null]
    exact ⟨short.resolve_left null, rfl⟩

/-- With slots for the finalizer and for what is put into it, nothing stops it. -/
theorem setUnloader_returns {udd id hMod finalizer : Word} (plain : PlainUnloader host w.heap)
    (room : rest.length + 5 ≤ reserve)
    (short : id = 0 ∨ (host.mem.zstring id (maxStringLen + 1)).length ≤ maxStringLen)
    (writable : Open (w.objects obj)) :
    Returns (setUnloader host udd id hMod finalizer) ⟨.object obj :: rest, reserve, w⟩ := by
  have inner : (JsVal.object obj :: rest).length + 4 ≤ reserve := by
    rw [List.length_cons]
    omega
  have slot : (JsVal.object obj :: rest).length + 1 ≤ reserve := by omega
  have below : (JsVal.object w.nextId :: .object obj :: rest).length + 1 ≤ reserve := by
    rw [List.length_cons]
    omega
  have outer : rest.length + 4 ≤ reserve := by omega
  -- the function on top of the object, its own properties, and then that of the object
  obtain ⟨w₁, created, fresh, s₁⟩ := pushNew_mk (w := w) .plain (some (.unloadNativeObj, 0)) slot
  have made : pushCFunction .unloadNativeObj 0 (Ctx.mk (.object obj :: rest) reserve w) = _ := created
  obtain ⟨name, named⟩ := pushString_mk (w := w₁) below short
  obtain ⟨w₂, put₁, s₂⟩ := putPropString_mk inner
    (fun free => plain w₁ free w.nextId name s₁.heap (ascii "_nm_") (by decide)) fresh
  have heap₂ := s₂.heap.trans s₁.heap
  obtain ⟨w₃, put₂, s₃⟩ := putPointer_mk inner
    (fun free => plain w₂ free w.nextId (.pointer hMod) heap₂ (ascii "_nmh_") (by decide))
    (s₂.writable _ fresh)
  have heap₃ := s₃.heap.trans heap₂
  obtain ⟨w₄, put₃, s₄⟩ := putPointer_mk inner
    (fun free => plain w₃ free w.nextId (.pointer udd) heap₃ (ascii "_nu_") (by decide))
    (s₃.writable _ (s₂.writable _ fresh))
  have heap₄ := s₄.heap.trans heap₃
  obtain ⟨w₅, put₄, s₅⟩ := putPointer_mk inner
    (fun free => plain w₄ free w.nextId (.pointer finalizer) heap₄ (ascii "_nmf_") (by decide))
    (s₄.writable _ (s₃.writable _ (s₂.writable _ fresh)))
  have heap₅ := s₅.heap.trans heap₄
  have kept : Open (w₅.objects obj) :=
    s₅.writable _ (s₄.writable _ (s₃.writable _ (s₂.writable _ (s₁.writable _ writable))))
  obtain ⟨w₆, put₅, _⟩ := putPropString_mk outer
    (fun free => plain w₅ free obj (.object w.nextId) heap₅ finalizerKey (by decide)) kept
  rw [setUnloader, returns_bind_of_ok made, returns_bind_of_ok named, returns_bind_of_ok put₁,
    returns_bind_of_ok put₂, returns_bind_of_ok put₃, returns_bind_of_ok put₄]
  exact ⟨(), _, put₅⟩

end Returning

end DukBridge
