import DukBridge.MemberFrames
import DukBridge.ModuleAcceptance

/-!
# Modules on other threads of an environment

A coroutine has a value stack of its own. `init_native_obj` pushes the new object on the thread
that runs; `go_getMethodsList` and `go_getAttrsList` write through the context that was stored
with the loader, which is the initial thread.
-/
namespace DukBridge

open Rendezvous KeyStore MethodKeyGenerator Effect

variable {H L S σ : Type}

/-! ### Threads -/

/-- The threads of one heap, known by their contexts. -/
structure Threads (H : Type) where
  stack : Word → List JsVal
  reserve : Word → Nat
  world : World H

/-- What a call of the API with the context `t` works on. -/
def thread (t : Word) : Part (Threads H) (Ctx H) where
  view th := ⟨th.stack t, th.reserve t, th.world⟩
  put th ctx := ⟨Function.update th.stack t ctx.stack, Function.update th.reserve t ctx.reserve,
    ctx.world⟩
  view_put th ctx := by simp
  put_put th ctx ctx' := by simp

abbrev OnThreads (H α : Type) := EStateM Fault (Threads H) α

/-- `sizeof(module_attr_t)` -/
def modAttrSize : Nat := 32

variable [DecidableEq L] [DecidableEq S]

/-- `go_getAttrsList` with what `malloc` left in its `c_attr`; a panic ends the process, and so
does a write without a context. -/
def goGetAttrs (host : Host H) [GoReflect host.mem S] (go : GoRuntime host.mem S σ)
    (bytesOfArray : Bool) (garbage : ModuleAttr) (pool : V2KPool (PoolVal L S) Nat)
    (udd modHandle : Word) : Duk H (List ModuleAttr) :=
  let allocated := if host.mallocs modAttrSize then some garbage else none
  let rounds := goGetAttrsRounds go bytesOfArray allocated pool modHandle
  let ended : Duk H (List ModuleAttr) := if rounds.panic.isSome then throw .noReturn else return []
  match lookUp (getModuleLoader udd.toInt64) pool with
  | some (.ok _) => do
    addAttrs host rounds.calls
    ended
  | _ => if rounds.calls.isEmpty then ended else throw .noReturn

/-- What Go hands to C with a loader, and what its callbacks use. -/
structure GoCallbacks (host : Host H) (S σ : Type) where
  go : GoRuntime host.mem S σ
  bytesOfArray : Bool
  garbage : ModuleAttr
  modBridge : Word
  finalizeModule : Word
  finalizes : finalizeModule ≠ 0

/-- `env` of `getModuleLoader`; NULL without a loader. -/
def loaderEnv (pool : V2KPool (PoolVal L S) Nat) (udd : Word) : Word :=
  (pool.loaderAt udd.toInt64).elim 0 Prod.snd

section Program

variable (host : Host H) [GoReflect host.mem S] (c : GoCallbacks host S σ)
  (pool : V2KPool (PoolVal L S) Nat)

/-- `go_getMethodsList` adds the methods itself and returns none for C to add to the object on
`t`. -/
def listMethods (t udd hMod : Word) : OnThreads H Unit := do
  let methods ← zoom (thread (loaderEnv pool udd))
    (goGetMethodsList host c.modBridge pool udd hMod)
  zoom (thread t) (addMethods host methods)

def listAttrs (t udd hMod : Word) : OnThreads H Unit := do
  let attrs ← zoom (thread (loaderEnv pool udd))
    (goGetAttrs host c.go c.bytesOfArray c.garbage pool udd hMod)
  zoom (thread t) (addAttrs host attrs)

/-- The rest of `init_native_obj` on the thread `t`, with the callbacks of Go. -/
def buildGoObj (t udd id hMod : Word) : OnThreads H Unit := do
  zoom (thread t) pushObject
  zoom (thread t) (setUnloader host udd id hMod c.finalizeModule)
  listMethods host c pool t udd hMod
  listAttrs host c pool t udd hMod

/-- The case `rt_mobject` of `native_func_bridge` on the thread `t`. -/
def pushStructResult (firstLoaderKey : LoaderKeyMap) (t modKey : Word) : OnThreads H Unit :=
  match goCreateEcmascriptObject firstLoaderKey t modKey with
  | some obj => buildGoObj host c pool t obj.udd 0 obj.modHandle
  | none => zoom (thread t) pushUndefined

variable {host c pool}

/-- On the thread of the loader's environment this is the program on one context. -/
theorem buildGoObj_eq {fns : LoaderFns H} {t udd id hMod getMethodsList getAttrsList : Word}
    (initial : loaderEnv pool udd = t) (listsMethods : getMethodsList ≠ 0)
    (listsAttrs : getAttrsList ≠ 0)
    (methods : fns.getMethodsList getMethodsList udd id hMod =
      goGetMethodsList host c.modBridge pool udd hMod)
    (attrs : fns.getAttrsList getAttrsList udd id hMod =
      goGetAttrs host c.go c.bytesOfArray c.garbage pool udd hMod) :
    buildGoObj host c pool t udd id hMod = zoom (thread t)
      (buildNativeObj host fns udd id hMod getMethodsList getAttrsList c.finalizeModule) := by
  simp only [buildNativeObj, c.finalizes, listsMethods, listsAttrs, ne_eq, not_false_eq_true,
    if_true, methods, attrs, zoom_bind]
  simp only [buildGoObj, listMethods, listAttrs, initial, bind_assoc]

end Program

/-! ### A new object with its members -/

/-- The object on top of `t` is new and has these members and no others; no other stack and none of
the objects there were has changed. -/
structure MembersLand (host : Host H) (t : Word) (methods : List ModuleMethod)
    (attrs : List ModuleAttr) (th th' : Threads H) : Prop where
  stack : th'.stack t = .object th.world.nextId :: th.stack t
  threads : ∀ u ≠ t, th'.stack u = th.stack u
  objects : ∀ id < th.world.nextId, th'.world.objects id = th.world.objects id
  hasMethods : ∀ method ∈ methods, HasMethod th'.world th.world.nextId method
  hasAttrs : ∀ attr ∈ attrs, HasAttr host th'.world th.world.nextId attr
  only : ∀ key, (th'.world.objects th.world.nextId).own key ≠ none →
    key = finalizerKey ∨ key ∈ methods.map ModuleMethod.name ++ attrs.map ModuleAttr.name

/-- Rules of the language: the fields and methods of a type have different names, and a name begins
with a letter in UTF-8. -/
class GoMembers (mem : Memory) (S : Type) extends GoReflect mem S where
  distinctNames : ∀ s fields, (valueOf s : ReflectValue mem S) = .ptr (.struct fields) →
    ((List.range (numMethod s)).map (methodName s) ++ fields.map (·.name)).Nodup
  letters : ∀ s fields, (valueOf s : ReflectValue mem S) = .ptr (.struct fields) →
    ∀ name ∈ (List.range (numMethod s)).map (methodName s) ++ fields.map (·.name),
      ∃ c rest, name = c :: rest ∧ (c < 128 ∨ 194 ≤ c)

/-- The module with this handle, a pointer to a struct. -/
structure StructModule (mem : Memory) [GoReflect mem S] (pool : V2KPool (PoolVal L S) Nat)
    (hMod : Word) (info : GoModuleInfo S) (fields : List (StructField mem S)) : Prop where
  record : pool.moduleAt hMod.toInt64 = some info
  counted : info.nMethods = GoStructs.numMethod info.structP
  struct : (GoReflect.valueOf info.structP : ReflectValue mem S) = .ptr (.struct fields)

/-- The switch of `go_getAttrsList` has a case for the kind. -/
def GoFieldVal.listed {mem : Memory} : GoFieldVal mem S → Bool
  | .integer n => n.kind != .uintptr
  | .other => false
  | .bool _ | .float _ | .string _ | .absent | .bytes _ | .slice _ | .map _ => true

/-- There is nothing to add. -/
def NoMembers {mem : Memory} [GoReflect mem S] (info : GoModuleInfo S)
    (fields : List (StructField mem S)) : Prop :=
  GoStructs.numMethod info.structP = 0 ∧
    ∀ field ∈ fields, field.exported = true → field.val.listed = false

/-! ### What the callbacks add -/

section Members

variable {mem : Memory} {go : GoRuntime mem S σ} {bytesOfArray : Bool}

omit [DecidableEq S] in
theorem setField_name {attr filled : ModuleAttr} {val : GoFieldVal mem S}
    (set : attr.setField go val = some filled) :
    filled.name = attr.name ∧ filled.fmt ≠ .ecmafunc := by
  cases val with
  | integer n =>
    simp only [ModuleAttr.setField, ModuleAttr.setInteger] at set
    cases kind : n.kind <;> rw [kind] at set <;> cases set <;> simp [ModuleAttr.setVal]
  | slice v | map v =>
    cases set
    unfold ModuleAttr.setJson
    cases go.marshal v <;> simp [ModuleAttr.setBytes]
  | other => cases set
  | _ =>
    cases set
    simp [ModuleAttr.setVal, ModuleAttr.setBytes]

omit [DecidableEq S] in
/-- The attributes are named after fields that pass the letter test, in their order. -/
theorem attrRounds_names (go : GoRuntime mem S σ) (bytesOfArray : Bool)
    (fields : List (StructField mem S)) (attr : ModuleAttr) :
    ((attrRounds go bytesOfArray fields attr).calls.map ModuleAttr.name).Sublist
        ((fields.filter fun f => f.exported).map fun f => lowerFirst f.name) ∧
      ∀ a ∈ (attrRounds go bytesOfArray fields attr).calls, a.fmt ≠ .ecmafunc := by
  induction fields generalizing attr with
  | nil => simp [attrRounds, Rounds.done]
  | cons field rest ih =>
    rw [attrRounds]
    by_cases exported : field.exported = true
    · simp only [exported, if_true, List.filter_cons, List.map_cons]
      split
      · simp [Rounds.panicked]
      · split
        · next filled set =>
          obtain ⟨name, fmt⟩ := setField_name set
          obtain ⟨names, formats⟩ := ih filled
          simp only [Rounds.call, List.map_cons, name, List.forall_mem_cons]
          exact ⟨names.cons_cons _, fmt, formats⟩
        · obtain ⟨names, formats⟩ := ih _
          exact ⟨names.cons _, formats⟩
    · simpa [exported] using ih attr

omit [DecidableEq S] in
theorem setField_isSome (go : GoRuntime mem S σ) (attr : ModuleAttr) (val : GoFieldVal mem S) :
    (attr.setField go val).isSome = val.listed := by
  cases val with
  | integer n =>
    simp only [ModuleAttr.setField, ModuleAttr.setInteger, GoFieldVal.listed]
    cases kind : n.kind <;> rfl
  | _ => rfl

omit [DecidableEq S] in
theorem attrRounds_calls_nil (go : GoRuntime mem S σ) {fields : List (StructField mem S)}
    {attr : ModuleAttr} (quiet : (attrRounds go bytesOfArray fields attr).panic = none) :
    (attrRounds go bytesOfArray fields attr).calls = [] ↔
      ∀ field ∈ fields, field.exported = true → field.val.listed = false := by
  induction fields generalizing attr with
  | nil => simp [attrRounds, Rounds.done]
  | cons field rest ih =>
    rw [attrRounds] at quiet ⊢
    rw [List.forall_mem_cons]
    by_cases exported : field.exported = true
    · simp only [exported, if_true, true_imp_iff] at quiet ⊢
      split at quiet
      · cases quiet
      · have listed := setField_isSome go { attr with name := lowerFirst field.name } field.val
        split at quiet
        · next set =>
          rw [set] at listed
          simp [Rounds.call, ← listed]
        · next set =>
          rw [set] at listed
          simpa [set, ← listed] using ih quiet
    · simpa [exported] using ih (by simpa [exported] using quiet)

omit [DecidableEq L] [DecidableEq S] in
/-- The properties of different members have different names, and none of them is hidden. -/
theorem memberNames [GoMembers mem S] (go : GoRuntime mem S σ) (bytesOfArray : Bool)
    {pool : V2KPool (PoolVal L S) Nat} {hMod : Word}
    {info : GoModuleInfo S} {fields : List (StructField mem S)}
    (loaded : StructModule mem pool hMod info fields) (modBridge : Word) (attr : ModuleAttr) :
    ((goMethods mem modBridge info).map ModuleMethod.name ++
        (attrRounds go bytesOfArray fields attr).calls.map ModuleAttr.name).Nodup ∧
      finalizerKey ∉ (goMethods mem modBridge info).map ModuleMethod.name ++
        (attrRounds go bytesOfArray fields attr).calls.map ModuleAttr.name := by
  let names := (List.range info.nMethods).map (NamedMethods.methodName info.structP) ++
    (fields.filter fun f => f.exported).map (·.name)
  have methods : (goMethods mem modBridge info).map ModuleMethod.name =
      ((List.range info.nMethods).map (NamedMethods.methodName info.structP)).map lowerFirst := by
    simp [goMethods, goMethod]
  have sub : ((goMethods mem modBridge info).map ModuleMethod.name ++
      (attrRounds go bytesOfArray fields attr).calls.map ModuleAttr.name).Sublist
        (names.map lowerFirst) := by
    have attrs := (attrRounds_names go bytesOfArray fields attr).1
    rw [methods, List.map_append]
    refine (List.Sublist.refl _).append ?_
    rw [List.map_map]
    exact attrs
  have part : names.Sublist ((List.range (GoStructs.numMethod info.structP)).map
      (NamedMethods.methodName info.structP) ++ fields.map (·.name)) := by
    rw [← loaded.counted]
    exact (List.Sublist.refl _).append (List.filter_sublist.map _)
  -- the letter test passes no lower-case letter, and the methods have none either
  have upper : ∀ name ∈ names, ∃ c rest, name = c :: rest ∧ ¬(97 ≤ c ∧ c ≤ 122) ∧
      (c < 128 ∨ 194 ≤ c) := by
    intro name member
    obtain ⟨c, rest, rfl, letter⟩ := GoMembers.letters _ _ loaded.struct name (part.subset member)
    refine ⟨c, rest, rfl, ?_, letter⟩
    rcases List.mem_append.mp member with method | field
    · obtain ⟨i, within, same⟩ := List.mem_map.mp method
      rw [List.mem_range, loaded.counted] at within
      obtain ⟨d, tail, named, high⟩ := NamedMethods.exported info.structP i within
      rw [named] at same
      cases same
      exact high
    · obtain ⟨f, passed, same⟩ := List.mem_map.mp field
      have passed := (List.mem_filter.mp passed).2
      simp only [GoField.exported, same, Bool.not_eq_true', Bool.or_eq_false_iff] at passed
      simpa using passed.2
  constructor
  · refine sub.nodup (List.Nodup.map_on ?_ (part.nodup (GoMembers.distinctNames _ _ loaded.struct)))
    intro name member name' member' same
    obtain ⟨c, s, rfl, high, _⟩ := upper name member
    obtain ⟨d, t, rfl, high', _⟩ := upper name' member'
    exact lowerFirst_injective high high' same
  · intro hidden
    obtain ⟨name, member, same⟩ := List.mem_map.mp (sub.subset hidden)
    obtain ⟨c, s, rfl, _, letter⟩ := upper name member
    have first := congrArg UInt8.toNat (List.cons.inj same).1
    rw [toNat_lowerLetter] at first
    have letter : c.toNat < 128 ∨ 194 ≤ c.toNat := letter
    split at first <;> simp at first <;> omega

end Members

/-! ### The runs that come to their end -/

section Runs

variable {host : Host H} [GoReflect host.mem S] {c : GoCallbacks host S σ}
  {pool : V2KPool (PoolVal L S) Nat} {ctx ctx' : Ctx H} {udd hMod : Word}
  {info : GoModuleInfo S} {fields : List (StructField host.mem S)}

theorem goGetAttrsRounds_eq (loaded : StructModule host.mem pool hMod info fields) :
    goGetAttrsRounds c.go c.bytesOfArray (some c.garbage) pool hMod =
      attrRounds c.go c.bytesOfArray fields c.garbage := by
  unfold goGetAttrsRounds
  simp only [lookUp_getModInfo_moduleAt, loaded.record, loaded.struct]
  rfl

theorem goGetAttrs_ok {listed : List ModuleAttr}
    (loaded : StructModule host.mem pool hMod info fields)
    (memory : host.mallocs modAttrSize = true)
    (returned : goGetAttrs host c.go c.bytesOfArray c.garbage pool udd hMod ctx =
      .ok listed ctx') :
    listed = [] ∧ (attrRounds c.go c.bytesOfArray fields c.garbage).panic = none ∧
      addAttrs host (attrRounds c.go c.bytesOfArray fields c.garbage).calls ctx = .ok () ctx' := by
  unfold goGetAttrs at returned
  simp only [memory, if_true, goGetAttrsRounds_eq loaded] at returned
  generalize attrRounds c.go c.bytesOfArray fields c.garbage = made at returned ⊢
  have ended : ∀ {mid : Ctx H}, (if made.panic.isSome then throw .noReturn else pure [] :
      Duk H (List ModuleAttr)) mid = .ok listed ctx' →
      listed = [] ∧ made.panic = none ∧ ctx' = mid := by
    intro mid returned
    split at returned
    · cases returned
    · next quiet =>
      cases returned
      exact ⟨rfl, by simpa using quiet, rfl⟩
  -- without a loader there is nothing to call, so no attribute may have been made
  have without : (if made.calls.isEmpty then
      (if made.panic.isSome then throw .noReturn else pure []) else throw .noReturn :
        Duk H (List ModuleAttr)) ctx = .ok listed ctx' →
      listed = [] ∧ made.panic = none ∧ addAttrs host made.calls ctx = .ok () ctx' := by
    intro returned
    split at returned
    · next nothing =>
      obtain ⟨rfl, quiet, rfl⟩ := ended returned
      rw [List.isEmpty_iff.mp nothing]
      exact ⟨rfl, quiet, rfl⟩
    · cases returned
  generalize lookUp (getModuleLoader udd.toInt64 : KeyProg L S _) pool = loader at returned
  cases loader with
  | none => exact without returned
  | some out =>
    cases out with
    | error text => exact without returned
    | ok le =>
      obtain ⟨_, mid, added, ending⟩ := bind_eq_ok.mp returned
      obtain ⟨rfl, quiet, rfl⟩ := ended ending
      exact ⟨rfl, quiet, added⟩

variable {th th' : Threads H} {t id : Word}

/-- What is assumed of Duktape and of the state in which the object is made: the names of the
bridge and of the members are no setters and no read-only properties where they are written, and
decoding a text changes no object. -/
structure Settled (host : Host H) (env : Word) (names : List Bytes) (th : Threads H) : Prop where
  hidden : HiddenWrites host
  unloader : PlainUnloader host th.world.heap
  decodes : DecodesAfresh host
  old : ∀ t obj, .object obj ∈ th.stack t → obj < th.world.nextId
  plain : ∀ obj, obj = th.world.nextId ∨ (th.stack env).head? = some (.object obj) →
    ∀ name ∈ names, ∀ w free v, host.writeThrough w free obj name v = none

/-- The world with the new object. -/
def newObject (w : World H) : World H :=
  { w.setObject w.nextId ⟨.plain, fun _ => none, true, none⟩ with nextId := w.nextId + 1 }

/-- The object is created where it should be; the members go to what is on top of the stack of the
loader's environment. -/
structure ObjBuilt (host : Host H) (t env : Word) (methods : List ModuleMethod)
    (attrs : List ModuleAttr) (th th' : Threads H) (w₂ w₃ : World H) : Prop where
  stack : th'.stack = Function.update th.stack t (.object th.world.nextId :: th.stack t)
  finalizer : Touches th.world.nextId [finalizerKey] (newObject th.world) w₂
  methods : Lands ModuleMethod.name HasMethod methods ((th'.stack env).getD 0 .undefined) w₂ w₃
  attrs : Lands ModuleAttr.name (HasAttr host) attrs ((th'.stack env).getD 0 .undefined) w₃
    th'.world

omit [DecidableEq S] [GoReflect host.mem S] in
theorem put_stack {s : Threads H} {ctx : Ctx H} (same : ctx.stack = s.stack t) :
    ((thread t).put s ctx).stack = s.stack := by
  change Function.update s.stack t ctx.stack = s.stack
  rw [same, Function.update_eq_self]

/-- On either thread the top is the new object or one that was there before. -/
theorem plainTop_of_settled {env : Word} {names part : List Bytes} {ctx : Ctx H}
    (settled : Settled host env names th) (sub : ∀ name ∈ part, name ∈ names)
    (stack : ctx.stack = Function.update th.stack t (.object th.world.nextId :: th.stack t) env)
    (grown : th.world.nextId < ctx.world.nextId) : PlainTop host ctx part := by
  have top : ∀ obj, ctx.get 0 = .object obj →
      obj = th.world.nextId ∨ (th.stack env).head? = some (.object obj) := by
    intro obj same
    rw [Ctx.get, stack] at same
    by_cases own : env = t
    · subst own
      rw [Function.update_self] at same
      exact .inl (JsVal.object.inj same).symm
    · rw [Function.update_of_ne own] at same
      cases below : th.stack env with
      | nil => simp [below] at same
      | cons v rest =>
        rw [below] at same
        exact .inr (congrArg Option.some same)
  constructor
  · intro obj same
    rcases top obj same with rfl | before
    · exact grown
    · exact (settled.old env obj (List.mem_of_mem_head? before)).trans grown
  · intro obj same name member
    exact settled.plain obj (top obj same) name (sub name member)

theorem listMethods_ok {s s' : Threads H} {names : List Bytes}
    (loaded : StructModule host.mem pool hMod info fields)
    (memory : host.mallocs modMethodSize = true)
    (settled : Settled host (loaderEnv pool udd) names th)
    (sub : ∀ name ∈ (goMethods host.mem c.modBridge info).map ModuleMethod.name, name ∈ names)
    (stack : s.stack = Function.update th.stack t (.object th.world.nextId :: th.stack t))
    (grown : th.world.nextId < s.world.nextId)
    (ran : listMethods host c pool t udd hMod s = .ok () s') :
    s'.stack = s.stack ∧ Lands ModuleMethod.name HasMethod (goMethods host.mem c.modBridge info)
      ((s.stack (loaderEnv pool udd)).getD 0 .undefined) s.world s'.world := by
  obtain ⟨methods, mid, listed, adding⟩ := bind_eq_ok.mp ran
  obtain ⟨ctx, called, rfl⟩ := zoom_eq_ok.mp listed
  have record := lookUp_getModInfo_moduleAt pool hMod.toInt64
  rw [loaded.record] at record
  obtain ⟨rfl, added⟩ := goGetMethodsList_ok record memory called
  have top : PlainTop host ((thread (loaderEnv pool udd)).view s)
      ((goMethods host.mem c.modBridge info).map ModuleMethod.name) :=
    plainTop_of_settled settled sub (congrFun stack _) grown
  obtain ⟨kept, lands⟩ := addMethods_lands settled.hidden top added
  -- nothing is left for C to add
  obtain ⟨_, nothing, rfl⟩ := zoom_eq_ok.mp adding
  cases nothing
  exact ⟨(put_stack rfl).trans (put_stack kept), lands⟩

theorem listAttrs_ok {s s' : Threads H} {names : List Bytes}
    (loaded : StructModule host.mem pool hMod info fields)
    (memory : host.mallocs modAttrSize = true)
    (settled : Settled host (loaderEnv pool udd) names th)
    (sub : ∀ name ∈ (attrRounds c.go c.bytesOfArray fields c.garbage).calls.map ModuleAttr.name,
      name ∈ names)
    (stack : s.stack = Function.update th.stack t (.object th.world.nextId :: th.stack t))
    (grown : th.world.nextId < s.world.nextId)
    (ran : listAttrs host c pool t udd hMod s = .ok () s') :
    s'.stack = s.stack ∧ (attrRounds c.go c.bytesOfArray fields c.garbage).panic = none ∧
      Lands ModuleAttr.name (HasAttr host)
        (attrRounds c.go c.bytesOfArray fields c.garbage).calls
      ((s.stack (loaderEnv pool udd)).getD 0 .undefined) s.world s'.world := by
  obtain ⟨attrs, mid, listed, adding⟩ := bind_eq_ok.mp ran
  obtain ⟨ctx, called, rfl⟩ := zoom_eq_ok.mp listed
  obtain ⟨rfl, quiet, added⟩ := goGetAttrs_ok loaded memory called
  have top : PlainTop host ((thread (loaderEnv pool udd)).view s)
      ((attrRounds c.go c.bytesOfArray fields c.garbage).calls.map ModuleAttr.name) :=
    plainTop_of_settled settled sub (congrFun stack _) grown
  obtain ⟨kept, lands⟩ := addAttrs_lands settled.decodes
    (attrRounds_names c.go c.bytesOfArray fields c.garbage).2 top added
  obtain ⟨_, nothing, rfl⟩ := zoom_eq_ok.mp adding
  cases nothing
  exact ⟨(put_stack rfl).trans (put_stack kept), quiet, lands⟩

theorem buildGoObj_ok (loaded : StructModule host.mem pool hMod info fields)
    (memory : host.mallocs modMethodSize = true ∧ host.mallocs modAttrSize = true)
    (settled : Settled host (loaderEnv pool udd)
      ((goMethods host.mem c.modBridge info).map ModuleMethod.name ++
        (attrRounds c.go c.bytesOfArray fields c.garbage).calls.map ModuleAttr.name) th)
    (ran : buildGoObj host c pool t udd id hMod th = .ok () th') :
    (attrRounds c.go c.bytesOfArray fields c.garbage).panic = none ∧
      ∃ w₂ w₃, ObjBuilt host t (loaderEnv pool udd) (goMethods host.mem c.modBridge info)
        (attrRounds c.go c.bytesOfArray fields c.garbage).calls th th' w₂ w₃ := by
  obtain ⟨_, s₁, pushed, ran⟩ := bind_eq_ok.mp ran
  obtain ⟨ctx₁, created, rfl⟩ := zoom_eq_ok.mp pushed
  obtain rfl := pushNew_ok created
  obtain ⟨_, s₂, finalized, ran⟩ := bind_eq_ok.mp ran
  obtain ⟨ctx₂, set, rfl⟩ := zoom_eq_ok.mp finalized
  rw [(thread t).view_put] at set
  rw [(thread t).put_put] at ran
  obtain ⟨stack₂, _, finalizer⟩ :=
    setUnloader_touches settled.unloader rfl (Nat.lt_succ_self _) set
  obtain ⟨_, s₃, methods, attrs⟩ := bind_eq_ok.mp ran
  have stack : ((thread t).put th ctx₂).stack =
      Function.update th.stack t (.object th.world.nextId :: th.stack t) :=
    congrArg (Function.update th.stack t) stack₂
  have grown : th.world.nextId < ctx₂.world.nextId :=
    (Nat.lt_succ_self _).trans_le finalizer.grows
  obtain ⟨stack₃, methods⟩ := listMethods_ok loaded memory.1 settled
    (fun name member => List.mem_append_left _ member) stack grown methods
  have grown₃ := grown.trans_le methods.grows
  obtain ⟨stack₄, quiet, attrs⟩ := listAttrs_ok loaded memory.2 settled
    (fun name member => List.mem_append_right _ member) (stack₃.trans stack) grown₃ attrs
  have final := stack₄.trans stack₃
  rw [← final] at methods
  rw [← stack₄] at attrs
  exact ⟨quiet, ctx₂.world, s₃.world, final.trans stack, finalizer, methods, attrs⟩

end Runs

/-! ### Where the members land -/

section Landing

variable {host : Host H} {α : Type} {name : α → Bytes} {HasMember : World H → Nat → α → Prop}
  {members : List α} {top : JsVal} {w w' : World H} {obj : Nat}

theorem Lands.here (lands : Lands name HasMember members top w w')
    (own : top = .object obj ∨ members = []) : Touches obj (members.map name) w w' ∧
      ((members.map name).Nodup → ∀ a ∈ members, HasMember w' obj a) := by
  rcases lands with ⟨rfl, rfl⟩ | ⟨some, id, same, touches, all⟩
  · exact ⟨touches_refl .., by simp⟩
  · rw [own.resolve_right some, JsVal.object.injEq] at same
    subst same
    exact ⟨touches, all⟩

theorem Lands.elsewhere (lands : Lands name HasMember members top w w') (other : top ≠ .object obj)
    (old : obj < w.nextId) : w'.objects obj = w.objects obj := by
  rcases lands with ⟨_, rfl⟩ | ⟨_, id, rfl, touches, _⟩
  · rfl
  · exact touches.others obj old fun same => other (congrArg _ same.symm)

end Landing

theorem newObject_own (w : World H) (key : Bytes) :
    ((newObject w).objects w.nextId).own key = none := by
  simp [newObject, World.setObject]

section Landing

variable {host : Host H} {t env : Word} {methods : List ModuleMethod} {attrs : List ModuleAttr}
  {th th' : Threads H} {w₂ w₃ : World H}

/-- With the new object on top where they are added, the members are its own. -/
theorem membersLand_here (built : ObjBuilt host t env methods attrs th th' w₂ w₃)
    (distinct : (methods.map ModuleMethod.name ++ attrs.map ModuleAttr.name).Nodup)
    (own : t = env ∨ methods = [] ∧ attrs = []) : MembersLand host t methods attrs th th' := by
  have top : (th'.stack env).getD 0 .undefined = .object th.world.nextId ∨
      methods = [] ∧ attrs = [] := by
    refine own.imp_left ?_
    rintro rfl
    rw [built.stack, Function.update_self]
    rfl
  obtain ⟨distinctMethods, distinctAttrs, apart⟩ := List.nodup_append.mp distinct
  obtain ⟨first, hasMethods⟩ := built.methods.here (top.imp_right And.left)
  obtain ⟨second, hasAttrs⟩ := built.attrs.here (top.imp_right And.right)
  have made : th.world.nextId < w₂.nextId := (Nat.lt_succ_self _).trans_le built.finalizer.grows
  have touches := built.finalizer.trans (first.trans second)
  constructor
  · rw [built.stack, Function.update_self]
  · intro u other
    rw [built.stack, Function.update_of_ne other]
  · intro id old
    rw [touches.others id (old.trans (Nat.lt_succ_self _)) (Nat.ne_of_lt old)]
    exact Function.update_of_ne (Nat.ne_of_lt old) ..
  · intro method member
    apply (hasMethods distinctMethods method member).touches second (made.trans_le first.grows)
    intro same
    exact apart _ (List.mem_map_of_mem member) _ same rfl
  · exact hasAttrs distinctAttrs
  · intro key own
    by_contra fresh
    rw [not_or] at fresh
    rw [touches.own key (by simpa using fresh), newObject_own] at own
    exact own rfl

/-- Added to an older object, they are not there. -/
theorem membersLand_elsewhere (built : ObjBuilt host t env methods attrs th th' w₂ w₃)
    (hidden : finalizerKey ∉ methods.map ModuleMethod.name ++ attrs.map ModuleAttr.name)
    (other : t ≠ env) (old : ∀ obj, .object obj ∈ th.stack env → obj < th.world.nextId)
    (land : MembersLand host t methods attrs th th') : methods = [] ∧ attrs = [] := by
  have top : (th'.stack env).getD 0 .undefined ≠ .object th.world.nextId := by
    rw [built.stack, Function.update_of_ne other.symm]
    intro same
    cases below : th.stack env with
    | nil => simp [below] at same
    | cons v rest =>
      have within := old th.world.nextId (by simp_all)
      omega
  have made : th.world.nextId < w₂.nextId := (Nat.lt_succ_self _).trans_le built.finalizer.grows
  have same : th'.world.objects th.world.nextId = w₂.objects th.world.nextId :=
    (built.attrs.elsewhere top (made.trans_le built.methods.grows)).trans
      (built.methods.elsewhere top made)
  have absent : ∀ name ∈ methods.map ModuleMethod.name ++ attrs.map ModuleAttr.name, ∀ v,
      ¬ Has (th'.world.objects th.world.nextId) name v := by
    rintro name member v ⟨_, _, own⟩
    have apart : name ∉ [finalizerKey] := by
      rw [List.mem_singleton]
      rintro rfl
      exact hidden member
    rw [same, built.finalizer.own name apart, newObject_own] at own
    cases own
  constructor
  · apply List.eq_nil_iff_forall_not_mem.mpr
    intro method member
    obtain ⟨f, _, _, has, _⟩ := land.hasMethods method member
    exact absent _ (List.mem_append_left _ (List.mem_map_of_mem member)) _ has
  · apply List.eq_nil_iff_forall_not_mem.mpr
    intro attr member
    obtain ⟨v, has, _⟩ := land.hasAttrs attr member
    exact absent _ (List.mem_append_right _ (List.mem_map_of_mem member)) _ has

end Landing

/-! ### The initial thread and the others -/

/-- Go knows the environment by its initial thread: its loaders lead there, and no other thread is
an environment. -/
structure ThreadOf (firstLoaderKey : LoaderKeyMap) (pool : V2KPool (PoolVal L S) Nat)
    (env t : Word) : Prop where
  first : ∃ key, firstLoaderKey env = some key ∧ loaderEnv pool key.toUInt64 = env
  coroutine : t ≠ env → firstLoaderKey t = none

section Threads

variable {host : Host H} [GoMembers host.mem S] (c : GoCallbacks host S σ)
  {pool : V2KPool (PoolVal L S) Nat} {firstLoaderKey : LoaderKeyMap} {env t hMod : Word}
  {info : GoModuleInfo S} {fields : List (StructField host.mem S)} {th : Threads H}

theorem buildGoObj_land_iff (loaded : StructModule host.mem pool hMod info fields)
    (memory : host.mallocs modMethodSize = true ∧ host.mallocs modAttrSize = true)
    (settled : Settled host env ((goMethods host.mem c.modBridge info).map ModuleMethod.name ++
      (attrRounds c.go c.bytesOfArray fields c.garbage).calls.map ModuleAttr.name) th)
    {udd id : Word} (registered : loaderEnv pool udd = env) {th' : Threads H}
    (ran : buildGoObj host c pool t udd id hMod th = .ok () th') :
    MembersLand host t (goMethods host.mem c.modBridge info)
      (attrRounds c.go c.bytesOfArray fields c.garbage).calls th th' ↔
        t = env ∨ NoMembers info fields := by
  subst registered
  obtain ⟨quiet, w₂, w₃, built⟩ := buildGoObj_ok loaded memory settled ran
  obtain ⟨distinct, hidden⟩ := memberNames c.go c.bytesOfArray loaded c.modBridge c.garbage
  have nothing : NoMembers info fields ↔ goMethods host.mem c.modBridge info = [] ∧
      (attrRounds c.go c.bytesOfArray fields c.garbage).calls = [] := by
    rw [NoMembers, attrRounds_calls_nil c.go quiet, goMethods, ← loaded.counted]
    simp
  rw [nothing]
  constructor
  · intro land
    by_cases initial : t = loaderEnv pool udd
    · exact .inl initial
    · exact .inr (membersLand_elsewhere built hidden initial (settled.old _) land)
  · exact membersLand_here built distinct

/-- The object that is pushed on a thread for a module, or for a struct that a function returned,
ends with the members, and nothing else changes, if and only if the thread is the initial one, or
the module that `require` loads has nothing to add. -/
theorem members_land_iff (ofEnv : ThreadOf firstLoaderKey pool env t)
    (loaded : StructModule host.mem pool hMod info fields)
    (memory : host.mallocs modMethodSize = true ∧ host.mallocs modAttrSize = true)
    (settled : Settled host env ((goMethods host.mem c.modBridge info).map ModuleMethod.name ++
      (attrRounds c.go c.bytesOfArray fields c.garbage).calls.map ModuleAttr.name) th) :
    (∀ udd id th', loaderEnv pool udd = env →
      buildGoObj host c pool t udd id hMod th = .ok () th' →
        (MembersLand host t (goMethods host.mem c.modBridge info)
          (attrRounds c.go c.bytesOfArray fields c.garbage).calls th th' ↔
            t = env ∨ NoMembers info fields)) ∧
    ∀ th', pushStructResult host c pool firstLoaderKey t hMod th = .ok () th' →
      (MembersLand host t (goMethods host.mem c.modBridge info)
        (attrRounds c.go c.bytesOfArray fields c.garbage).calls th th' ↔ t = env) := by
  refine ⟨fun udd id th' registered ran =>
    buildGoObj_land_iff c loaded memory settled registered ran, ?_⟩
  intro th' ran
  obtain ⟨key, found, leads⟩ := ofEnv.first
  by_cases initial : t = env
  · subst initial
    simp only [pushStructResult, goCreateEcmascriptObject, found, Option.map_some] at ran
    have lands := buildGoObj_land_iff c loaded memory settled leads ran
    exact iff_of_true (lands.mpr (.inl rfl)) rfl
  · simp only [pushStructResult, goCreateEcmascriptObject, ofEnv.coroutine initial,
      Option.map_none] at ran
    obtain ⟨ctx, pushed, rfl⟩ := zoom_eq_ok.mp ran
    obtain ⟨_, rfl⟩ := push_eq_ok.mp pushed
    refine iff_of_false ?_ initial
    -- undefined is pushed in place of an object
    intro land
    have top := land.stack
    simp [thread, Ctx.pushed] at top

end Threads

/-! ### A greeter on a coroutine -/

instance : GoMembers stillBridge.host.mem Greeter where
  valueOf _ := .ptr (.struct [])
  distinctNames s fields same := by
    cases same
    exact List.nodup_singleton _
  letters s fields same := by
    cases same
    intro name member
    obtain ⟨i, _, rfl⟩ : ∃ i < GoStructs.numMethod s, NamedMethods.methodName s i = name := by
      simpa using member
    have named : ascii "Greet" = 71 :: ascii "reet" := by decide
    exact ⟨71, ascii "reet", named, .inl (by decide)⟩

/-- The loader has the key 1 and the greeter the key 3. -/
def greeterPool : V2KPool (PoolVal Bool Greeter) Nat :=
  (((methodKeyGenerator countingClock).drawn countingClock (.moduleLoaderEnv ⟨true, 64⟩)).drawn
    countingClock (.reflectValue .greeter 0)).drawn countingClock
      (.goModuleInfo ⟨.greeter, .greeter, 1, [2]⟩)

def greeterCallbacks : GoCallbacks stillBridge.host Greeter Unit where
  go := ⟨fun _ => none, fun _ st => (0, st), 0⟩
  bytesOfArray := true
  garbage := ⟨[], .none, 0, 0⟩
  modBridge := 7
  finalizeModule := 4
  finalizes := by decide

/-- The initial thread, 64, has an object on its stack, a coroutine nothing. -/
def oneCoroutine : Threads Unit where
  stack t := if t = 64 then [.object 1] else []
  reserve _ := freshEnvironment.reserve
  world := freshEnvironment.world

theorem greeterModule :
    StructModule stillBridge.host.mem greeterPool 3 ⟨.greeter, .greeter, 1, [2]⟩ [] :=
  ⟨rfl, rfl, rfl⟩

theorem settled_oneCoroutine (env : Word) (names : List Bytes) :
    Settled stillBridge.host env names oneCoroutine where
  hidden _ _ _ _ _ _ := rfl
  unloader _ _ _ _ _ _ _ := rfl
  decodes w free text v w' reserved decoded := by
    cases decoded
    exact ⟨Nat.le_refl _, fun _ _ => rfl⟩
  old t obj member := by
    change _ ∈ (if t = 64 then _ else _) at member
    split at member <;> simp_all [oneCoroutine, freshEnvironment]
  plain _ _ _ _ _ _ _ := rfl

/-- On a coroutine the method of the greeter goes to the object that the initial thread happens to
have on top of its stack. -/
theorem coroutine_members_elsewhere : ∃ th',
    buildGoObj stillBridge.host greeterCallbacks greeterPool 65 1 0 3 oneCoroutine = .ok () th' ∧
      th'.stack 65 = [.object 3] ∧ (th'.world.objects 3).own (ascii "greet") = none ∧
      ¬ MembersLand stillBridge.host 65
        (goMethods stillBridge.host.mem 7 ⟨Greeter.greeter, .greeter, 1, [2]⟩) []
        oneCoroutine th' := by
  have checked : returnsIn (fun th' => decide (th'.stack 65 = [.object 3]) &&
      decide ((th'.world.objects 3).own (ascii "greet") = none) &&
      ((th'.world.objects 1).own (ascii "greet")).isSome)
      (buildGoObj stillBridge.host greeterCallbacks greeterPool 65 1 0 3) oneCoroutine = true := by
    decide +kernel
  obtain ⟨_, th', ran, checks⟩ := returnsIn_eq_true.mp checked
  simp only [Bool.and_eq_true, decide_eq_true_eq] at checks
  refine ⟨th', ran, checks.1.1, checks.1.2, ?_⟩
  intro land
  have other := checks.2
  rw [land.objects 1 (by decide)] at other
  cases other

theorem members_land_iff_initial : (∃ th',
    buildGoObj stillBridge.host greeterCallbacks greeterPool 64 1 0 3 oneCoroutine = .ok () th' ∧
      MembersLand stillBridge.host 64
        (goMethods stillBridge.host.mem 7 ⟨Greeter.greeter, .greeter, 1, [2]⟩) []
        oneCoroutine th') ∧
    ∃ th', pushStructResult stillBridge.host greeterCallbacks greeterPool
        (Function.update (fun _ => none) 64 (some 1)) 64 3 oneCoroutine = .ok () th' ∧
      MembersLand stillBridge.host 64
        (goMethods stillBridge.host.mem 7 ⟨Greeter.greeter, .greeter, 1, [2]⟩) []
        oneCoroutine th' := by
  have built : returnsIn (fun _ => true)
      (buildGoObj stillBridge.host greeterCallbacks greeterPool 64 1 0 3) oneCoroutine = true := by
    decide +kernel
  have created : returnsIn (fun _ => true) (pushStructResult stillBridge.host greeterCallbacks
      greeterPool (Function.update (fun _ => none) 64 (some 1)) 64 3) oneCoroutine = true := by
    decide +kernel
  obtain ⟨_, th', ran, _⟩ := returnsIn_eq_true.mp built
  obtain ⟨_, th'', ran', _⟩ := returnsIn_eq_true.mp created
  have ofEnv : ThreadOf (Function.update (fun _ => none) 64 (some 1)) greeterPool 64 64 :=
    ⟨⟨1, rfl, rfl⟩, fun other => absurd rfl other⟩
  obtain ⟨required, returned⟩ := members_land_iff greeterCallbacks ofEnv greeterModule ⟨rfl, rfl⟩
    (settled_oneCoroutine 64 _)
  exact ⟨⟨th', ran, (required 1 0 th' rfl ran).mpr (.inl rfl)⟩, th'', ran',
    (returned th'' ran').mpr rfl⟩

end DukBridge
