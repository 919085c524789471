import DukBridge.StructMethods

/-!
# Which modules can be exposed

`go_loadModule` decides by the kind of what `LoadModule` returned. `go_getMethodsList`,
`go_getAttrsList` and `go_finalizeModule` read the value again from the pool, and `reflect`
panics where a method does not suit the value.
-/
namespace DukBridge

open Rendezvous KeyStore MethodKeyGenerator

variable {L S σ : Type} {mem : Memory}

/-! ### Values as `reflect` sees them -/

/-- The method of `reflect.Value` that panics. -/
inductive ReflectPanic where
  | elem
  | numField
  | method
  | bytes
  | interface
deriving DecidableEq

/-- A field with what `reflect` knows about it besides its value. -/
structure StructField (mem : Memory) (S : Type) extends GoField mem S where
  /-- The language's own rule: the name begins with a capital letter of any script. -/
  isExported : Bool
  /-- The Kind is Array. -/
  isArray : Bool
  ascii_iff : ∀ c ∈ name.head?, c < 128 → (isExported = true ↔ 65 ≤ c ∧ c ≤ 90)

inductive ReflectValue (mem : Memory) (S : Type) where
  /-- The zero Value: where a nil pointer points to. -/
  | invalid
  | struct (fields : List (StructField mem S))
  | ptr (pointee : ReflectValue mem S)
  | iface (held : ReflectValue mem S)
  | other

namespace ReflectValue

def elem : ReflectValue mem S → Except ReflectPanic (ReflectValue mem S)
  | .ptr v | .iface v => .ok v
  | .invalid | .struct _ | .other => .error .elem

/-- `NumField`, with the fields it counts. -/
def numField : ReflectValue mem S → Except ReflectPanic (List (StructField mem S))
  | .struct fields => .ok fields
  | .invalid | .ptr _ | .iface _ | .other => .error .numField

end ReflectValue

class GoReflect (mem : Memory) (S : Type) extends GoMethods mem S where
  valueOf : S → ReflectValue mem S

/-- The nested tests of `go_loadModule`; `Elem` is called on pointers only. -/
def reflectLoaded (mem : Memory) [GoReflect mem S] : Option S → LoadedModule S
  | none => .nil
  | some structPtr =>
    match (GoReflect.valueOf structPtr : ReflectValue mem S) with
    | .struct _ => .struct structPtr
    | .ptr (.struct _) => .structPtr structPtr
    | .ptr _ => .otherPtr
    | .invalid | .iface _ | .other => .other

/-! ### The callbacks, as far as they are Go -/

/-- What a callback hands to C, one call after the other, and the panic that ends it if one does. -/
structure Rounds (α : Type) where
  calls : List α
  panic : Option ReflectPanic

namespace Rounds

def done {α : Type} : Rounds α := ⟨[], none⟩

def panicked {α : Type} (p : ReflectPanic) : Rounds α := ⟨[], some p⟩

def call {α : Type} (a : α) (rest : Rounds α) : Rounds α := ⟨a :: rest.calls, rest.panic⟩

end Rounds

/-- The loop of `go_getMethodsList` over these indices. -/
def methodRounds (mem : Memory) [GoMethods mem S] (modBridge : Word) (info : GoModuleInfo S) :
    List Nat → Rounds ModuleMethod
  | [] => .done
  | i :: rest =>
    if i < GoStructs.numMethod info.structP then
      .call (goMethod mem modBridge info i) (methodRounds mem modBridge info rest)
    else .panicked .method

/-- The call of `reflect` in the case of the switch. `Bytes` accepts an array from Go 1.19 on;
`Interface` refuses the fields that the language does not export. -/
def StructField.reflectPanic (bytesOfArray : Bool) (field : StructField mem S) :
    Option ReflectPanic :=
  match field.val with
  | .bytes _ => if field.isArray && !bytesOfArray then some .bytes else none
  | .slice _ | .map _ => if field.isExported then none else some .interface
  | .bool _ | .integer _ | .float _ | .string _ | .absent | .other => none

/-- The loop of `go_getAttrsList`. -/
def attrRounds (go : GoRuntime mem S σ) (bytesOfArray : Bool) :
    List (StructField mem S) → ModuleAttr → Rounds ModuleAttr
  | [], _ => .done
  | field :: rest, attr =>
    if field.exported then
      match field.reflectPanic bytesOfArray with
      | some p => .panicked p
      | none =>
        let named := { attr with name := lowerFirst field.name }
        match named.setField go field.val with
        | some filled => .call filled (attrRounds go bytesOfArray rest filled)
        | none => attrRounds go bytesOfArray rest named
    else attrRounds go bytesOfArray rest attr

variable [DecidableEq L] [DecidableEq S]

/-- `go_getMethodsList`, given whether there is memory for its `c_method`. -/
def goGetMethodsRounds (mem : Memory) [GoMethods mem S] (modBridge : Word) (allocated : Bool)
    (pool : V2KPool (PoolVal L S) Nat) (modHandle : Word) : Rounds ModuleMethod :=
  match lookUp (getModInfo modHandle.toInt64 : KeyProg L S _) pool with
  | some (some info) =>
    if allocated then methodRounds mem modBridge info (List.range info.nMethods) else .done
  | _ => .done

/-- `go_getAttrsList`, given whether there is memory for its `c_attr` and what is in it. -/
def goGetAttrsRounds [GoReflect mem S] (go : GoRuntime mem S σ) (bytesOfArray : Bool)
    (allocated : Option ModuleAttr) (pool : V2KPool (PoolVal L S) Nat) (modHandle : Word) :
    Rounds ModuleAttr :=
  match lookUp (getModInfo modHandle.toInt64 : KeyProg L S _) pool, allocated with
  | some (some info), some attr =>
    match (GoReflect.valueOf info.structP : ReflectValue mem S).elem >>= ReflectValue.numField with
    | .ok fields => attrRounds go bytesOfArray fields attr
    | .error p => .panicked p
  | _, _ => .done

/-- As long as the pool has the record of the module, the callbacks on its handle end without a
panic. -/
structure Exposable [GoReflect mem S] (go : GoRuntime mem S σ) (bytesOfArray : Bool)
    (clock : Nat → Int64) (p : V2KPool (PoolVal L S) Nat) (modHandle : Word) : Prop where
  methods : ∀ (q : V2KPool (PoolVal L S) Nat) modBridge allocated,
    q.moduleAt modHandle.toInt64 = p.moduleAt modHandle.toInt64 →
      (goGetMethodsRounds mem modBridge allocated q modHandle).panic = none
  attrs : ∀ (q : V2KPool (PoolVal L S) Nat) allocated,
    q.moduleAt modHandle.toInt64 = p.moduleAt modHandle.toInt64 →
      (goGetAttrsRounds go bytesOfArray allocated q modHandle).panic = none
  finalize : ∀ q : V2KPool (PoolVal L S) Nat, KeyPool.Sound clock ⟨q, []⟩ →
    q.moduleAt modHandle.toInt64 = p.moduleAt modHandle.toInt64 → ∀ udd modName,
      ∃ call q', Alone q (goFinalizeModule udd modName modHandle) call q' ∧ call ≠ .nilDereference

/-- The kinds that are refused, and pointers to a struct whose fields `reflect` lets be read as the
switch reads them. -/
def CanBeExposed (mem : Memory) [GoReflect mem S] (bytesOfArray : Bool) : Option S → Prop
  | none => True
  | some structPtr =>
    match (GoReflect.valueOf structPtr : ReflectValue mem S) with
    | .struct _ => False
    | .ptr (.struct fields) =>
      ∀ field ∈ fields, field.exported = true → field.reflectPanic bytesOfArray = none
    | .ptr _ | .invalid | .iface _ | .other => True

/-! ### Rounds without a panic -/

omit [DecidableEq S] in
theorem methodRounds_within [GoMethods mem S] {modBridge : Word} {info : GoModuleInfo S}
    {indices : List Nat} (within : ∀ i ∈ indices, i < GoStructs.numMethod info.structP) :
    methodRounds mem modBridge info indices =
      ⟨indices.map (goMethod mem modBridge info), none⟩ := by
  induction indices with
  | nil => rfl
  | cons i rest ih =>
    have own : i < GoStructs.numMethod info.structP := within i (by simp)
    simp [methodRounds, own, ih fun j member => within j (by simp [member]), Rounds.call]

omit [DecidableEq S] in
theorem attrRounds_panic_iff (go : GoRuntime mem S σ) (bytesOfArray : Bool)
    (fields : List (StructField mem S)) (attr : ModuleAttr) :
    (attrRounds go bytesOfArray fields attr).panic = none ↔
      ∀ field ∈ fields, field.exported = true → field.reflectPanic bytesOfArray = none := by
  induction fields generalizing attr with
  | nil => simp [attrRounds, Rounds.done]
  | cons field rest ih =>
    rw [List.forall_mem_cons, attrRounds]
    by_cases exported : field.exported = true
    · cases panics : field.reflectPanic bytesOfArray with
      | some p => simp [exported, Rounds.panicked]
      | none =>
        simp only [exported, if_true, true_imp_iff, true_and]
        -- the panic, if there is one, is that of a later round
        split
        · next filled _ => exact ih filled
        · exact ih _
    · simpa [exported] using ih attr

omit [DecidableEq S] in
/-- Without a panic the loop makes the calls it makes on plain fields. -/
theorem goGetAttrsList_eq {H : Type} (host : Host H) (go : GoRuntime host.mem S σ)
    (bytesOfArray : Bool) {fields : List (StructField host.mem S)} {attr : ModuleAttr}
    (quiet : (attrRounds go bytesOfArray fields attr).panic = none) :
    goGetAttrsList host go (fields.map StructField.toGoField) attr =
      addAttrs host (attrRounds go bytesOfArray fields attr).calls := by
  induction fields generalizing attr with
  | nil => rfl
  | cons field rest ih =>
    simp only [List.map_cons, goGetAttrsList, attrRounds] at quiet ⊢
    by_cases exported : field.exported = true
    · simp only [exported, if_true] at quiet ⊢
      cases panics : field.reflectPanic bytesOfArray with
      | some p => simp [panics, Rounds.panicked] at quiet
      | none =>
        simp only [panics] at quiet ⊢
        cases filled : ({ attr with name := lowerFirst field.name }.setField go field.val) with
        | some filled =>
          simp only [filled, Rounds.call] at quiet ⊢
          rw [ih quiet]
          rfl
        | none =>
          simp only [filled] at quiet ⊢
          exact ih quiet
    · simp only [exported] at quiet ⊢
      exact ih quiet

/-! ### Programs that run alone to their end -/

variable {clock : Nat → Int64} {p p' q : V2KPool (PoolVal L S) Nat} {β : Type}

theorem Runs.alone {prog : KeyProg L S β} {b : β} (ran : Runs clock p prog b p') :
    Alone p prog b p' :=
  runsAlone_of_runAlone (fun _ _ => trivial) ran.runAlone_eq

theorem alone_getModInfo_moduleAt (p : V2KPool (PoolVal L S) Nat) (modKey : Int64) :
    Alone p (getModInfo modKey : KeyProg L S _) (p.moduleAt modKey) p := by
  refine alone_bind.mpr ⟨_, _, (runs_GetVal_any (fun _ => 0) p modKey).alone, ?_⟩
  unfold V2KPool.moduleAt
  cases p.k2v (.int64 modKey) with
  | none => exact alone_pure.mpr ⟨rfl, rfl⟩
  | some v => cases v <;> exact alone_pure.mpr ⟨rfl, rfl⟩

theorem alone_getModuleLoader_any (p : V2KPool (PoolVal L S) Nat) (loaderKey : Int64) :
    ∃ out, Alone p (getModuleLoader loaderKey : KeyProg L S _) out p := by
  have read := (runs_GetVal_any (fun _ => 0) p loaderKey).alone
  generalize (p.k2v (.int64 loaderKey)).getD .nil = v at read
  cases v <;>
    exact ⟨_, alone_bind.mpr ⟨_, _, read, alone_pure.mpr ⟨rfl, rfl⟩⟩⟩

theorem lookUp_getModInfo_moduleAt (p : V2KPool (PoolVal L S) Nat) (modKey : Int64) :
    lookUp (getModInfo modKey : KeyProg L S _) p = some (p.moduleAt modKey) := by
  unfold lookUp
  rw [(alone_getModInfo_moduleAt p modKey).runAlone_eq]

theorem lookUp_getModuleLoader_isSome {loaderKey : Int64} (found : (p.loaderAt loaderKey).isSome) :
    ∃ le, lookUp (getModuleLoader loaderKey : KeyProg L S _) p = some (.ok le) := by
  obtain ⟨out, asked⟩ := alone_getModuleLoader_any p loaderKey
  have known := (alone_getModuleLoader asked).1
  cases out with
  | error text =>
    rw [← known] at found
    cases found
  | ok le =>
    refine ⟨le, ?_⟩
    unfold lookUp
    rw [asked.runAlone_eq]

/-- With the record in the pool the finalizer ends. -/
theorem alone_goFinalizeModule_any (sound : KeyPool.Sound clock ⟨p, []⟩) (udd modHandle : Word)
    (modName : Bytes) {info : GoModuleInfo S} (counted : info.methodKeys.length = info.nMethods)
    (found : p.moduleAt modHandle.toInt64 = some info) :
    ∃ call p', Alone p (goFinalizeModule udd modName modHandle) call p' ∧
      call ≠ .nilDereference := by
  let x : Exposed S := ⟨modHandle.toInt64, info, counted⟩
  obtain ⟨p', removed⟩ := runs_removeModule_found (x := x) sound (moduleAt_eq_some.mp found)
  obtain ⟨out, asked⟩ := alone_getModuleLoader_any p udd.toInt64
  have known := alone_getModInfo_moduleAt p modHandle.toInt64
  rw [found] at known
  cases out with
  | ok le =>
    exact ⟨_, p', alone_bind.mpr ⟨_, _, known, alone_bind.mpr ⟨_, _, asked,
      alone_bind.mpr ⟨_, _, removed.alone, alone_pure.mpr ⟨rfl, rfl⟩⟩⟩⟩, by simp⟩
  | error text =>
    exact ⟨_, p', alone_bind.mpr ⟨_, _, known, alone_bind.mpr ⟨_, _, asked,
      alone_bind.mpr ⟨_, _, removed.alone, alone_pure.mpr ⟨rfl, rfl⟩⟩⟩⟩, by simp⟩

/-! ### What was accepted -/

/-- The fields that `go_getAttrsList` finds in the record. -/
theorem exposable_iff [GoReflect mem S] {go : GoRuntime mem S σ} {bytesOfArray : Bool}
    {modHandle : Word} {info : GoModuleInfo S} (found : p.moduleAt modHandle.toInt64 = some info)
    (counted : info.methodKeys.length = info.nMethods)
    (own : info.nMethods = GoStructs.numMethod info.structP) :
    Exposable go bytesOfArray clock p modHandle ↔ ∃ fields,
      (GoReflect.valueOf info.structP : ReflectValue mem S).elem >>= ReflectValue.numField =
        .ok fields ∧
      ∀ field ∈ fields, field.exported = true → field.reflectPanic bytesOfArray = none := by
  constructor
  · intro exposable
    -- with memory for one field the rounds read all of them
    have quiet := exposable.attrs p (some ⟨[], .none, 0, 0⟩) rfl
    unfold goGetAttrsRounds at quiet
    simp only [lookUp_getModInfo_moduleAt, found] at quiet
    split at quiet
    · next fields known => exact ⟨fields, known, (attrRounds_panic_iff ..).mp quiet⟩
    · cases quiet
  · rintro ⟨fields, known, readable⟩
    constructor
    -- the methods, the fields and the finalizer, in any pool that has the record
    · intro q modBridge allocated same
      rw [goGetMethodsRounds, lookUp_getModInfo_moduleAt, same, found]
      cases allocated with
      | false => rfl
      | true =>
        have within : ∀ i ∈ List.range info.nMethods, i < GoStructs.numMethod info.structP := by
          simp [own]
        simp only [if_true, methodRounds_within within]
    · intro q allocated same
      unfold goGetAttrsRounds
      rw [lookUp_getModInfo_moduleAt, same, found]
      cases allocated with
      | none => rfl
      | some attr =>
        simp only [known]
        exact (attrRounds_panic_iff ..).mpr readable
    · intro q sound' same udd modName
      exact alone_goFinalizeModule_any sound' udd modHandle modName counted (same.trans found)

/-- What was stored is in the pool afterwards, so it was not refused. -/
theorem createMethodKeys_exposable_iff [GoReflect mem S] (go : GoRuntime mem S σ)
    (bytesOfArray : Bool) (sound : KeyPool.Sound clock ⟨p, []⟩) {s : S} {modKey : Int64}
    {methodKeys : List Int64}
    (ran : Alone p (createMethodKeys s s : KeyProg L S _) (modKey, methodKeys) p') :
    (modKey.toUInt64 = 0 ∧ p' = p) ∨ Exposable go bytesOfArray clock p' modKey.toUInt64 ↔
      ∃ fields,
        (GoReflect.valueOf s : ReflectValue mem S).elem >>= ReflectValue.numField = .ok fields ∧
        ∀ field ∈ fields, field.exported = true → field.reflectPanic bytesOfArray = none := by
  obtain ⟨q, grown, _, count, rfl, rfl⟩ := alone_createMethodKeys sound ran
  let info : GoModuleInfo S := ⟨s, s, GoStructs.numMethod s, methodKeys⟩
  have stored : (q.drawn clock (.goModuleInfo info)).moduleAt (clock q.gen).toUInt64.toInt64 =
      some info := by
    rw [Int64.toInt64_toUInt64]
    exact moduleAt_eq_some.mpr (drawn_k2v_self _ q)
  have changed : q.drawn clock (.goModuleInfo info) ≠ p := by
    intro same
    -- at least the reading for the record was drawn
    have reads : q.gen + 1 = p.gen := congrArg V2KPool.gen same
    have before := grown.reads
    omega
  rw [or_iff_right fun refused => changed refused.2]
  exact exposable_iff stored count rfl

theorem alone_goLoadModule_missing [GoStructs S] {loadModule : L → Bytes → Bytes → LoadedModule S}
    {udd modHandle : Word} {modHome modName : Bytes} (missing : p.loaderAt udd.toInt64 = none)
    (ran : Alone p (goLoadModule loadModule udd modHome modName : KeyProg L S Word) modHandle p') :
    modHandle = 0 ∧ p' = p := by
  obtain ⟨out, q, asked, ran⟩ := alone_bind.mp ran
  obtain ⟨loader, rfl⟩ := alone_getModuleLoader asked
  rw [missing] at loader
  cases out with
  | ok le => cases loader
  | error text => exact alone_pure.mp ran

theorem alone_goLoadModule_found [GoStructs S] {loadModule : L → Bytes → Bytes → LoadedModule S}
    {udd modHandle env : Word} {modHome modName : Bytes} {loader : L}
    (found : p.loaderAt udd.toInt64 = some (loader, env))
    (ran : Alone p (goLoadModule loadModule udd modHome modName : KeyProg L S Word) modHandle p') :
    match loadModule loader modHome modName with
    | .struct s | .structPtr s => ∃ modKey methodKeys, modHandle = modKey.toUInt64 ∧
        Alone p (createMethodKeys s s : KeyProg L S _) (modKey, methodKeys) p'
    | .nil | .otherPtr | .other => modHandle = 0 ∧ p' = p := by
  obtain ⟨out, q, asked, ran⟩ := alone_bind.mp ran
  obtain ⟨known, rfl⟩ := alone_getModuleLoader asked
  rw [found] at known
  cases out with
  | error text => cases known
  | ok le =>
    cases known
    dsimp only at ran
    cases loaded : loadModule loader modHome modName with
    | nil | otherPtr | other =>
      rw [loaded] at ran
      exact alone_pure.mp ran
    | struct s | structPtr s =>
      rw [loaded] at ran
      obtain ⟨⟨modKey, methodKeys⟩, r, created, ended⟩ := alone_bind.mp ran
      obtain ⟨rfl, rfl⟩ := alone_pure.mp ended
      exact ⟨modKey, methodKeys, rfl, created⟩

/-- `go_loadModule` refuses the value and stores nothing, or the callbacks on its handle end
without a panic, if and only if the value can be exposed. -/
theorem goLoadModule_exposable_iff [GoReflect mem S] (go : GoRuntime mem S σ) (bytesOfArray : Bool)
    (sound : KeyPool.Sound clock ⟨p, []⟩) {loadModule : L → Bytes → Bytes → Option S}
    {udd modHandle : Word} {modHome modName : Bytes}
    (ran : Alone p (goLoadModule (fun loader modHome modName =>
      reflectLoaded mem (loadModule loader modHome modName)) udd modHome modName :
        KeyProg L S Word) modHandle p') :
    (modHandle = 0 ∧ p' = p) ∨ Exposable go bytesOfArray clock p' modHandle ↔
      ∀ loader env, p.loaderAt udd.toInt64 = some (loader, env) →
        CanBeExposed mem bytesOfArray (loadModule loader modHome modName) := by
  cases asked : p.loaderAt udd.toInt64 with
  | none => simp [alone_goLoadModule_missing asked ran]
  | some found =>
    obtain ⟨loader, env⟩ := found
    have loaded := alone_goLoadModule_found asked ran
    have only : (∀ loader' env', some (loader, env) = some (loader', env') →
        CanBeExposed mem bytesOfArray (loadModule loader' modHome modName)) ↔
          CanBeExposed mem bytesOfArray (loadModule loader modHome modName) := by simp
    rw [only]
    cases value : loadModule loader modHome modName with
    | none =>
      rw [value] at loaded
      exact iff_of_true (.inl loaded) trivial
    | some structPtr =>
      simp only [value, reflectLoaded, CanBeExposed] at loaded ⊢
      cases kind : (GoReflect.valueOf structPtr : ReflectValue mem S) with
      | invalid | iface held | other =>
        simp only [kind] at loaded
        exact iff_of_true (.inl loaded) trivial
      -- a struct that is not behind a pointer is stored, but `Elem` panics on it
      | struct fields =>
        simp only [kind] at loaded
        obtain ⟨modKey, methodKeys, rfl, created⟩ := loaded
        rw [createMethodKeys_exposable_iff go bytesOfArray sound created, kind]
        simp [ReflectValue.elem, bind, Except.bind]
      | ptr pointee =>
        cases pointee with
        | invalid | ptr _ | iface _ | other =>
          simp only [kind] at loaded
          exact iff_of_true (.inl loaded) trivial
        | struct fields =>
          simp only [kind] at loaded
          obtain ⟨modKey, methodKeys, rfl, created⟩ := loaded
          rw [createMethodKeys_exposable_iff go bytesOfArray sound created, kind]
          simp [ReflectValue.elem, ReflectValue.numField, bind, Except.bind]

/-! ### A loader of `type Lamp struct { On bool }` -/

inductive LampModule where
  /-- `Lamp{true}` -/
  | byValue
  /-- `&Lamp{true}` -/
  | pointer
deriving DecidableEq

instance : NamedMethods LampModule where
  numMethod _ := 0
  methodName _ _ := []
  exported _ _ within := absurd within (Nat.not_lt_zero _)
  distinct _ _ _ within := absurd within (Nat.not_lt_zero _)

instance (mem : Memory) : GoMethods mem LampModule where
  method _ _ := ⟨[], false, fun _ => [], fun _ _ => false, fun _ => none⟩

def lampOn : StructField mem LampModule where
  name := ascii "On"
  val := .bool true
  isExported := true
  isArray := false
  ascii_iff c first _ := by
    cases first
    decide

instance (mem : Memory) : GoReflect mem LampModule where
  valueOf
    | .byValue => .struct [lampOn]
    | .pointer => .ptr (.struct [lampOn])

/-- The loader has the key 1. -/
def lampPool : V2KPool (PoolVal Unit LampModule) Nat :=
  (methodKeyGenerator countingClock).drawn countingClock (.moduleLoaderEnv ⟨(), 64⟩)

theorem sound_lampPool : KeyPool.Sound countingClock ⟨lampPool, []⟩ :=
  sound_drawn (sound_init countingClock) _

def loadLamp (lamp : LampModule) : KeyProg Unit LampModule Word :=
  goLoadModule (fun _ _ _ => reflectLoaded stillBridge.host.mem (some lamp)) 1
    (ascii "/modules/") (ascii "lamp")

theorem loadLamp_runs (lamp : LampModule) : Alone lampPool (loadLamp lamp) 2
    (lampPool.drawn countingClock (.goModuleInfo ⟨lamp, lamp, 0, []⟩)) := by
  apply runsAlone_of_runAlone fun _ _ => trivial
  cases lamp <;> rfl

/-- A struct by value is accepted, and `Elem` panics in `go_getAttrsList`. -/
theorem struct_by_value_panics : ∃ p', Alone lampPool (loadLamp .byValue) 2 p' ∧
    ∀ go : GoRuntime stillBridge.host.mem LampModule Unit,
      (∀ attr, goGetAttrsRounds go true (some attr) p' 2 = .panicked .elem) ∧
      ¬(((2 : Word) = 0 ∧ p' = lampPool) ∨ Exposable go true countingClock p' 2) := by
  refine ⟨_, loadLamp_runs .byValue, ?_⟩
  intro go
  have panics : ∀ attr, goGetAttrsRounds go true (some attr) (lampPool.drawn countingClock
      (.goModuleInfo ⟨.byValue, .byValue, 0, []⟩)) 2 = .panicked .elem := fun _ => rfl
  refine ⟨panics, ?_⟩
  rintro (⟨zero, _⟩ | exposable)
  · cases zero
  · have quiet := exposable.attrs _ (some ⟨[], .none, 0, 0⟩) rfl
    rw [panics] at quiet
    cases quiet

theorem goLoadModule_exposable_pointer : ∃ p', Alone lampPool (loadLamp .pointer) 2 p' ∧
    ∀ go : GoRuntime stillBridge.host.mem LampModule Unit,
      ((2 : Word) = 0 ∧ p' = lampPool) ∨ Exposable go false countingClock p' 2 := by
  have readable : ∀ field ∈ ([lampOn] : List (StructField stillBridge.host.mem LampModule)),
      field.exported = true → field.reflectPanic false = none := by
    simp [StructField.reflectPanic, lampOn]
  refine ⟨_, loadLamp_runs .pointer, ?_⟩
  intro go
  exact (goLoadModule_exposable_iff go false sound_lampPool (loadLamp_runs .pointer)).mpr
    fun _ _ _ => readable

end DukBridge
