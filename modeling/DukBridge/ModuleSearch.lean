import DukBridge.GoCalls
import DukBridge.LoaderSearch
import DukBridge.MemberFrames

/-!
# The search for a module

`Duktape.modSearch` is a script: it asks three C functions in turn, each in a frame of its own,
and what they return decides by its type or its truth value whether the search goes on. The
built-ins it uses are those of a fresh environment.
-/
namespace DukBridge

open Effect

variable {H : Type} (host : Host H)

/-! ### What a search is about -/

/-- What the resolver of `require` makes of a name, `DUK_COMMONJS_MODULE_ID_LIMIT` counting its
terminator. -/
structure ResolvedId where
  bytes : Bytes
  nonempty : 1 ≤ bytes.length
  within : bytes.length ≤ 255
  noNul : (0 : UInt8) ∉ bytes

/-- The `modHome` of the script, with room left for a module and its suffix. -/
structure ModHome where
  bytes : Bytes
  noSymbol : isSymbol bytes = false
  within : bytes.length + 258 ≤ maxStringLen

/-- `id.endsWith('.js')` -/
def ResolvedId.endsWithJs (id : ResolvedId) : Bool := (ascii ".js").isSuffixOf id.bytes

def soName (modHome : ModHome) (id : ResolvedId) : Bytes :=
  modHome.bytes ++ id.bytes ++ ascii ".so"

def moduleNotFound (id : ResolvedId) : DukError := .error (ascii "module not found: " ++ id.bytes)

/-- A shared object that is open. Whatever its functions run, the objects there were stay
allocated, and so is an object they return. -/
structure Dll (H : Type) where
  handle : Word
  dlsym : Bytes → Option (World H → Nat → Outcome H JsVal)
  allocates : ∀ {symbol initFn}, dlsym symbol = some initFn →
    ∀ {w free mod w' reserved}, initFn w free = .returns mod w' reserved →
      w.nextId ≤ w'.nextId ∧ ∀ id, mod = .object id → id < w'.nextId

/-! ### The C functions -/

/-- A C function called by a script; its arguments are below the slots reserved for it, and the
top of its frame is what the script gets. -/
def callC {α : Type} (args : List JsVal) (f : Duk H α) : Duk H (α × JsVal) := fun ctx =>
  match f ⟨args.reverse, args.length + 64, ctx.world⟩ with
  | .ok a frame => .ok (a, frame.get 0) { ctx with world := frame.world }
  | .error e frame => .error e { ctx with world := frame.world }

/-- `duk_get_string` at an index from the bottom of the frame, for C to read. -/
def cStringAt (i : Nat) : Duk H Bytes := do
  match (← get).stack.reverse.getD i .undefined with
  | .string s => return cString s
  | _ => return []

/-- What `duk_push_lstring` makes of a file: a NULL block is the empty string. -/
def Host.fileText (modPath : Bytes) : Except Int32 Bytes :=
  (host.readFileContent modPath).map fun src => src.getD []

def readFile : Duk H Unit := do
  let modPath ← cStringAt 0
  match host.fileText modPath with
  | .error _ => pushUndefined
  | .ok src => pushBytes src

/-- `duk_call(ctx, 0)` on the init function. -/
def callInit (initFn : World H → Nat → Outcome H JsVal) : Duk H Unit := do
  pushCFunction .initFn 0
  let ctx ← get
  let mod ← (initFn ctx.world ctx.free).run
  pop
  push mod

/-- `[ module ]` stays, with `unloadDll` as its finalizer. -/
def setUnloadDll (hMod : Word) : Duk H Unit := do
  pushCFunction .unloadDll 0
  putPointer host hMod (ascii "_nmh_")
  putPropString host 1 finalizerKey

/-- `char initFunc[40]` -/
def initFuncSize : Nat := 40

/-- What `sprintf` formats, without its terminator. -/
def initFuncName (modName : Bytes) : Bytes := ascii "init_" ++ modName

variable (dlopen : Bytes → Option (Dll H))

/-- False where `sprintf` would write past the end of `initFunc`; what happens then is not said. -/
def loadAndInitDll : Duk H Bool := do
  let modPath ← cStringAt 0
  let modName ← cStringAt 1
  match dlopen modPath with
  | none =>
    pushUndefined
    return true
  | some dll =>
    if initFuncSize < (initFuncName modName).length + 1 then return false
    match dll.dlsym (initFuncName modName) with
    | none =>
      pushUndefined
      return true
    | some initFn =>
      callInit initFn
      setUnloadDll host dll.handle
      return true

/-! ### The script -/

/-- `typeof v === 'string'`: a Symbol is of another type. -/
def JsVal.isStringType : JsVal → Bool
  | .string s => !isSymbol s
  | _ => false

/-- `duk_js_toboolean` -/
def JsVal.toBoolean : JsVal → Bool
  | .undefined | .null => false
  | .boolean b => b
  | .number d => !(d == 0 || d.isNaN)
  | .string s => !s.isEmpty
  | .buffer _ | .lightfunc _ | .object _ => true
  | .pointer p => p != 0

/-- An assignment in sloppy code, where a write that fails is passed over. -/
def assignProp (target : JsVal) (key : Bytes) (v : JsVal) : Duk H Unit := fun ctx =>
  match writeProp host target key v ctx with
  | .error (.thrown .typeError) ctx' => .ok () ctx'
  | result => result

variable (fns : LoaderFns H) (modHome : ModHome) (id : ResolvedId) (module : Nat)

/-- `module.exports = mod; return undefined` -/
def replaceExports (mod : JsVal) : Duk H (Option JsVal) := do
  assignProp host (.object module) (ascii "exports") mod
  return some .undefined

/-- The rest of the script for an id without the suffix, once no file has been found. -/
def searchNative : Duk H (Option JsVal) := do
  let (fits, mod) ← callC [.string (soName modHome id), .string id.bytes]
    (loadAndInitDll host dlopen)
  if !fits then return none
  if mod.toBoolean then
    replaceExports host module mod
  else
    let (_, mod) ← callC [.string modHome.bytes, .string id.bytes] (loadNativeModule host fns)
    if mod.toBoolean then
      replaceExports host module mod
    else
      raise (moduleNotFound id)

/-- `Duktape.modSearch`; nothing comes back from a search in which a buffer was too small. -/
def modSearch : Duk H (Option JsVal) := do
  -- a Symbol has no `endsWith`
  if isSymbol id.bytes then raise .typeError
  if id.endsWithJs then
    let (_, src) ← callC [.string (modHome.bytes ++ id.bytes)] (readFile host)
    if src.isStringType then return some src
    raise (moduleNotFound id)
  else
    let (_, src) ← callC [.string (modHome.bytes ++ id.bytes ++ ascii ".js")] (readFile host)
    if src.isStringType then return some src
    searchNative host dlopen fns modHome id module

/-- What follows where the file is no string. -/
def afterScript : Duk H (Option JsVal) :=
  if id.endsWithJs then raise (moduleNotFound id)
  else searchNative host dlopen fns modHome id module

/-! ### The endings -/

/-- The file that is asked for a script: an id with the suffix stands for itself. -/
def jsName : Bytes :=
  if id.endsWithJs then modHome.bytes ++ id.bytes else modHome.bytes ++ id.bytes ++ ascii ".js"

def scriptText : Option Bytes := (host.fileText (cString (jsName modHome id))).toOption

def openedDll : Option (Dll H) := dlopen (cString (soName modHome id))

/-- The `init_<id>` of the shared object, where there is both. -/
def definedInit : Option (World H → Nat → Outcome H JsVal) :=
  (openedDll dlopen modHome id).bind fun dll => dll.dlsym (initFuncName id.bytes)

/-- The world with a new function object for this C function. -/
def withFunction (w : World H) (f : CFunction) : World H :=
  { w.setObject w.nextId ⟨.plain, fun _ => none, true, some (f, 0)⟩ with nextId := w.nextId + 1 }

/-- Called in a fresh frame in `w`, the init function returns `mod`. -/
def InitReturns (initFn : World H → Nat → Outcome H JsVal) (w : World H) (mod : JsVal)
    (w' : World H) : Prop :=
  ∃ reserved, initFn (withFunction w .initFn) 63 = .returns mod w' reserved

/-- `loadNativeModule(modHome, id)` returns `mod`. -/
def LoadersReturn (ctx : Ctx H) (mod : JsVal) (ctx' : Ctx H) : Prop :=
  callC [.string modHome.bytes, .string id.bytes] (loadNativeModule host fns) ctx =
    .ok ((), mod) ctx'

def Installed (mod : JsVal) (w : World H) : Prop :=
  ∃ configurable, (w.objects module).own (ascii "exports") = some (.data mod true configurable)

/-- The endings of a search without a script. -/
inductive NativeEnds (ctx : Ctx H) : EStateM.Result Fault (Ctx H) (Option JsVal) → Prop where
  | dll {initFn mod w ctx'} (defined : definedInit dlopen modHome id = some initFn)
      (returned : InitReturns initFn ctx.world mod w) (installed : Installed module mod ctx'.world)
      (frame : ctx'.stack = ctx.stack) : NativeEnds ctx (.ok (some .undefined) ctx')
  | loader {mod mid ctx'} (undefined : definedInit dlopen modHome id = none)
      (returned : LoadersReturn host fns modHome id ctx mod mid) (found : mod.toBoolean = true)
      (installed : Installed module mod ctx'.world) (frame : ctx'.stack = ctx.stack) :
      NativeEnds ctx (.ok (some .undefined) ctx')
  | nowhere {mod mid} (undefined : definedInit dlopen modHome id = none)
      (returned : LoadersReturn host fns modHome id ctx mod mid) (found : mod.toBoolean = false) :
      NativeEnds ctx (.error (.thrown (moduleNotFound id)) mid)

/-- The endings of a search. -/
inductive SearchEnds (ctx : Ctx H) : EStateM.Result Fault (Ctx H) (Option JsVal) → Prop where
  | script {text} (readable : scriptText host modHome id = some text) :
      SearchEnds ctx (.ok (some (.string text)) ctx)
  | noScript (unreadable : scriptText host modHome id = none) (js : id.endsWithJs = true) :
      SearchEnds ctx (.error (.thrown (moduleNotFound id)) ctx)
  | native {result} (unreadable : scriptText host modHome id = none)
      (other : id.endsWithJs = false)
      (ends : NativeEnds host dlopen fns modHome id module ctx result) : SearchEnds ctx result

/-- The init function returns an object that takes a finalizer, and leaves `module.exports`
open to an assignment. -/
def InitInstalls (initFn : World H → Nat → Outcome H JsVal) (w : World H) : Prop :=
  ∃ obj w', InitReturns initFn w (.object obj) w' ∧
    (w'.objects obj).accepts finalizerKey ≠ none ∧
    (w'.objects module).accepts (ascii "exports") ≠ none

/-- The native loaders come back; if it is with a module, then `module.exports` is open to an
assignment. -/
def LoadersInstall (ctx : Ctx H) : Prop :=
  ∃ mod mid, LoadersReturn host fns modHome id ctx mod mid ∧
    (mod.toBoolean = true → (mid.world.objects module).accepts (ascii "exports") ≠ none)

/-- What the shared object and the loaders have to do for a search without a script. -/
def NativeSettles (ctx : Ctx H) : Prop :=
  match openedDll dlopen modHome id with
  | none => LoadersInstall host fns modHome id module ctx
  | some dll => id.bytes.length ≤ 34 ∧
    match dll.dlsym (initFuncName id.bytes) with
    | none => LoadersInstall host fns modHome id module ctx
    | some initFn => InitInstalls module initFn ctx.world

/-- When a search ends as it should: the text is no Symbol and fits a string, and where there is
none the other providers do their part. -/
def SearchSettles (ctx : Ctx H) : Prop :=
  isSymbol id.bytes = false ∧
  match scriptText host modHome id with
  | some text => text.length ≤ maxStringLen ∧ isSymbol text = false
  | none => id.endsWithJs = true ∨ NativeSettles host dlopen fns modHome id module ctx

/-- No setter and no read-only property of a prototype gets in the way of these names. -/
structure PlainModules : Prop where
  handle : ∀ w free id v, host.writeThrough w free id (ascii "_nmh_") v = none
  finalizer : ∀ w free id v, host.writeThrough w free id finalizerKey v = none
  exports : ∀ w free v, host.writeThrough w free module (ascii "exports") v = none

variable {host dlopen fns modHome id module} {ctx ctx' : Ctx H} {w : World H}

/-! ### The C functions called by the script -/

theorem ResolvedId.cString_bytes (id : ResolvedId) : cString id.bytes = id.bytes := by
  rw [cString, List.takeWhile_eq_self_iff]
  intro c member
  have nonzero : c ≠ 0 := fun zero => id.noNul (zero ▸ member)
  simpa using nonzero

theorem callC_ok {α : Type} {args : List JsVal} {f : Duk H α} {a : α} (frame : Ctx H)
    (returned : f ⟨args.reverse, args.length + 64, ctx.world⟩ = .ok a frame) :
    callC args f ctx = .ok (a, frame.get 0) { ctx with world := frame.world } := by
  rw [callC, returned]

theorem callC_error {α : Type} {args : List JsVal} {f : Duk H α} {e : Fault} (frame : Ctx H)
    (threw : f ⟨args.reverse, args.length + 64, ctx.world⟩ = .error e frame) :
    callC args f ctx = .error e { ctx with world := frame.world } := by
  rw [callC, threw]

theorem callC_eq_ok {α : Type} {args : List JsVal} {f : Duk H α} {answer : α × JsVal} :
    callC args f ctx = .ok answer ctx' ↔
      ∃ a frame, f ⟨args.reverse, args.length + 64, ctx.world⟩ = .ok a frame ∧
        answer = (a, frame.get 0) ∧ ctx' = { ctx with world := frame.world } := by
  cases ran : f ⟨args.reverse, args.length + 64, ctx.world⟩ with
  | ok a frame =>
    rw [callC_ok frame ran]
    constructor
    · intro returned
      cases returned
      exact ⟨a, frame, rfl, rfl, rfl⟩
    · rintro ⟨_, _, same, rfl, rfl⟩
      cases same
      rfl
  | error e frame =>
    rw [callC_error frame ran]
    simp

theorem cStringAt_run {i : Nat} {s : Bytes} (here : ctx.stack.reverse[i]? = some (.string s)) :
    cStringAt i ctx = .ok (cString s) ctx := by
  rw [cStringAt, bind_run, get_run]
  simp only [List.getD_eq_getElem?_getD, here, Option.getD_some]
  rfl

theorem readFile_unreadable {name : Bytes} {ret : Int32}
    (unreadable : host.fileText (cString name) = .error ret) :
    callC [.string name] (readFile host) ctx = .ok ((), .undefined) ctx := by
  apply callC_ok (⟨[.undefined, .string name], 65, ctx.world⟩)
  rw [readFile, bind_ok (cStringAt_run rfl), unreadable]
  rfl

theorem readFile_readable {name text : Bytes}
    (readable : host.fileText (cString name) = .ok text) (fits : text.length ≤ maxStringLen) :
    callC [.string name] (readFile host) ctx = .ok ((), .string text) ctx := by
  apply callC_ok (⟨[.string text, .string name], 65, ctx.world⟩)
  rw [readFile, bind_ok (cStringAt_run rfl), readable]
  simp only [pushBytes, bind_run, requireRoom_run, fits, if_true]
  rfl

theorem readFile_tooLong {name text : Bytes}
    (readable : host.fileText (cString name) = .ok text) (long : ¬ text.length ≤ maxStringLen) :
    callC [.string name] (readFile host) ctx = .error (.thrown .rangeError) ctx := by
  apply callC_error (⟨[.string name], 65, ctx.world⟩)
  rw [readFile, bind_ok (cStringAt_run rfl), readable]
  simp only [pushBytes, bind_run, requireRoom_run, long, if_false]
  rfl

/-! ### Shared objects -/

theorem pushCFunction_run {f : CFunction} (room : ctx.height + 1 ≤ ctx.reserve) :
    pushCFunction f 0 ctx =
      .ok () ⟨.object ctx.world.nextId :: ctx.stack, ctx.reserve, withFunction ctx.world f⟩ := by
  have pushed : push (.object ctx.world.nextId) ctx =
      .ok () (ctx.pushed (.object ctx.world.nextId)) := push_eq_ok.mpr ⟨room, rfl⟩
  change pushNew .plain (some (f, 0)) ctx = _
  rw [pushNew, bind_ok (get_run ctx), bind_ok pushed]
  rfl

theorem accepts_setOwn {i j : Nat} {key key' : Bytes} {slot : Option PropSlot}
    (other : j ≠ i ∨ key' ≠ key) :
    ((w.setOwn i key slot).objects j).accepts key' = (w.objects j).accepts key' := by
  by_cases same : j = i
  · subst same
    have fresh : key' ≠ key := other.resolve_left (fun apart => apart rfl)
    simp [World.setOwn, World.setObject, ObjectRec.accepts, fresh]
  · simp [World.setOwn, World.setObject, same]

/-- The call of an init function, on top of two arguments. -/
theorem callInit_eq_ok {initFn : World H → Nat → Outcome H JsVal} {u : Unit} {v v' : JsVal} :
    callInit initFn ⟨[v, v'], 66, w⟩ = .ok u ctx' ↔ ∃ mod w' reserved,
      initFn (withFunction w .initFn) 63 = .returns mod w' reserved ∧
        ctx' = ⟨[mod, v, v'], 66 + reserved, w'⟩ := by
  have created : (pushCFunction .initFn 0 : Duk H Unit) ⟨[v, v'], 66, w⟩ =
      .ok () ⟨[.object w.nextId, v, v'], 66, withFunction w .initFn⟩ :=
    pushCFunction_run (by simp)
  rw [callInit, bind_ok created, bind_ok (get_run _)]
  constructor
  · intro returned
    obtain ⟨mod, mid, ran, rest⟩ := bind_eq_ok.mp returned
    obtain ⟨w', reserved, outcome, rfl⟩ := outcome_run_eq_ok.mp ran
    obtain ⟨_, _, popped, pushed⟩ := bind_eq_ok.mp rest
    obtain ⟨_, rfl⟩ := popN_eq_ok.mp popped
    obtain ⟨_, rfl⟩ := push_eq_ok.mp pushed
    exact ⟨mod, w', reserved, outcome, rfl⟩
  · rintro ⟨mod, w', reserved, outcome, rfl⟩
    refine bind_eq_ok.mpr ⟨mod, _, outcome_run_eq_ok.mpr ⟨w', reserved, outcome, rfl⟩, ?_⟩
    refine bind_eq_ok.mpr ⟨(), _, popN_eq_ok.mpr ⟨by simp, rfl⟩, ?_⟩
    exact push_eq_ok.mpr ⟨by simp; omega, rfl⟩

/-- The world with a new `unloadDll` that holds the handle. -/
def withUnloader (w : World H) (hMod : Word) : World H :=
  (withFunction w .unloadDll).setOwn w.nextId (ascii "_nmh_") (some (.data (.pointer hMod) true true))

/-- The world in which it is the finalizer of the object. -/
def unloadable (w : World H) (obj : Nat) (hMod : Word) (configurable : Bool) : World H :=
  (withUnloader w hMod).setOwn obj finalizerKey (some (.data (.object w.nextId) true configurable))

theorem withUnloader_objects {hMod : Word} {i : Nat} (old : i < w.nextId) :
    (withUnloader w hMod).objects i = w.objects i := by
  have apart : i ≠ w.nextId := Nat.ne_of_lt old
  simp [withUnloader, withFunction, World.setOwn, World.setObject, apart]

theorem accepts_unloadable {obj i : Nat} {hMod : Word} {c : Bool} {key : Bytes}
    (old : i < w.nextId) (other : key ≠ finalizerKey) :
    ((unloadable w obj hMod c).objects i).accepts key = (w.objects i).accepts key := by
  rw [unloadable, accepts_setOwn (.inr other), withUnloader_objects old]

theorem putPropString_object {target v : JsVal} {below : List JsVal} {key : Bytes} {u : Unit}
    (stack : ctx.stack = v :: target :: below)
    (returned : putPropString host 1 key ctx = .ok u ctx') : ∃ obj, target = .object obj := by
  obtain ⟨_, _, room, rest⟩ := bind_eq_ok.mp returned
  obtain ⟨_, rfl⟩ := requireRoom_eq_ok.mp room
  rw [bind_ok (getAt_run 1), bind_ok (getAt_run 0)] at rest
  simp only [Ctx.get, stack, List.getD_cons_succ, List.getD_cons_zero] at rest
  obtain ⟨_, _, write, _⟩ := bind_eq_ok.mp rest
  exact writeProp_object write

theorem setUnloadDll_eq_ok (plain : PlainModules host module) {reserve : Nat} {mod v v' : JsVal}
    {hMod : Word} {u : Unit} (room : 66 ≤ reserve)
    (old : ∀ obj, mod = .object obj → obj < w.nextId) :
    setUnloadDll host hMod ⟨[mod, v, v'], reserve, w⟩ = .ok u ctx' ↔ ∃ obj c, mod = .object obj ∧
      (w.objects obj).accepts finalizerKey = some c ∧
      ctx' = ⟨[.object obj, v, v'], reserve, unloadable w obj hMod c⟩ := by
  have created : (pushCFunction .unloadDll 0 : Duk H Unit) ⟨[mod, v, v'], reserve, w⟩ =
      .ok () ⟨[.object w.nextId, mod, v, v'], reserve, withFunction w .unloadDll⟩ :=
    pushCFunction_run (by simp; omega)
  have pointed : putPointer host hMod (ascii "_nmh_")
      ⟨[.object w.nextId, mod, v, v'], reserve, withFunction w .unloadDll⟩ =
        .ok () ⟨[.object w.nextId, mod, v, v'], reserve, withUnloader w hMod⟩ := by
    refine bind_eq_ok.mpr ⟨(), _, push_eq_ok.mpr ⟨by simp; omega, rfl⟩, ?_⟩
    refine (putPropString_eq_ok rfl).mpr ⟨by simp; omega,
      ⟨[.pointer hMod, .object w.nextId, mod, v, v'], reserve, withUnloader w hMod⟩, ?_, rfl⟩
    -- the new function has no property yet
    have accepts : ((withFunction w .unloadDll).objects w.nextId).accepts (ascii "_nmh_") =
        some true := by simp [withFunction, World.setObject, ObjectRec.accepts]
    rw [writeProp_run (plain.handle _ _ _ _)]
    simp only [Ctx.pushed_world, accepts]
    rfl
  rw [setUnloadDll, bind_ok created, bind_ok pointed]
  constructor
  · intro returned
    obtain ⟨obj, rfl⟩ := putPropString_object rfl returned
    obtain ⟨_, wrote, write, rfl⟩ := (putPropString_eq_ok rfl).mp returned
    rw [writeProp_run (plain.finalizer _ _ _ _), withUnloader_objects (old obj rfl)] at write
    cases accepts : (w.objects obj).accepts finalizerKey with
    | none =>
      simp only [accepts] at write
      cases write
    | some c =>
      simp only [accepts] at write
      cases write
      exact ⟨obj, c, rfl, accepts, rfl⟩
  · rintro ⟨obj, c, rfl, accepts, rfl⟩
    refine (putPropString_eq_ok rfl).mpr ⟨by simp; omega,
      ⟨[.object w.nextId, .object obj, v, v'], reserve, unloadable w obj hMod c⟩, ?_, rfl⟩
    rw [writeProp_run (plain.finalizer _ _ _ _), withUnloader_objects (old obj rfl)]
    simp only [accepts]
    rfl

/-! ### The four answers of `loadAndInitDll` -/

section Answers

variable {modPath : Bytes}

/-- The script hands over a path and the id. -/
abbrev callLoadAndInitDll (host : Host H) (dlopen : Bytes → Option (Dll H)) (modPath : Bytes)
    (id : ResolvedId) : Duk H (Bool × JsVal) :=
  callC [.string modPath, .string id.bytes] (loadAndInitDll host dlopen)

theorem loadAndInitDll_eq : loadAndInitDll host dlopen
      ⟨[.string id.bytes, .string modPath], 66, w⟩ =
    (match dlopen (cString modPath) with
      | none => do
        pushUndefined
        return true
      | some dll =>
        if 34 < id.bytes.length then return false else
        match dll.dlsym (initFuncName id.bytes) with
        | none => do
          pushUndefined
          return true
        | some initFn => do
          callInit initFn
          setUnloadDll host dll.handle
          return true) ⟨[.string id.bytes, .string modPath], 66, w⟩ := by
  have long : (initFuncSize < (initFuncName id.bytes).length + 1) = (34 < id.bytes.length) := by
    rw [initFuncSize, initFuncName, List.length_append, show (ascii "init_").length = 5 from rfl]
    apply propext
    omega
  rw [loadAndInitDll, bind_ok (cStringAt_run rfl), bind_ok (cStringAt_run rfl), id.cString_bytes]
  cases dlopen (cString modPath) with
  | none => rfl
  | some dll =>
    dsimp only
    simp only [long]

theorem loadAndInitDll_closed (closed : dlopen (cString modPath) = none) :
    callLoadAndInitDll host dlopen modPath id ctx = .ok (true, .undefined) ctx := by
  apply callC_ok (⟨[.undefined, .string id.bytes, .string modPath], 66, ctx.world⟩)
  refine loadAndInitDll_eq.trans ?_
  rw [closed]
  rfl

theorem loadAndInitDll_long {dll : Dll H} (opens : dlopen (cString modPath) = some dll)
    (long : 34 < id.bytes.length) :
    callLoadAndInitDll host dlopen modPath id ctx = .ok (false, .string id.bytes) ctx := by
  apply callC_ok (⟨[.string id.bytes, .string modPath], 66, ctx.world⟩)
  refine loadAndInitDll_eq.trans ?_
  rw [opens]
  dsimp only
  rw [if_pos long]
  rfl

theorem loadAndInitDll_undefined {dll : Dll H} (opens : dlopen (cString modPath) = some dll)
    (fits : id.bytes.length ≤ 34) (undefined : dll.dlsym (initFuncName id.bytes) = none) :
    callLoadAndInitDll host dlopen modPath id ctx = .ok (true, .undefined) ctx := by
  apply callC_ok (⟨[.undefined, .string id.bytes, .string modPath], 66, ctx.world⟩)
  refine loadAndInitDll_eq.trans ?_
  rw [opens]
  dsimp only
  rw [if_neg (Nat.not_lt.mpr fits), undefined]
  rfl

theorem loadAndInitDll_defined (plain : PlainModules host module) {dll : Dll H}
    {initFn : World H → Nat → Outcome H JsVal} (opens : dlopen (cString modPath) = some dll)
    (fits : id.bytes.length ≤ 34) (defined : dll.dlsym (initFuncName id.bytes) = some initFn)
    {answer : Bool × JsVal} :
    callLoadAndInitDll host dlopen modPath id ctx = .ok answer ctx' ↔
      ∃ obj w c, InitReturns initFn ctx.world (.object obj) w ∧
        (w.objects obj).accepts finalizerKey = some c ∧ answer = (true, .object obj) ∧
        ctx' = { ctx with world := unloadable w obj dll.handle c } := by
  have body : loadAndInitDll host dlopen ⟨[.string id.bytes, .string modPath], 66, ctx.world⟩ =
      (callInit initFn >>= fun _ => setUnloadDll host dll.handle >>= fun _ => pure true)
        ⟨[.string id.bytes, .string modPath], 66, ctx.world⟩ := by
    refine loadAndInitDll_eq.trans ?_
    rw [opens]
    dsimp only
    rw [if_neg (Nat.not_lt.mpr fits), defined]
  rw [callLoadAndInitDll, callC_eq_ok]
  -- the callee starts with the two arguments on a stack of its own
  change (∃ a frame, loadAndInitDll host dlopen
    ⟨[.string id.bytes, .string modPath], 66, ctx.world⟩ = .ok a frame ∧ _) ↔ _
  rw [body]
  constructor
  · rintro ⟨_, frame, ran, rfl, rfl⟩
    obtain ⟨_, mid, called, rest⟩ := bind_eq_ok.mp ran
    obtain ⟨mod, w, reserved, outcome, rfl⟩ := callInit_eq_ok.mp called
    obtain ⟨_, _, attached, done⟩ := bind_eq_ok.mp rest
    have allocated := (dll.allocates defined outcome).2
    obtain ⟨obj, c, rfl, accepts, rfl⟩ :=
      (setUnloadDll_eq_ok plain (Nat.le_add_right _ _) allocated).mp attached
    cases done
    exact ⟨obj, w, c, ⟨reserved, outcome⟩, accepts, rfl, rfl⟩
  · rintro ⟨obj, w, c, ⟨reserved, outcome⟩, accepts, rfl, rfl⟩
    have allocated := (dll.allocates defined outcome).2
    refine ⟨true, ⟨[.object obj, .string id.bytes, .string modPath], 66 + reserved,
      unloadable w obj dll.handle c⟩, ?_, rfl, rfl⟩
    refine bind_eq_ok.mpr ⟨(), _, callInit_eq_ok.mpr ⟨_, w, reserved, outcome, rfl⟩, ?_⟩
    exact bind_eq_ok.mpr ⟨(), _, (setUnloadDll_eq_ok plain (Nat.le_add_right _ _) allocated).mpr
      ⟨obj, c, rfl, accepts, rfl⟩, rfl⟩

end Answers

/-! ### The assignment -/

theorem replaceExports_run (plain : PlainModules host module) (mod : JsVal) :
    replaceExports host module mod ctx = .ok (some .undefined)
      (match (ctx.world.objects module).accepts (ascii "exports") with
        | some c => { ctx with
            world := ctx.world.setOwn module (ascii "exports") (some (.data mod true c)) }
        | none => ctx) := by
  have assigned : assignProp host (.object module) (ascii "exports") mod ctx = .ok ()
      (match (ctx.world.objects module).accepts (ascii "exports") with
        | some c => { ctx with
            world := ctx.world.setOwn module (ascii "exports") (some (.data mod true c)) }
        | none => ctx) := by
    rw [assignProp, writeProp_run (plain.exports _ _ _)]
    cases (ctx.world.objects module).accepts (ascii "exports") <;> rfl
  rw [replaceExports, bind_ok assigned]
  rfl

/-- The assignment is passed over exactly where the property is not open to it. -/
theorem replaceExports_installs (plain : PlainModules host module) (mod : JsVal) (ctx : Ctx H) :
    ∃ ctx', replaceExports host module mod ctx = .ok (some .undefined) ctx' ∧
      ctx'.stack = ctx.stack ∧ (Installed module mod ctx'.world ↔
        (ctx.world.objects module).accepts (ascii "exports") ≠ none) := by
  refine ⟨_, replaceExports_run plain mod, ?_⟩
  cases accepts : (ctx.world.objects module).accepts (ascii "exports") with
  | some c =>
    refine ⟨rfl, fun _ => by simp, fun _ => ⟨c, ?_⟩⟩
    simp [World.setOwn, World.setObject]
  | none =>
    refine ⟨rfl, ?_, fun open' => absurd rfl open'⟩
    rintro ⟨c, own⟩
    rw [ObjectRec.accepts, own] at accepts
    cases accepts

/-! ### The search -/

/-- Without an init function it is for the loaders. -/
theorem searchNative_undefined (plain : PlainModules host module)
    (undefined : definedInit dlopen modHome id = none)
    (first : callLoadAndInitDll host dlopen (soName modHome id) id ctx =
      .ok (true, .undefined) ctx) :
    NativeEnds host dlopen fns modHome id module ctx
        (searchNative host dlopen fns modHome id module ctx) ↔
      LoadersInstall host fns modHome id module ctx := by
  have falsy : JsVal.undefined.toBoolean = false := rfl
  rw [searchNative, bind_ok first]
  simp only [Bool.not_true, Bool.false_eq_true, if_false, falsy]
  rw [bind_run]
  cases ran : callC [.string modHome.bytes, .string id.bytes] (loadNativeModule host fns) ctx with
  | error e mid =>
    constructor
    · intro ends
      cases ends with
      | nowhere _ returned _ => exact absurd (ran.symm.trans returned) (by simp)
    · rintro ⟨_, _, returned, _⟩
      exact absurd (ran.symm.trans returned) (by simp)
  | ok answer mid =>
    obtain ⟨⟨⟩, mod⟩ := answer
    dsimp only
    -- the loaders answer once
    have unique : ∀ {mod' mid'}, LoadersReturn host fns modHome id ctx mod' mid' →
        mod' = mod ∧ mid' = mid := by
      intro mod' mid' returned
      cases ran.symm.trans returned
      exact ⟨rfl, rfl⟩
    have frame : mid.stack = ctx.stack := by
      obtain ⟨_, _, _, _, rfl⟩ := callC_eq_ok.mp ran
      rfl
    cases found : mod.toBoolean with
    | true =>
      obtain ⟨ctx', replaced, kept, installs⟩ := replaceExports_installs plain mod mid
      rw [if_pos rfl, replaced]
      constructor
      · intro ends
        refine ⟨mod, mid, ran, fun _ => installs.mp ?_⟩
        cases ends with
        | dll defined _ _ _ => exact absurd (undefined.symm.trans defined) (by simp)
        | loader _ returned _ installed _ =>
          obtain ⟨rfl, rfl⟩ := unique returned
          exact installed
      · rintro ⟨mod', mid', returned, takes⟩
        obtain ⟨rfl, rfl⟩ := unique returned
        exact .loader undefined ran found (installs.mpr (takes found)) (kept.trans frame)
    | false =>
      rw [if_neg (by simp), raise_run]
      constructor
      · intro _
        exact ⟨mod, mid, ran, fun truthy => by simp [found] at truthy⟩
      · intro _
        exact .nowhere undefined ran found

theorem searchNative_defined (plain : PlainModules host module)
    (allocated : module < ctx.world.nextId) {dll : Dll H}
    {initFn : World H → Nat → Outcome H JsVal} (opens : openedDll dlopen modHome id = some dll)
    (fits : id.bytes.length ≤ 34) (defined : dll.dlsym (initFuncName id.bytes) = some initFn) :
    NativeEnds host dlopen fns modHome id module ctx
        (searchNative host dlopen fns modHome id module ctx) ↔
      InitInstalls module initFn ctx.world := by
  have whole : definedInit dlopen modHome id = some initFn := by
    rw [definedInit, opens]
    exact defined
  have answers {answer : Bool × JsVal} {mid : Ctx H} :
      callLoadAndInitDll host dlopen (soName modHome id) id ctx = .ok answer mid ↔ _ :=
    loadAndInitDll_defined plain opens fits defined
  rw [searchNative, bind_run]
  cases ran : callC [.string (soName modHome id), .string id.bytes] (loadAndInitDll host dlopen)
    ctx with
  | error e mid =>
    constructor
    · intro ends
      cases ends with
      | nowhere undefined _ _ => exact absurd (undefined.symm.trans whole) (by simp)
    · rintro ⟨obj, w, returned, takes, _⟩
      obtain ⟨c, accepts⟩ := Option.ne_none_iff_exists'.mp takes
      exact absurd (ran.symm.trans (answers.mpr ⟨obj, w, c, returned, accepts, rfl, rfl⟩)) (by simp)
  | ok answer mid =>
    obtain ⟨obj, w, c, returned, accepts, rfl, rfl⟩ := answers.mp ran
    obtain ⟨ctx', replaced, kept, installs⟩ := replaceExports_installs plain (.object obj)
      { ctx with world := unloadable w obj dll.handle c }
    -- the finalizer is another property than the exports
    have old : module < w.nextId := by
      obtain ⟨_, outcome⟩ := returned
      exact (Nat.lt_succ_of_lt allocated).trans_le (dll.allocates defined outcome).1
    rw [accepts_unloadable old (by decide)] at installs
    simp only [Bool.not_true, Bool.false_eq_true, if_false, JsVal.toBoolean, if_true]
    rw [replaced]
    have unique : ∀ {mod' w'}, InitReturns initFn ctx.world mod' w' →
        mod' = .object obj ∧ w' = w := by
      intro mod' w' again
      obtain ⟨_, outcome⟩ := returned
      obtain ⟨_, outcome'⟩ := again
      cases outcome.symm.trans outcome'
      exact ⟨rfl, rfl⟩
    constructor
    · intro ends
      refine ⟨obj, w, returned, by simp [accepts], installs.mp ?_⟩
      cases ends with
      | dll defined' returned' installed _ =>
        cases whole.symm.trans defined'
        obtain ⟨rfl, _⟩ := unique returned'
        exact installed
      | loader undefined _ _ _ _ => exact absurd (undefined.symm.trans whole) (by simp)
    · rintro ⟨obj', w', returned', _, takes⟩
      obtain ⟨_, rfl⟩ := unique returned'
      exact .dll whole returned (installs.mpr takes) kept

theorem searchNative_ends (plain : PlainModules host module)
    (allocated : module < ctx.world.nextId) :
    NativeEnds host dlopen fns modHome id module ctx
        (searchNative host dlopen fns modHome id module ctx) ↔
      NativeSettles host dlopen fns modHome id module ctx := by
  rw [NativeSettles]
  cases opens : openedDll dlopen modHome id with
  | none =>
    have undefined : definedInit dlopen modHome id = none := by rw [definedInit, opens]; rfl
    exact searchNative_undefined plain undefined (loadAndInitDll_closed opens)
  | some dll =>
    dsimp only
    by_cases fits : id.bytes.length ≤ 34
    · rw [and_iff_right fits]
      cases defined : dll.dlsym (initFuncName id.bytes) with
      | none =>
        have undefined : definedInit dlopen modHome id = none := by
          rw [definedInit, opens]
          exact defined
        exact searchNative_undefined plain undefined (loadAndInitDll_undefined opens fits defined)
      | some initFn => exact searchNative_defined plain allocated opens fits defined
    · -- the name does not fit, and no ending is one without a result
      rw [searchNative, bind_ok (loadAndInitDll_long opens (Nat.not_le.mp fits))]
      constructor
      · intro ends
        cases ends
      · intro settles
        exact absurd settles.1 fits

/-- A file that reads as a string is the result, and the search goes on after any other. -/
theorem readFile_then (name : Bytes) (rest : Duk H (Option JsVal)) :
    (callC [.string name] (readFile host) >>= fun answer =>
      if answer.2.isStringType then pure (some answer.2) else rest) ctx =
    match host.fileText (cString name) with
    | .ok text =>
      if text.length ≤ maxStringLen then
        if isSymbol text then rest ctx else .ok (some (.string text)) ctx
      else .error (.thrown .rangeError) ctx
    | .error _ => rest ctx := by
  have other : JsVal.undefined.isStringType = false := rfl
  cases content : host.fileText (cString name) with
  | error ret =>
    rw [bind_ok (readFile_unreadable content)]
    simp only [other, Bool.false_eq_true, if_false]
  | ok text =>
    by_cases fits : text.length ≤ maxStringLen
    · rw [bind_ok (readFile_readable content fits)]
      cases symbol : isSymbol text <;> simp [JsVal.isStringType, symbol, fits]
    · rw [bind_error (readFile_tooLong content fits)]
      simp only [fits, if_false]

/-- One file is asked for, whichever branch of the script asks for it. -/
theorem modSearch_eq (plainId : isSymbol id.bytes = false) :
    modSearch host dlopen fns modHome id module ctx =
    match host.fileText (cString (jsName modHome id)) with
    | .ok text =>
      if text.length ≤ maxStringLen then
        if isSymbol text then afterScript host dlopen fns modHome id module ctx
        else .ok (some (.string text)) ctx
      else .error (.thrown .rangeError) ctx
    | .error _ => afterScript host dlopen fns modHome id module ctx := by
  rw [modSearch, plainId, jsName, afterScript]
  cases js : id.endsWithJs with
  | true => exact readFile_then _ _
  | false => exact readFile_then _ _

/-- After the file no text is found any more. -/
theorem afterScript_no_text {text : Bytes} :
    afterScript host dlopen fns modHome id module ctx ≠ .ok (some (.string text)) ctx' := by
  have replaced : ∀ {mod} {s t : Ctx H},
      replaceExports host module mod s ≠ .ok (some (.string text)) t := by
    intro mod s t returned
    obtain ⟨_, _, _, done⟩ := bind_eq_ok.mp returned
    cases done
  intro returned
  rw [afterScript] at returned
  split at returned
  · cases returned
  · obtain ⟨⟨fits, mod⟩, _, _, rest⟩ := bind_eq_ok.mp returned
    cases fits with
    | false => cases rest
    | true =>
      simp only [Bool.not_true, Bool.false_eq_true, if_false] at rest
      split at rest
      · exact replaced rest
      · obtain ⟨⟨_, mod'⟩, _, _, rest⟩ := bind_eq_ok.mp rest
        dsimp only at rest
        split at rest
        · exact replaced rest
        · cases rest

theorem modSearch_ends_iff (plain : PlainModules host module)
    (allocated : module < ctx.world.nextId) :
    SearchEnds host dlopen fns modHome id module ctx
        (modSearch host dlopen fns modHome id module ctx) ↔
      SearchSettles host dlopen fns modHome id module ctx := by
  rw [SearchSettles]
  cases named : isSymbol id.bytes with
  | true =>
    -- no ending is a TypeError
    have threw : modSearch host dlopen fns modHome id module ctx =
        .error (.thrown .typeError) ctx := by
      rw [modSearch, named]
      rfl
    rw [threw]
    simp only [Bool.true_eq_false, false_and, iff_false]
    intro ends
    cases ends with
    | native _ _ ends => cases ends
  | false =>
    rw [and_iff_right rfl, modSearch_eq named, scriptText]
    cases content : host.fileText (cString (jsName modHome id)) with
    | ok text =>
      have readable : scriptText host modHome id = some text := by
        rw [scriptText, content]
        rfl
      have only : ∀ {result}, SearchEnds host dlopen fns modHome id module ctx result →
          result = .ok (some (.string text)) ctx := by
        intro result ends
        cases ends with
        | script readable' =>
          cases readable.symm.trans readable'
          rfl
        | noScript unreadable _ => exact absurd (readable.symm.trans unreadable) (by simp)
        | native unreadable _ _ => exact absurd (readable.symm.trans unreadable) (by simp)
      simp only [Except.toOption]
      by_cases fits : text.length ≤ maxStringLen
      · simp only [fits, if_true, true_and]
        cases symbol : isSymbol text with
        | false =>
          simp only [Bool.false_eq_true, if_false, iff_true]
          exact .script readable
        | true =>
          simp only [if_true, Bool.true_eq_false, iff_false]
          exact fun ends => afterScript_no_text (only ends)
      · simp only [fits, if_false, false_and, iff_false]
        intro ends
        cases only ends
    | error ret =>
      have unreadable : scriptText host modHome id = none := by
        rw [scriptText, content]
        rfl
      simp only [Except.toOption, afterScript]
      cases js : id.endsWithJs with
      | true =>
        simp only [if_true, true_or, iff_true]
        exact .noScript unreadable js
      | false =>
        simp only [Bool.false_eq_true, if_false, false_or]
        rw [← searchNative_ends plain allocated]
        constructor
        · intro ends
          generalize searchNative host dlopen fns modHome id module ctx = result at ends ⊢
          cases ends with
          | script readable => exact absurd (unreadable.symm.trans readable) (by simp)
          | noScript _ js' => exact absurd (js.symm.trans js') (by simp)
          | native _ _ ends => exact ends
        · exact .native unreadable js

/-! ### A name that does not fit -/

def longName : ResolvedId where
  bytes := List.replicate 35 0x6d
  nonempty := by decide
  within := by decide
  noNul := by decide

def testHome : ModHome where
  bytes := ascii "modules/"
  noSymbol := rfl
  within := by decide

/-- A shared object without an init function. -/
def testDll : Dll Unit := ⟨9, fun _ => none, fun defined => nomatch defined⟩

/-- The symbol name takes 41 bytes of the 40. -/
theorem modSearch_overruns_initFunc : ¬ SearchEnds stillHost (fun _ => some testDll) testFns
    testHome longName 1 freshEnvironment
    (modSearch stillHost (fun _ => some testDll) testFns testHome longName 1 freshEnvironment) := by
  have overrun : modSearch stillHost (fun _ => some testDll) testFns testHome longName 1
      freshEnvironment = .ok none freshEnvironment := rfl
  rw [overrun]
  intro ends
  cases ends with
  | native _ _ ends => cases ends

def shortName : ResolvedId := ⟨ascii "m", by decide, by decide, by decide⟩

theorem modSearch_ends_test : SearchEnds stillHost (fun _ => some testDll) testFns testHome
    shortName 1 freshEnvironment
    (modSearch stillHost (fun _ => some testDll) testFns testHome shortName 1 freshEnvironment) := by
  have plain : PlainModules stillHost 1 :=
    ⟨fun _ _ _ _ => rfl, fun _ _ _ _ => rfl, fun _ _ _ => rfl⟩
  apply (modSearch_ends_iff plain (by decide)).mpr
  exact ⟨rfl, .inr ⟨by decide, .undefined, _, rfl, fun truthy => by cases truthy⟩⟩

end DukBridge
