import DukBridge.HostCalls

/-!
# Module loaders in C

`js_add_module_loader` files a loader under a numbered hidden name of the global object.
`loadNativeModule`, which `Duktape.modSearch` calls, looks through the numbers for one whose
`load_module` knows the module, and makes an object for what it returned.
-/
namespace DukBridge

open Effect

variable {H : Type} (host : Host H)

/-! ### What a loader consists of -/

/-- `module_method_t` -/
structure ModuleMethod where
  name : Bytes
  method : Word
  nargs : Int32
  udd : Word

/-- The pointers of a loader: its `udd` and its four callbacks. -/
structure LoaderPtrs where
  udd : Word
  loadModule : Word
  getMethodsList : Word
  getAttrsList : Word
  finalizer : Word
deriving DecidableEq

/-- The arguments of one `js_add_module_loader`. -/
structure ModuleLoader extends LoaderPtrs where
  modExt : Bytes
deriving DecidableEq

/-- The functions behind the pointers. Those that list methods and attributes find the new object
on top of the stack and may add to it themselves; a NULL they return is an empty list. -/
structure LoaderFns (H : Type) where
  loadModule : (fn udd modHome modName : Word) → World H → Nat → Outcome H Word
  getMethodsList : (fn udd modName modHandle : Word) → Duk H (List ModuleMethod)
  getAttrsList : (fn udd modName modHandle : Word) → Duk H (List ModuleAttr)

/-! ### Objects for modules -/

/-- `[ obj ]` stays, with `obj[method->name]` set. -/
def jsAddModuleMethod (method : ModuleMethod) : Duk H Unit :=
  makeFuncBridge host method.name method.method (if method.nargs < 0 then varargs else method.nargs)
    method.udd

def addMethods : List ModuleMethod → Duk H Unit
  | [] => return
  | method :: rest => do
    jsAddModuleMethod host method
    addMethods rest

def addAttrs : List ModuleAttr → Duk H Unit
  | [] => return
  | attr :: rest => do
    jsAddModuleAttr host attr
    addAttrs rest

/-- `DUK_STRIDX_INT_FINALIZER` -/
def finalizerKey : Bytes := 0x82 :: ascii "Finalizer"

/-- `[ obj ]` stays, with `unload_native_obj` as its finalizer. -/
def setUnloader (udd id hMod finalizer : Word) : Duk H Unit := do
  pushCFunction .unloadNativeObj 0
  pushString host id
  putPropString host 1 (ascii "_nm_")
  putPointer host hMod (ascii "_nmh_")
  putPointer host udd (ascii "_nu_")
  putPointer host finalizer (ascii "_nmf_")
  putPropString host 1 finalizerKey

variable (fns : LoaderFns H)

/-- The rest of `init_native_obj`, once there is a handle. -/
def buildNativeObj (udd id hMod getMethodsList getAttrsList finalizer : Word) : Duk H Unit := do
  pushObject
  if finalizer ≠ 0 then
    setUnloader host udd id hMod finalizer
  if getMethodsList ≠ 0 then
    addMethods host (← fns.getMethodsList getMethodsList udd id hMod)
  if getAttrsList ≠ 0 then
    addAttrs host (← fns.getAttrsList getAttrsList udd id hMod)

inductive InitObj where
  | initObjOk
  | failedToInitObj
  | tryOtherInit
deriving DecidableEq

def callLoadModule (loadModule udd modHome id : Word) : Duk H Word := do
  let ctx ← get
  (fns.loadModule loadModule udd modHome id ctx.world ctx.free).run

/-- Without a `load_module` the handle comes in place of `mod_home`. -/
def initNativeObj (modHome id : Word) (loader : LoaderPtrs) : Duk H InitObj := do
  if loader.loadModule ≠ 0 then
    let hMod ← callLoadModule fns loader.loadModule loader.udd modHome id
    if hMod = 0 then return .tryOtherInit
    buildNativeObj host fns loader.udd id hMod loader.getMethodsList loader.getAttrsList
      loader.finalizer
    return .initObjOk
  else
    buildNativeObj host fns loader.udd id modHome loader.getMethodsList loader.getAttrsList
      loader.finalizer
    return .initObjOk

def jsCreateEcmascriptObject (udd modHandle getMethodsList getAttrsList finalizer : Word) :
    Duk H Int32 := do
  match ← initNativeObj host fns modHandle 0 ⟨udd, 0, getMethodsList, getAttrsList, finalizer⟩ with
  | .initObjOk => return 0
  | .failedToInitObj | .tryOtherInit => return -1

/-! ### The search -/

/-- `duk_get_string` at an index from the bottom of the frame. -/
def getStringAt (i : Nat) : Duk H Word := do
  let ctx ← get
  let v := ctx.stack.reverse.getD i .undefined
  match v with
  | .string _ => return host.address ctx.world v
  | _ => return 0

/-- `duk_get_int(ctx, -1)` -/
def getInt : Duk H Int32 := do
  match ← getAt 0 with
  | .number d => return d.toModel.toInt32
  | _ => return 0

/-- `[ ..., loader ]` is popped; the extension is read as well, and not used. -/
def readLoader : Duk H LoaderPtrs := do
  let _ ← getPropString host 0 (ascii "_nme_")
  let _ ← getPropString host 1 (ascii "_nml_")
  let _ ← getPropString host 2 (ascii "_nmm_")
  let _ ← getPropString host 3 (ascii "_nma_")
  let _ ← getPropString host 4 (ascii "_nmf_")
  let _ ← getPropString host 5 (ascii "_nu_")
  let udd := (← getAt 0).getPointer
  let finalizer := (← getAt 1).getPointer
  let getAttrsList := (← getAt 2).getPointer
  let getMethodsList := (← getAt 3).getPointer
  let loadModule := (← getAt 4).getPointer
  popN 7
  return { udd, loadModule, getMethodsList, getAttrsList, finalizer }

/-- The loop of `loadNativeModule` from loader `i` on, with so many left. -/
def tryLoaders (modHome id : Word) (i : Nat) : Nat → Duk H Unit
  | 0 => pushUndefined
  | n + 1 => do
    -- the undefined that a failed look-up pushes is the result
    if !(← getGlobalString host (getNativeModNum (UInt64.ofNat i))) then return
    let loader ← readLoader host
    if loader.loadModule = 0 ∨ loader.getMethodsList = 0 then
      tryLoaders modHome id (i + 1) n
    else
      match ← initNativeObj host fns modHome id loader with
      | .initObjOk => return
      | .failedToInitObj => pushUndefined
      | .tryOtherInit => tryLoaders modHome id (i + 1) n

/-- In a frame with `mod_home` and `id`; the result is on top. -/
def loadNativeModule : Duk H Unit := do
  let modHome ← getStringAt host 0
  let id ← getStringAt host 1
  pushGlobalObject
  if !(← getPropString host 0 nativeModCountKey) then
    popN 2
    pushUndefined
  else
    let loaderCount ← getInt
    popN 2
    tryLoaders host fns modHome id 0 loaderCount.toInt.toNat

end DukBridge
