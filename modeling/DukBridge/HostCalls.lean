import DukBridge.ModuleAttrs
import DukBridge.NativeBridge
import DukBridge.ResultCallback

/-!
# The functions a host calls

Each starts and ends on the value stack of the environment, outside any call of
Duktape: an error that nothing protects is fatal there.
-/
namespace DukBridge

open Effect

variable {H : Type} (host : Host H)

/-! ### Functions written in JavaScript -/

/-- The tail of the two functions that compile: `[ global, func_name, function ]`. -/
def bindFunction (failed : Int32) : Duk H Int32 := do
  let rc ← putProp host
  pop
  return if rc then 0 else failed

def jsRegisterCodeFunc (jsCode : Option Bytes) (funcName : Bytes) : Duk H Int32 := do
  pushGlobalObject
  pushBytes funcName
  if (← pcompileLstring host .function jsCode) ≠ 0 then
    let _ ← safeToString host
    popN 3
    return -1
  bindFunction host (-2)

def jsRegisterFileFunc (scriptFile funcName : Bytes) : Duk H Int32 := do
  match host.readFileContent scriptFile with
  | .error ret => return ret
  | .ok src =>
    pushGlobalObject
    pushBytes funcName
    pushBytes scriptFile
    if (← pcompileLstringFilename host .function src) ≠ 0 then
      let _ ← safeToString host
      popN 3
      return -6
    bindFunction host (-7)

def jsUnregisterFunc (funcName : Bytes) : Duk H Int32 := do
  pushGlobalObject
  let rc ← delPropString funcName
  pop
  return if rc then 1 else 0

/-! ### Native functions -/

/-- `[ obj ]` stays, with `obj[func_name]` set. -/
def makeFuncBridge (funcName : Bytes) (nativeFunc : Word) (nargs : Int32) (udd : Word) :
    Duk H Unit := do
  pushBytes funcName
  pushCFunction .nativeFuncBridge nargs
  pushPointer nativeFunc
  putPropString host 1 nativeFuncKey
  pushPointer udd
  putPropString host 1 nativeUddKey
  let _ ← putProp host

def jsRegisterNativeFunc (funcName : Bytes) (nativeFunc : Word) (paramNum : Int32) (udd : Word) :
    Duk H Int32 := do
  let nargs := if paramNum < 0 then varargs else paramNum
  pushGlobalObject
  makeFuncBridge host funcName nativeFunc nargs udd
  pop
  return 0

def jsUnregisterNativeFunc (funcName : Bytes) : Duk H Int32 := do
  pushGlobalObject
  if !(← getPropString host 0 funcName) then
    popN 2
    return -1
  if !(← getPropString host 0 nativeFuncKey) then
    popN 3
    return -2
  popN 2
  let _ ← delPropString funcName
  pop
  return 0

/-! ### Calls -/

def jsCallRegisteredFunc (funcName : Bytes) (callFuncRes : Bool) (fmt : Option Bytes)
    (argv : List Word) : Duk H Returned := do
  -- what the failed look-up pushed is not popped
  if !(← getGlobalString host funcName) then return (-1, none)
  pushArgsAndCallFunc host callFuncRes fmt argv

def jsCallFileFunc (scriptFile : Bytes) (callFuncRes : Bool) (fmt : Option Bytes)
    (argv : List Word) : Duk H Returned := do
  match host.readFileContent scriptFile with
  | .error ret => return (ret, none)
  | .ok src =>
    if (← pcompileLstring host .function src) ≠ 0 then
      let _ ← safeToString host
      pop
      return (-1, none)
    pushArgsAndCallFunc host callFuncRes fmt argv

def jsCallEcmascriptFunc (ecmaFunc : Word) (callFuncRes : Bool) (fmt : Option Bytes)
    (argv : List Word) : Duk H Returned := do
  let _ ← loadObject host ecmaFunc
  pushArgsAndCallFunc host callFuncRes fmt argv

def jsDestroyEcmascriptObj (ecmaObj : Word) : Duk H Unit := destroyObject ecmaObj

/-! ### Scripts -/

def jsEval (jsCode : Option Bytes) (callFuncRes : Bool) : Duk H Returned := do
  let ret ← pevalLstring host jsCode
  let delivered ← deliver host callFuncRes
  pop
  return (if ret = 0 then 0 else -1, delivered)

/-- The way out of `js_eval_file` and `js_check_syntax_file` when there is no content. -/
def fileNotRead (scriptFile : Bytes) (ret : Int32) (callFuncRes : Bool) : Duk H Returned := do
  if ret = -1 ∧ callFuncRes then
    pushErrorObject host (scriptFile ++ ascii " not found")
    let delivered ← callResultCallback host
    pop
    return (ret, some delivered)
  else
    return (ret, none)

def jsEvalFile (scriptFile : Bytes) (callFuncRes : Bool) : Duk H Returned :=
  match host.readFileContent scriptFile with
  | .error ret => fileNotRead host scriptFile ret callFuncRes
  | .ok src => jsEval host src callFuncRes

def jsCheckSyntax (jsCode : Option Bytes) (callFuncRes : Bool) : Duk H Returned := do
  let ret ← pcompileLstring host .program jsCode
  if callFuncRes ∧ ret = 0 then
    -- syntax ok, return undefined
    pushUndefined
    removeAt 1
  let delivered ← deliver host callFuncRes
  pop
  return (if ret = 0 then 0 else -1, delivered)

def jsCheckSyntaxFile (scriptFile : Bytes) (callFuncRes : Bool) : Duk H Returned :=
  match host.readFileContent scriptFile with
  | .error ret => fileNotRead host scriptFile ret callFuncRes
  | .ok src => jsCheckSyntax host src callFuncRes

/-! ### Module loaders -/

/-- `duk_require_int(ctx, -1)` -/
def requireInt : Duk H Int32 := do
  match ← getAt 0 with
  | .number d => return d.toModel.toInt32
  | _ => raise .typeError

/-- `DUK_HIDDEN_SYMBOL(NATIVE_MOD_COUNT)` -/
def nativeModCountKey : Bytes := 0xFF :: ascii "_nmc_"

/-- `obj[key] = p` for the object on top. -/
def putPointer (p : Word) (key : Bytes) : Duk H Unit := do
  pushPointer p
  putPropString host 1 key

def jsAddModuleLoader (udd : Word) (modExt : Bytes)
    (loadModule getMethodsList getAttrsList finalizer : Word) : Duk H Unit := do
  pushGlobalObject
  let loaderCount ←
    if ← getPropString host 0 nativeModCountKey then requireInt else pure 0
  pop
  pushInt (loaderCount + 1)
  putPropString host 1 nativeModCountKey
  pushObject
  pushBytes modExt
  putPropString host 1 (ascii "_nme_")
  putPointer host loadModule (ascii "_nml_")
  putPointer host getMethodsList (ascii "_nmm_")
  putPointer host getAttrsList (ascii "_nma_")
  putPointer host finalizer (ascii "_nmf_")
  putPointer host udd (ascii "_nu_")
  putPropString host 1 (getNativeModNum (sizeOfInt loaderCount))
  pop

end DukBridge
