import DukBridge.ModuleIds

/-!
# `require`

The module loading framework: each `require` function carries the id of the module it was made
for, and `Duktape.modLoaded` holds the module objects by their ids, from the moment a load begins.
-/
namespace DukBridge

open Effect

/-- What the framework adds to the heap. -/
structure ModuleHeap (H : Type) where
  /-- The objects that are a `duk__require` function. -/
  isRequire : Nat → Bool
  /-- What the global stash holds under `"\xff" "module:Duktape"`. -/
  stashedDuktape : JsVal
  rest : H

variable {H : Type}

/-! ### More of the API -/

section Api

/-- `duk_get_string`; NULL for what is no string. -/
def JsVal.getString : JsVal → Option Bytes
  | .string s => some s
  | _ => none

/-- The value at index `i`, counted from the bottom of the frame. -/
def slot (i : Nat) : Duk H JsVal := do
  return (← get).stack.reverse.getD i .undefined

/-- `duk_dup(ctx, i)` -/
def dup (i : Nat) : Duk H Unit := do
  push (← slot i)

/-- What `duk_def_prop` says beside the value; what it does not say is kept, or false for a new
property. -/
structure DefProp where
  writable : Option Bool
  configurable : Option Bool
  force : Bool

/-- `DUK_DEFPROP_HAVE_VALUE` -/
def DefProp.haveValue : DefProp := ⟨none, none, false⟩

/-- The property a definition leaves, if it is allowed. -/
def ObjectRec.defines (o : ObjectRec) (key : Bytes) (v : JsVal) (d : DefProp) : Option PropSlot :=
  match o.own key with
  | none =>
    if o.extensible ∨ d.force then
      some (.data v (d.writable.getD false) (d.configurable.getD false))
    else none
  | some (.data old w c) =>
    if c ∨ d.force ∨ d.configurable ≠ some true ∧ (w ∨ d.writable ≠ some true ∧ old = v) then
      some (.data v (d.writable.getD w) (d.configurable.getD c))
    else none
  | some (.accessor c) =>
    if c ∨ d.force then some (.data v (d.writable.getD false) (d.configurable.getD c)) else none

/-- `duk_def_prop(ctx, i)` on `[ ... key value ]`, which it pops. -/
def defProp (i : Nat) (d : DefProp) : Duk H Unit := do
  let target ← slot i
  let key ← getAt 1
  let v ← getAt 0
  let ctx ← get
  match target, key with
  | .object id, .string key =>
    match (ctx.world.objects id).defines key v d with
    | some new => set { ctx with world := ctx.world.setOwn id key (some new) }
    | none => raise .typeError
  | _, _ => raise .typeError
  popN 2

variable (host : Host H)

/-- `duk_get_prop_string(ctx, i, key)` for an index from the bottom. -/
def getPropStringAt (i : Nat) (key : Bytes) : Duk H Bool := do
  let ctx ← get
  getPropString host (ctx.height - 1 - i) key

/-- `duk_get_prop(ctx, i)`: the key on top makes way for the value. -/
def getProp (i : Nat) : Duk H Bool := do
  requireRoom 1
  let target ← slot i
  match ← getAt 0 with
  | .string key =>
    let (v, found) ← readProp host target key
    if found then requireRoom 2
    setAt 0 v
    return found
  | _ => raise .typeError

/-- `duk_put_prop(ctx, i)` on `[ ... key value ]`, which it pops. -/
def putPropAt (i : Nat) : Duk H Unit := do
  requireRoom 1
  let target ← slot i
  let key ← getAt 1
  let v ← getAt 0
  match key with
  | .string key =>
    writeProp host target key v
    popN 2
  | _ => raise .typeError

/-- `duk_del_prop(ctx, i)`, which pops the key. -/
def delProp (i : Nat) : Duk H Unit := do
  requireRoom 2
  let target ← slot i
  match ← getAt 0 with
  | .string key =>
    deleteProp target key
    pop
  | _ => raise .typeError

/-- `duk_concat(ctx, 3)`; a Symbol is no string to it. -/
def concat3 : Duk H Unit := do
  match ← getAt 2, ← getAt 1, ← getAt 0 with
  | .string a, .string b, .string c =>
    if isSymbol a ∨ isSymbol b ∨ isSymbol c then raise .typeError
    if maxStringLen < a.length + b.length + c.length then raise .rangeError
    popN 3
    push (.string (a ++ b ++ c))
  | _, _, _ => raise .typeError

/-- `duk_pcompile` on `[ ... source filename ]`; a file name that is no string counts as none. -/
def pcompile (mode : CompileMode) : Duk H Int32 := do
  let ctx ← get
  match ctx.get 1 with
  | .string src =>
    let (v, rc) ← (host.compile ctx.world ctx.free mode (some src) (ctx.get 0).getString).protect
    popN 2
    push v
    return rc
  | _ => raise .typeError

/-- `duk_pcall_method(ctx, nargs)` on `[ func this args ]`. -/
def pcallMethod (nargs : Nat) : Duk H Int32 := do
  let ctx ← get
  if nargs + 2 ≤ ctx.height then
    let args := (ctx.stack.take nargs).reverse
    let (v, rc) ←
      (host.call ctx.world ctx.free (ctx.get nargs) (ctx.get (nargs + 1)) args).protect
    popN (nargs + 2)
    push v
    return rc
  else raise .typeError

end Api

/-! ### The function -/

def idxRequestedId : Nat := 0

def idxRequireId : Nat := 2

def idxResolvedId : Nat := 3

def idxLastcomp : Nat := 4

def idxDuktape : Nat := 5

def idxModLoaded : Nat := 6

def idxFreshRequire : Nat := 8

def idxExports : Nat := 9

def idxModule : Nat := 10

variable (host : Host (ModuleHeap H))
  -- what the resolver finds on the C stack
  (garbage : World (ModuleHeap H) → Vector UInt8 moduleIdLimit)

def markRequire (w : World (ModuleHeap H)) (id : Nat) : World (ModuleHeap H) :=
  { w with heap.isRequire := Function.update w.heap.isRequire id true }

/-- `duk_push_c_function(ctx, duk__require, 1)` -/
def pushRequire : Duk (ModuleHeap H) Unit := do
  let id := (← get).world.nextId
  pushNew .plain none
  modify fun ctx => { ctx with world := markRequire ctx.world id }

/-- `duk__resolve_module_id(ctx, req_id, mod_id)`, which pushes the id and its last component. -/
def pushResolved (reqId : Bytes) (modId : Option Bytes) : Duk (ModuleHeap H) Unit := do
  match dukResolveModuleId (garbage (← get).world) reqId modId with
  | .ids resolved lastComp =>
    pushBytes resolved
    pushBytes lastComp
  | .typeError _ => raise .typeError
  | .overrun => throw .noReturn

/-- `[ requested_id ]` becomes `[ requested_id require require.id resolved_id last_comp ]`. -/
def resolveRequested (func : Nat) : Duk (ModuleHeap H) Unit := do
  match ← slot idxRequestedId with
  | .string reqId =>
    push (.object func)
    let _ ← getPropStringAt host 1 (ascii "id")
    pushResolved garbage reqId (← slot idxRequireId).getString
  | _ => raise .typeError

/-- Pushes `Duktape`, which the stash makes way for, `Duktape.modLoaded` and its entry for the
resolved id. -/
def lookUpLoaded : Duk (ModuleHeap H) Bool := do
  requireRoom 4
  push (← get).world.heap.stashedDuktape
  let _ ← getPropStringAt host idxDuktape (ascii "modLoaded")
  match ← slot idxModLoaded with
  | .object _ =>
    dup idxResolvedId
    getProp host idxModLoaded
  | _ => raise .typeError

/-- Pushes the new `require` of the module, whose id is not writable. -/
def pushFreshRequire : Duk (ModuleHeap H) Unit := do
  pushRequire
  pushBytes (ascii "name")
  pushBytes (ascii "require")
  defProp idxFreshRequire .haveValue
  pushBytes (ascii "id")
  dup idxResolvedId
  defProp idxFreshRequire { DefProp.haveValue with configurable := some true }

/-- Pushes `exports` and `module`; compacting them changes nothing that can be seen. -/
def pushModule : Duk (ModuleHeap H) Unit := do
  pushObject
  pushObject
  pushBytes (ascii "exports")
  dup idxExports
  defProp idxModule ⟨some true, some true, false⟩
  pushBytes (ascii "id")
  dup idxResolvedId
  defProp idxModule .haveValue

/-- `Duktape.modLoaded[resolved_id] = module` -/
def register : Duk (ModuleHeap H) Unit := do
  dup idxResolvedId
  dup idxModule
  putPropAt host idxModLoaded

def wrapperHead : Bytes := ascii "(function(require,exports,module)\x7b"

/-- On a new line, as the last one of the module may be a comment. -/
def wrapperTail : Bytes := ascii "\n\x7d)"

/-- `Duktape.modSearch(resolved_id, fresh_require, exports, module)`, with the beginning of the
wrapper below what it returns. -/
def callModSearch : Duk (ModuleHeap H) Int32 := do
  pushBytes wrapperHead
  let _ ← getPropStringAt host idxDuktape (ascii "modSearch")
  dup idxResolvedId
  dup idxFreshRequire
  dup idxExports
  dup idxModule
  pcall host 4

/-- `module[key]` is pushed, or the default at index `i`. -/
def pushModuleProp (key : Bytes) (i : Nat) : Duk (ModuleHeap H) Unit := do
  if !(← getPropStringAt host idxModule key) then
    pop
    dup i

/-- `[ ... head source ]` becomes `[ ... compiled ]`. -/
def compileModule : Duk (ModuleHeap H) Int32 := do
  pushBytes wrapperTail
  concat3
  pushModuleProp host (ascii "filename") idxResolvedId
  pcompile host .eval

/-- Forces the name on the wrapped function, without a binding inside it. -/
def nameModule : Duk (ModuleHeap H) Unit := do
  pushBytes (ascii "name")
  pushModuleProp host (ascii "name") idxLastcomp
  defProp (idxModule + 1) { DefProp.haveValue with force := true }

/-- `func.call(exports, fresh_require, module.exports, module)` -/
def callModule : Duk (ModuleHeap H) Int32 := do
  dup idxExports
  dup idxFreshRequire
  let _ ← getPropStringAt host idxModule (ascii "exports")
  dup idxModule
  pcallMethod host 3

def returnExports : Duk (ModuleHeap H) Unit := do
  let _ ← getPropStringAt host idxModule (ascii "exports")

/-- The error on top is thrown again, without the module among the loaded ones. -/
def deleteRethrow : Duk (ModuleHeap H) Unit := do
  dup idxResolvedId
  delProp idxModLoaded
  raise (.value (← getAt 0))

/-- The part of a load that follows the registration. -/
def loadRegistered : Duk (ModuleHeap H) Unit := do
  if (← callModSearch host) ≠ 0 then deleteRethrow
  else
    match ← getAt 0 with
    | .string _ =>
      if (← compileModule host) ≠ 0 then deleteRethrow
      else if (← pcall host 0) ≠ 0 then deleteRethrow
      else
        nameModule host
        if (← callModule host) ≠ 0 then deleteRethrow else returnExports host
    | _ => returnExports host

/-- The body of the `require` function `func`; what it returns is on top of its frame. -/
def dukRequire (func : Nat) : Duk (ModuleHeap H) Unit := do
  resolveRequested host garbage func
  if ← lookUpLoaded host then
    let _ ← getPropString host 0 (ascii "exports")
  else
    pushFreshRequire
    pushModule
    register host
    loadRegistered host

end DukBridge
