import DukBridge.Formats
import DukBridge.Lib.Binary64
import DukBridge.Lib.Effect
import Mathlib.Logic.Function.Basic

/-!
# The part of the Duktape API the bridge is written against

A context is a value stack with a number of reserved slots, over a world of objects.
Pushes, property tables and the global object are concrete; evaluating script code,
JSON and everything a property access may run beyond an own data property belong to
the host and can do anything to the world.
-/
namespace DukBridge

open Effect

/-- A tagged value; objects are known by number. -/
inductive JsVal where
  | undefined
  | null
  | boolean (b : Bool)
  | number (d : Float)
  | string (s : Bytes)
  | buffer (data : Bytes)
  | pointer (p : Word)
  | lightfunc (id : Nat)
  | object (id : Nat)
deriving DecidableEq

/-- What the type tests of the API say about an object. -/
structure ObjShape where
  ecmascriptFunction : Bool
  /-- The bytes of a buffer object. -/
  bufferData : Option Bytes
  error : Bool
  array : Bool
deriving DecidableEq

def ObjShape.plain : ObjShape := ⟨false, none, false, false⟩

/-- An own property. -/
inductive PropSlot where
  | data (value : JsVal) (writable configurable : Bool)
  | accessor (configurable : Bool)
deriving DecidableEq

inductive CFunction where
  | nativeFuncBridge
  | unloadNativeObj
  | unloadDll
  /-- A function `dlsym` found in a shared object. -/
  | initFn
deriving DecidableEq

structure ObjectRec where
  shape : ObjShape
  own : Bytes → Option PropSlot
  extensible : Bool
  /-- The C function behind a native function and its `nargs`. -/
  native : Option (CFunction × Int32)

structure World (H : Type) where
  objects : Nat → ObjectRec
  nextId : Nat
  /-- How often `gettimeofday` has been read. -/
  reads : Nat
  /-- Everything else in the Duktape heap. -/
  heap : H

def globalId : Nat := 0

/-- How a computation of the host ends: with a value, with a throw, or not at all. It may leave
more slots reserved in the frame that started it, never fewer. -/
inductive Outcome (H α : Type) where
  | returns (a : α) (w : World H) (reserved : Nat)
  | throws (e : JsVal) (w : World H) (reserved : Nat)
  | never

structure Timeval where
  sec : Int64
  usec : Int64
deriving DecidableEq

/-- `duk_compile` flags in use: a program, eval code, or a function expression. -/
inductive CompileMode where
  | program
  | eval
  | function
deriving DecidableEq

/-- What lies outside the bridge. Functions that run in the frame of the caller are told how
many of its slots are free. -/
structure Host (H : Type) where
  mem : Memory
  gettimeofday : Nat → Timeval
  /-- `none` for a NULL block, which only a replaced reader hands out with a success. -/
  readFileContent : Bytes → Except Int32 (Option Bytes)
  /-- A call, given its `this`, function and arguments. -/
  call : World H → Nat → JsVal → JsVal → List JsVal → Outcome H JsVal
  /-- The source, `none` for NULL, which is no source code (a TypeError), and the file name. -/
  compile : World H → Nat → CompileMode → Option Bytes → Option Bytes → Outcome H JsVal
  /-- `none` where JSON has no text, as for a function. -/
  jsonEncode : World H → Nat → JsVal → Outcome H (Option Bytes)
  jsonDecode : World H → Nat → Bytes → Outcome H JsVal
  /-- A read that no own data property answers: accessors, prototypes, exotic objects. -/
  readThrough : World H → Nat → JsVal → Bytes → Outcome H (Option JsVal)
  /-- A setter or an inherited read-only property, if one takes the write. -/
  writeThrough : World H → Nat → Nat → Bytes → JsVal → Option (Outcome H Unit)
  /-- Error creation, the script's `errCreate` hook included. -/
  errorObject : World H → Nat → Bytes → Outcome H JsVal
  /-- `ToString` behind a protected call; `none` if it does not come back. -/
  safeToString : World H → Nat → JsVal → Option (Bytes × World H × Nat)
  /-- A registered native function: its address, `udd`, and `fmt` with `args` or two NULLs. -/
  native : World H → Nat → Word → Word → Option NativeArgs → Outcome H NativeResult
  /-- Where the bytes of a string, buffer or buffer object lie. -/
  address : World H → JsVal → Word
  /-- `create_ecmascript_instance(ctx, udd)`: it pushes one value and returns 0, or pushes
  nothing and returns another number. -/
  createInstance : World H → Nat → Word → Word → Outcome H (Option JsVal)
  /-- `malloc` of so many bytes succeeds. -/
  mallocs : Nat → Bool

inductive DukError where
  | rangeError
  | typeError
  /-- An `Error` with this message. -/
  | error (message : Bytes)
  | value (v : JsVal)
deriving DecidableEq

inductive Fault where
  | thrown (e : DukError)
  | noReturn
deriving DecidableEq

structure Ctx (H : Type) where
  /-- The current frame, top first. -/
  stack : List JsVal
  /-- The slots reserved for the frame. -/
  reserve : Nat
  world : World H

abbrev Duk (H α : Type) := EStateM Fault (Ctx H) α

variable {H α : Type}

namespace Ctx

def height (ctx : Ctx H) : Nat := ctx.stack.length

def free (ctx : Ctx H) : Nat := ctx.reserve - ctx.stack.length

def global (ctx : Ctx H) : ObjectRec := ctx.world.objects globalId

/-- The value at index `-1 - i`; an index outside the frame reads as undefined. -/
def get (ctx : Ctx H) (i : Nat) : JsVal := ctx.stack.getD i .undefined

end Ctx

namespace World

def setObject (w : World H) (id : Nat) (o : ObjectRec) : World H :=
  { w with objects := Function.update w.objects id o }

def setOwn (w : World H) (id : Nat) (key : Bytes) (slot : Option PropSlot) : World H :=
  w.setObject id { w.objects id with own := Function.update (w.objects id).own key slot }

end World

/-! ### Slots -/

def raise (e : DukError) : Duk H α := throw (.thrown e)

/-- A push past the reserved slots raises a RangeError. -/
def requireRoom (n : Nat) : Duk H Unit := do
  let ctx ← get
  if ctx.height + n ≤ ctx.reserve then pure () else raise .rangeError

def push (v : JsVal) : Duk H Unit := do
  requireRoom 1
  modify fun ctx => { ctx with stack := v :: ctx.stack }

def popN (n : Nat) : Duk H Unit := do
  let ctx ← get
  if n ≤ ctx.height then set { ctx with stack := ctx.stack.drop n } else raise .rangeError

def pop : Duk H Unit := popN 1

def getAt (i : Nat) : Duk H JsVal := do
  return (← get).get i

/-- `duk_replace`, `duk_copy`: the value at index `-1 - i` is overwritten. -/
def setAt (i : Nat) (v : JsVal) : Duk H Unit :=
  modify fun ctx => { ctx with stack := ctx.stack.set i v }

/-- `duk_remove(ctx, -1 - i)` -/
def removeAt (i : Nat) : Duk H Unit := do
  let ctx ← get
  if i < ctx.height then set { ctx with stack := ctx.stack.eraseIdx i } else raise .rangeError

/-! ### Computations of the host -/

def Outcome.run : Outcome H α → Duk H α
  | .returns a w reserved => do
    modify fun ctx => { ctx with world := w, reserve := ctx.reserve + reserved }
    return a
  | .throws e w reserved => do
    modify fun ctx => { ctx with world := w, reserve := ctx.reserve + reserved }
    raise (.value e)
  | .never => throw .noReturn

/-- A protected computation: a throw becomes its value, with a nonzero status. -/
def Outcome.protect : Outcome H JsVal → Duk H (JsVal × Int32)
  | .returns v w reserved => do
    modify fun ctx => { ctx with world := w, reserve := ctx.reserve + reserved }
    return (v, 0)
  | .throws e w reserved => do
    modify fun ctx => { ctx with world := w, reserve := ctx.reserve + reserved }
    return (e, 1)
  | .never => throw .noReturn

/-! ### Pushes -/

def pushUndefined : Duk H Unit := push .undefined

def pushNull : Duk H Unit := push .null

def pushBoolean (b : Bool) : Duk H Unit := push (.boolean b)

def pushInt (n : Int32) : Duk H Unit := push (.number (Binary64.ofInt n.toInt))

def pushNumber (d : Float) : Duk H Unit := push (.number d)

def pushPointer (p : Word) : Duk H Unit := push (.pointer p)

def pushGlobalObject : Duk H Unit := push (.object globalId)

/-- The longest string Duktape interns. -/
def maxStringLen : Nat := 0x7fffffff

def pushBytes (s : Bytes) : Duk H Unit := do
  requireRoom 1
  if s.length ≤ maxStringLen then push (.string s) else raise .rangeError

variable (host : Host H)

/-- The bytes up to the first NUL, looking at no more than `fuel` of them. -/
def Memory.zstring (mem : Memory) (addr : Word) : Nat → Bytes
  | 0 => []
  | fuel + 1 => if mem addr = 0 then [] else mem addr :: mem.zstring (addr + 1) fuel

/-- `duk_push_string`; a NULL pointer pushes null. -/
def pushString (addr : Word) : Duk H Unit :=
  if addr = 0 then pushNull else pushBytes (host.mem.zstring addr (maxStringLen + 1))

/-- `duk_push_lstring`; a NULL pointer counts as the empty string. -/
def pushLstring (addr len : Word) : Duk H Unit := do
  requireRoom 1
  let len := if addr = 0 then 0 else len.toNat
  if len ≤ maxStringLen then push (.string (host.mem.read addr len)) else raise .rangeError

/-- A new object of this shape, without properties. -/
def pushNew (shape : ObjShape) (native : Option (CFunction × Int32)) : Duk H Unit := do
  let ctx ← get
  -- ids are never used again, so that nothing refers to a new object yet
  push (.object ctx.world.nextId)
  modify fun ctx' =>
    { ctx' with world :=
      { ctx.world.setObject ctx.world.nextId ⟨shape, fun _ => none, true, native⟩ with
        nextId := ctx.world.nextId + 1 } }

def pushObject : Duk H Unit := pushNew .plain none

/-- `DUK_VARARGS` -/
def varargs : Int32 := -1

def pushCFunction (f : CFunction) (nargs : Int32) : Duk H Unit :=
  if nargs = varargs ∨ 0 ≤ nargs ∧ nargs < 0x7fff then pushNew .plain (some (f, nargs))
  else raise .typeError

/-! ### Buffers -/

/-- A string with one of these first bytes is a Symbol. -/
def isSymbol : Bytes → Bool
  | c :: _ => c == 0x80 || c == 0x81 || c == 0x82 || c == 0xFF
  | [] => false

/-- The largest buffer Duktape allocates. -/
def maxBufferLen : Nat := 0x7ffffffe

/-- `duk_to_buffer(ctx, -1, NULL)` on a string. -/
def toBuffer : Duk H Unit := do
  match ← getAt 0 with
  | .string s =>
    if isSymbol s then raise .typeError
    -- the buffer is on the stack beside its string until it replaces it
    requireRoom 1
    if s.length ≤ maxBufferLen then setAt 0 (.buffer s) else raise .rangeError
  | .buffer _ => pure ()
  | _ => raise .typeError

/-- `duk_push_buffer_object(ctx, -1, 0, len, DUK_BUFOBJ_NODEJS_BUFFER)` -/
def pushBufferObject (len : Word) : Duk H Unit := do
  match ← getAt 0 with
  | .buffer data =>
    if len.toNat < 2 ^ 32 then
      pushNew { ObjShape.plain with bufferData := some (data.take len.toNat) } none
    else raise .rangeError
  | _ => raise .typeError

/-! ### Properties -/

/-- `found` is false for a missing property, whose value is undefined. -/
def readProp (target : JsVal) (key : Bytes) : Duk H (JsVal × Bool) := do
  let ctx ← get
  let through : Duk H (JsVal × Bool) := do
    match ← (host.readThrough ctx.world ctx.free target key).run with
    | some v => return (v, true)
    | none => return (.undefined, false)
  match target with
  | .undefined | .null => raise .typeError
  | .object id =>
    -- no script runs for an own data property
    match (ctx.world.objects id).own key with
    | some (.data v _ _) => return (v, true)
    | _ => through
  | _ => through

/-- A write that fails throws: API calls are strict. -/
def writeProp (target : JsVal) (key : Bytes) (v : JsVal) : Duk H Unit := do
  let ctx ← get
  match target with
  | .object id =>
    match (ctx.world.objects id).own key with
    | some (.data _ true configurable) =>
      set { ctx with world := ctx.world.setOwn id key (some (.data v true configurable)) }
    | some (.data _ false _) => raise .typeError
    | some (.accessor _) =>
      match host.writeThrough ctx.world ctx.free id key v with
      | some outcome => outcome.run
      | none => raise .typeError
    | none =>
      match host.writeThrough ctx.world ctx.free id key v with
      | some outcome => outcome.run
      | none =>
        -- no setter on the prototypes, and no read-only property there: it is a new one
        if (ctx.world.objects id).extensible then
          set { ctx with world := ctx.world.setOwn id key (some (.data v true true)) }
        else raise .typeError
  | _ => raise .typeError

/-- Deleting what is not there succeeds. -/
def deleteProp (target : JsVal) (key : Bytes) : Duk H Unit := do
  let ctx ← get
  match target with
  | .object id =>
    match (ctx.world.objects id).own key with
    | some (.data _ _ false) | some (.accessor false) => raise .typeError
    | _ => set { ctx with world := ctx.world.setOwn id key none }
  | _ => raise .typeError

/-- `duk_get_prop_string(ctx, -1 - i, key)`: the key, its coerced copy and a value that was
found each take a slot; one value stays, whatever is returned. -/
def getPropString (i : Nat) (key : Bytes) : Duk H Bool := do
  requireRoom 2
  let target ← getAt i
  let (v, found) ← readProp host target key
  if found then requireRoom 3
  push v
  return found

/-- `duk_put_prop_string(ctx, -1 - i, key)` -/
def putPropString (i : Nat) (key : Bytes) : Duk H Unit := do
  requireRoom 2
  let target ← getAt i
  let v ← getAt 0
  writeProp host target key v
  pop

/-- `duk_put_prop(ctx, -3)` on `[ obj key value ]`; returns 1. -/
def putProp : Duk H Bool := do
  requireRoom 1
  let target ← getAt 2
  let key ← getAt 1
  let v ← getAt 0
  match key with
  | .string key =>
    writeProp host target key v
    popN 2
    return true
  | _ => raise .typeError

/-- `duk_del_prop_string(ctx, -1, key)`; returns 1. -/
def delPropString (key : Bytes) : Duk H Bool := do
  requireRoom 3
  let target ← getAt 0
  deleteProp target key
  return true

/-- `duk_get_global_string(ctx, key)`, with the global object under the slots of `getPropString`. -/
def getGlobalString (key : Bytes) : Duk H Bool := do
  requireRoom 3
  let (v, found) ← readProp host (.object globalId) key
  if found then requireRoom 4
  push v
  return found

/-- `duk_put_global_string(ctx, key)`: the global object, the key and its coerced copy. -/
def putGlobalString (key : Bytes) : Duk H Unit := do
  requireRoom 3
  match (← get).stack with
  | [] => raise .rangeError
  | v :: rest =>
    -- the value stays on the stack where the write throws
    writeProp host (.object globalId) key v
    modify fun ctx => { ctx with stack := rest }

/-! ### Running code -/

/-- `duk_pcall(ctx, nargs)` on `[ func args ]`. -/
def pcall (nargs : Nat) : Duk H Int32 := do
  let ctx ← get
  if nargs + 1 ≤ ctx.height then
    let func := ctx.get nargs
    let args := (ctx.stack.take nargs).reverse
    let (v, rc) ← (host.call ctx.world ctx.free .undefined func args).protect
    -- the result or the error takes the place of the function and its arguments
    popN (nargs + 1)
    push v
    return rc
  else raise .typeError

/-- `duk_pcompile_lstring` -/
def pcompileLstring (mode : CompileMode) (src : Option Bytes) : Duk H Int32 := do
  requireRoom 1
  let ctx ← get
  let (v, rc) ← (host.compile ctx.world ctx.free mode src none).protect
  push v
  return rc

/-- `duk_pcompile_lstring_filename`; the file name on top makes way for the result. -/
def pcompileLstringFilename (mode : CompileMode) (src : Option Bytes) : Duk H Int32 := do
  let ctx ← get
  match ctx.get 0 with
  | .string filename =>
    let (v, rc) ← (host.compile ctx.world ctx.free mode src (some filename)).protect
    setAt 0 v
    return rc
  | _ => raise .typeError

/-- `duk_peval_lstring`: compiled code is called with the global object as `this`. -/
def pevalLstring (src : Option Bytes) : Duk H Int32 := do
  let rc ← pcompileLstring host .eval src
  -- an error of the compiler stays on top instead of a result
  if rc = 0 then
    requireRoom 1
    let ctx ← get
    let (v, rc) ← (host.call ctx.world ctx.free (.object globalId) (ctx.get 0) []).protect
    setAt 0 v
    return rc
  else
    return rc

/-- `duk_json_encode(ctx, -1 - i)` -/
def jsonEncode (i : Nat) : Duk H Unit := do
  let ctx ← get
  match ← (host.jsonEncode ctx.world ctx.free (ctx.get i)).run with
  | some text => setAt i (.string text)
  -- functions and undefined have no JSON
  | none => setAt i .undefined

/-- `duk_json_decode(ctx, -1)` on a string. -/
def jsonDecode : Duk H Unit := do
  let ctx ← get
  match ctx.get 0 with
  | .string text =>
    let v ← (host.jsonDecode ctx.world ctx.free text).run
    setAt 0 v
  | _ => raise .typeError

/-- `duk_push_error_object` -/
def pushErrorObject (message : Bytes) : Duk H Unit := do
  requireRoom 1
  let ctx ← get
  let v ← (host.errorObject ctx.world ctx.free message).run
  push v

/-- `duk_safe_to_lstring(ctx, -1)` -/
def safeToString : Duk H Bytes := do
  requireRoom 1
  let ctx ← get
  match host.safeToString ctx.world ctx.free (ctx.get 0) with
  | some (s, w, reserved) =>
    set { ctx with world := w, reserve := ctx.reserve + reserved }
    setAt 0 (.string s)
    return s
  | none => throw .noReturn

end DukBridge
