import DukBridge.PushArgs

/-!
# call_result_callback and push_args_and_call_func

A completion value on top of the stack is converted and handed to the callback of the
host. The conversion runs after the protected call that produced the value.
-/
namespace DukBridge

open Effect

variable {H : Type} (host : Host H)

/-- What `call_func_res` is called with; `len` is not set for every type. -/
structure Delivered where
  resType : ResType
  res : SlotVal
  len : Option Nat

def Delivered.bytes (resType : ResType) (addr : Word) (data : Bytes) : Delivered where
  resType
  res := .heap addr data
  len := some data.length

/-- The default of the switch; the value makes way for its JSON text. -/
def deliverJson (array : Bool) : Duk H Delivered := do
  let resType := if array then ResType.array else .object
  jsonEncode host 0
  let ctx ← get
  match ctx.get 0 with
  | .string text => return .bytes resType (host.address ctx.world (.string text)) text
  | _ => return { resType, res := .word 0, len := some 0 }

def callResultCallback : Duk H Delivered := do
  let ctx ← get
  let v := ctx.get 0
  match v with
  | .undefined | .null => return { resType := .none, res := .word 0, len := none }
  | .boolean b => return { resType := .bool, res := .word (if b then 1 else 0), len := none }
  | .number d => return { resType := .double, res := .word (double2voidp d), len := none }
  | .string s => return .bytes .string (host.address ctx.world v) s
  | .buffer data => return .bytes .buffer (host.address ctx.world v) data
  | .object id =>
    let shape := (ctx.world.objects id).shape
    if shape.ecmascriptFunction then
      -- the function is copied to the top, from where it is saved
      pushNull
      setAt 0 v
      let funcIndex ← saveTopObject host
      return { resType := .func, res := .word funcIndex, len := none }
    else
      match shape.bufferData with
      | some data => return .bytes .buffer (host.address ctx.world v) data
      | none =>
        if shape.error then
          let s ← safeToString host
          return .bytes .error (host.address (← get).world (.string s)) s
        else deliverJson host shape.array
  | .pointer _ | .lightfunc _ => deliverJson host false

/-- `if (call_func_res != NULL)` -/
def deliver (callFuncRes : Bool) : Duk H (Option Delivered) := do
  if callFuncRes then return some (← callResultCallback host) else return none

/-- The status for the caller, and what its callback was called with. -/
abbrev Returned := Int32 × Option Delivered

def callFunc (argc : Nat) (callFuncRes : Bool) : Duk H Returned := do
  let rc ← pcall host argc
  let delivered ← deliver host callFuncRes
  pop
  return (if rc = 0 then 0 else -2, delivered)

/-- `fmt` may be NULL, and ends with a NUL. -/
def pushArgsAndCallFunc (callFuncRes : Bool) (fmt : Option Bytes) (argv : List Word) :
    Duk H Returned := do
  match fmt with
  | none => callFunc host 0 callFuncRes
  | some fmt =>
    let argc ← pushArgs host argv fmt 0 0
    callFunc host argc callFuncRes

end DukBridge
