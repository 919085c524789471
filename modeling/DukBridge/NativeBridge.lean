import DukBridge.PushArgs

/-!
# native_func_bridge

The C function behind every native function of a script. It packs the arguments of the
call into `fmt` and `args`, hands them to the native function, and pushes what comes back.
-/
namespace DukBridge

open Effect

variable {H : Type} (host : Host H)

/-! ### Arguments -/

/-- What is written for one argument: its format character, and one slot or a length with an
address. -/
structure NativeArg where
  fmt : ArgFormat
  slots : List SlotVal

def NativeArg.word (fmt : ArgFormat) (w : Word) : NativeArg := { fmt, slots := [.word w] }

def NativeArg.bytes (fmt : ArgFormat) (addr : Word) (data : Bytes) : NativeArg where
  fmt
  slots := [.word (UInt64.ofNat data.length), .heap addr data]

/-- The default of the switch. What JSON has no text for comes as a NULL of length 0. -/
def marshalJson (k : Nat) (array : Bool) : Duk H NativeArg := do
  let fmt := if array then ArgFormat.jarray else .jobject
  jsonEncode host k
  let ctx ← get
  match ctx.get k with
  | .string text => return .bytes fmt (host.address ctx.world (.string text)) text
  | _ => return { fmt, slots := [.word 0, .word 0] }

/-- The switch on the type of an argument, which lies `k` below the top. -/
def marshalArg (k : Nat) : Duk H NativeArg := do
  let ctx ← get
  let v := ctx.get k
  match v with
  | .undefined | .null => return .word .none 0
  | .boolean b => return .word .bool (if b then 1 else 0)
  | .number d => return .word .double (double2voidp d)
  | .string s => return .bytes .lstring (host.address ctx.world v) s
  | .buffer data => return .bytes .buffer (host.address ctx.world v) data
  | .object id =>
    let shape := (ctx.world.objects id).shape
    if shape.ecmascriptFunction then
      -- the function is copied to the top, from where it is saved
      pushNull
      setAt 0 v
      let funcIndex ← saveTopObject host
      return .word .ecmafunc funcIndex
    else
      match shape.bufferData with
      | some data => return .bytes .buffer (host.address ctx.world v) data
      | none => marshalJson host k shape.array
  | .pointer _ | .lightfunc _ => marshalJson host k false

/-- The variables of the loop, with the block it fills. -/
structure MarshalLoop where
  i : Nat
  j : Nat
  fmt : Nat → Option UInt8
  args : Nat → Option SlotVal

/-- `args[j] = ..; args[j+1] = ..` -/
def writeSlots : List SlotVal → Nat → (Nat → Option SlotVal) → Nat → Option SlotVal
  | [], _, args => args
  | slot :: slots, j, args => writeSlots slots (j + 1) (Function.update args j (some slot))

namespace MarshalLoop

def start : MarshalLoop where
  i := 0
  j := 0
  fmt _ := none
  args _ := none

def store (loop : MarshalLoop) (out : NativeArg) : MarshalLoop where
  i := loop.i + 1
  j := loop.j + out.slots.length
  fmt := Function.update loop.fmt loop.i (some out.fmt.code)
  args := writeSlots out.slots loop.j loop.args

end MarshalLoop

/-- The loop over `nargs` arguments after its first rounds. -/
def marshalRounds (nargs : Nat) : Nat → Duk H MarshalLoop
  | 0 => return .start
  | n + 1 => do
    let loop ← marshalRounds nargs n
    -- argument i counts from the bottom of the frame
    let out ← marshalArg host (nargs - 1 - loop.i)
    return loop.store out

/-- The loop with the NUL it leaves behind. -/
def marshalArgs (nargs : Nat) : Duk H NativeArgs := do
  let loop ← marshalRounds host nargs nargs
  return { nargs, fmt := Function.update loop.fmt nargs (some 0), args := loop.args }

/-! ### The result -/

/-- The switch on the result type; it returns how many values it pushed. What `free_res` does
concerns the memory of the host alone. -/
def pushResult (out : NativeResult) : Duk H Nat :=
  match out.resType with
  | .none => return 0
  | .bool => do
    pushBoolean (intOfPtr out.res != 0)
    return 1
  | .int => do
    pushInt (intOfPtr out.res)
    return 1
  | .double => do
    pushNumber (voidp2double out.res)
    return 1
  | .string => do
    pushLstring host out.res out.resLen
    return 1
  | .buffer => do
    pushNodeBuffer host out.res out.resLen
    return 1
  | .func => do
    let _ ← loadObject host out.res
    return 1
  | .error => raise (.error (formatString host out.resLen out.res))
  | .mobject => do
    pushInstance host out.res out.resLen
    return 1
  | .object | .array => do
    pushJson host out.res out.resLen
    return 1

/-! ### The function -/

/-- `DUK_HIDDEN_SYMBOL(NATIVE_FUNC)` -/
def nativeFuncKey : Bytes := 0xFF :: ascii "_nf_"

/-- `DUK_HIDDEN_SYMBOL(NATIVE_UDD)` -/
def nativeUddKey : Bytes := 0xFF :: ascii "_nu_"

/-- `duk_get_pointer` -/
def JsVal.getPointer : JsVal → Word
  | .pointer p => p
  | _ => 0

def callNative (nativeFunc udd : Word) (args : Option NativeArgs) : Duk H NativeResult := do
  let ctx ← get
  (host.native ctx.world ctx.free nativeFunc udd args).run

/-- `native_func` and `udd` are hidden properties of the function being called. -/
def getNativeFunc (currentFunction : JsVal) : Duk H (Word × Word) := do
  push currentFunction
  let _ ← getPropString host 0 nativeFuncKey
  let _ ← getPropString host 1 nativeUddKey
  let nativeFunc := (← getAt 1).getPointer
  let udd := (← getAt 0).getPointer
  popN 3
  return (nativeFunc, udd)

/-- In the frame of a call of `currentFunction`, whose arguments are on the stack. -/
def nativeFuncBridge (currentFunction : JsVal) : Duk H Nat := do
  let nargs := (← get).height
  let (nativeFunc, udd) ← getNativeFunc host currentFunction
  if nargs = 0 then
    pushResult host (← callNative host nativeFunc udd none)
  -- sizeof(void*) * 2 * nargs + nargs + 1
  else if host.mallocs (8 * 2 * nargs + nargs + 1) then
    let args ← marshalArgs host nargs
    pushResult host (← callNative host nativeFunc udd (some args))
  else
    return 0

end DukBridge
