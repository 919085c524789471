import DukBridge.GoToC
import DukBridge.PushRules
import DukBridge.ResultDelivery

/-!
# Evaluations and calls of a JSEnv (duk_bridge.go)

Six methods run JavaScript for a Go program. Each hands `go_resultReceived` to its
function of the C bridge and makes a value and an error of what comes back.
-/
namespace DukBridge

open Effect

/-! ### The result -/

/-- A value of the `interface{}` variable behind `udd`, by its dynamic type. -/
inductive GoRes where
  | nil
  | bool (b : Bool)
  | float64 (d : Float)
  -- `_Ctype_double`, a type of its own: no assertion to float64 holds of it
  | cDouble (d : Float)
  | string (s : Bytes)
  | ecmaObject (ecmaObj : Word)
  -- the text is not copied out of C memory
  | error (text : Bytes)
  | bytes (b : Bytes)
deriving DecidableEq

/-- The switch of `go_resultReceived`, whose default falls through to the byte slices. -/
def goResultReceived (mem : Memory) (d : Delivered) : GoRes :=
  let resLen := d.len.getD 0
  match d.resType with
  | .none => .nil
  | .bool => .bool (d.res.toWord != 0)
  | .double => .cDouble (voidp2double d.res.toWord)
  | .string => .string (d.res.bytes mem resLen)
  | .func => .ecmaObject d.res.toWord
  | .error => .error (d.res.bytes mem resLen)
  | .buffer | .object | .array | .int | .mobject => .bytes (d.res.bytes mem resLen)

inductive GoErr where
  /-- An error that was received for the result. -/
  | text (s : Bytes)
  /-- `"error code: %d"` -/
  | code (res : Int32)
deriving DecidableEq

def fromErrorCode (res : Int32) : Option GoErr := if res = 0 then none else some (.code res)

def parseResult (res : GoRes) (ret : Int32) : GoRes × Option GoErr :=
  match res with
  | .error text => (.nil, some (.text text))
  | _ => if ret ≠ 0 then (.nil, fromErrorCode ret) else (res, none)

/-- `res` is nil until `go_resultReceived` is called. -/
def Returned.parse (mem : Memory) (returned : Returned) : GoRes × Option GoErr :=
  parseResult ((returned.2.map (goResultReceived mem)).getD .nil) returned.1

/-! ### The arguments -/

/-- `C.CString`, up to the NUL at which C stops reading. -/
def cString (s : Bytes) : Bytes := s.takeWhile (· != 0)

variable {H : Type} (host : Host H) {S σ : Type} (go : GoRuntime host.mem S σ)

/-- A script as `duk_peval_lstring` sees it: `getStrPtrLen` and `getBytesPtrLen` hand over the data
pointer, which may be NULL for an empty string or slice. -/
def scriptBytes (jsCode : GoBytes host.mem) : Option Bytes :=
  host.sourceAt jsCode.addr (sizeOfInt (cInt jsCode.data.length))

/-- `fmt` and `argv`, which are NULL for no arguments at all. -/
def callArgs (args : Option (List (GoVal host.mem S))) : StateM σ (Option Bytes × List Word) :=
  match args with
  | none => return (none, [])
  | some args => do
    let (_, fmt, argv) ← parseArgs go args
    return (some fmt, argv)

/-! ### The methods -/

namespace JSEnv

def eval (jsCode : GoBytes host.mem) : Duk H (GoRes × Option GoErr) := do
  let returned ← jsEval host (scriptBytes host jsCode) true
  return returned.parse host.mem

def evalBytes (jsCode : GoBytes host.mem) : Duk H (GoRes × Option GoErr) := do
  let returned ← jsEval host (scriptBytes host jsCode) true
  return returned.parse host.mem

def evalFile (scriptFile : Bytes) : Duk H (GoRes × Option GoErr) := do
  let returned ← jsEvalFile host (cString scriptFile) true
  return returned.parse host.mem

/-- The call into C, and the pool afterwards. -/
def callFunc (funcName : Bytes) (args : Option (List (GoVal host.mem S))) (st : σ) :
    Duk H (GoRes × Option GoErr) × σ :=
  let ((fmt, argv), st') := (callArgs host go args).run st
  (do
    let returned ← jsCallRegisteredFunc host (cString funcName) true fmt argv
    return returned.parse host.mem, st')

def callFileFunc (scriptFile : Bytes) (args : Option (List (GoVal host.mem S))) (st : σ) :
    Duk H (GoRes × Option GoErr) × σ :=
  let ((fmt, argv), st') := (callArgs host go args).run st
  (do
    let returned ← jsCallFileFunc host (cString scriptFile) true fmt argv
    return returned.parse host.mem, st')

def callEcmascriptFunc (ecmaFunc : Word) (args : Option (List (GoVal host.mem S))) (st : σ) :
    Duk H (GoRes × Option GoErr) × σ :=
  let ((fmt, argv), st') := (callArgs host go args).run st
  (do
    let returned ← jsCallEcmascriptFunc host ecmaFunc true fmt argv
    return returned.parse host.mem, st')

end JSEnv

/-- A call of one of the six methods. -/
inductive GoCall (mem : Memory) (S : Type) where
  | eval (jsCode : GoBytes mem)
  | evalBytes (jsCode : GoBytes mem)
  | evalFile (scriptFile : Bytes)
  | callFunc (funcName : Bytes) (args : Option (List (GoVal mem S)))
  | callFileFunc (scriptFile : Bytes) (args : Option (List (GoVal mem S)))
  | callEcmascriptFunc (ecmaFunc : Word) (args : Option (List (GoVal mem S)))

namespace GoCall

def run (st : σ) : GoCall host.mem S → Duk H (GoRes × Option GoErr) × σ
  | eval jsCode => (JSEnv.eval host jsCode, st)
  | evalBytes jsCode => (JSEnv.evalBytes host jsCode, st)
  | evalFile scriptFile => (JSEnv.evalFile host scriptFile, st)
  | callFunc funcName args => JSEnv.callFunc host go funcName args st
  | callFileFunc scriptFile args => JSEnv.callFileFunc host go scriptFile args st
  | callEcmascriptFunc ecmaFunc args => JSEnv.callEcmascriptFunc host go ecmaFunc args st

/-- The function of the C bridge behind it, with what it is called with. -/
def entry (st : σ) : GoCall host.mem S → EntryPoint
  | eval jsCode | evalBytes jsCode => .eval (scriptBytes host jsCode)
  | evalFile scriptFile => .evalFile (cString scriptFile)
  | callFunc funcName args =>
    let (fmt, argv) := ((callArgs host go args).run st).1
    .callRegisteredFunc (cString funcName) fmt argv
  | callFileFunc scriptFile args =>
    let (fmt, argv) := ((callArgs host go args).run st).1
    .callFileFunc (cString scriptFile) fmt argv
  | callEcmascriptFunc ecmaFunc args =>
    let (fmt, argv) := ((callArgs host go args).run st).1
    .callEcmascriptFunc ecmaFunc fmt argv

theorem run_eq (call : GoCall host.mem S) (st : σ) : (call.run host go st).1 = do
    let returned ← (call.entry host go st).run host true
    return returned.parse host.mem := by
  cases call <;> rfl

end GoCall

end DukBridge
