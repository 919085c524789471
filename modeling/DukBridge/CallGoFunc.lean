import DukBridge.GoTypes

/-!
# callGoFunc (go2c.go)

The decoding loop walks `fmt` and `args` with an index `j` of its own; what the Go
function returns is encoded into a result type, a slot and a length.
-/
namespace DukBridge

/-- A Go function value, and what `reflect` and `encoding/json` do for `callGoFunc`. -/
structure GoFunc (mem : Memory) (S : Type) where
  params : List GoType
  variadic : Bool
  -- a result: whether it is declared with an interface type, and its dynamic value
  call : List GoArg → List (Bool × GoVal mem S)
  implements : GoType → List String → Bool
  unmarshal : Bytes → Option GoJson

variable {mem : Memory} {S σ : Type}

namespace GoFunc

/-- `getFuncArgType` -/
def argType (f : GoFunc mem S) (argIndex : Nat) : GoType :=
  let funNargs := f.params.length
  if f.variadic then
    -- argIndex < funNargs-2 on Go ints
    if (argIndex : Int) < (funNargs : Int) - 2 then f.params.getD argIndex .unsafePointer
    else (f.params.getD (funNargs - 1) .unsafePointer).elem
  else f.params.getD argIndex .unsafePointer

end GoFunc

/-! ### The arguments -/

/-- The type of `v` after the `switch` on the parameter's kind, whose default is `v = d`. -/
def numberFor (t : GoType) : GoType :=
  match t.kind with
  | .int .uintptr => .float64
  | .int k => .int k
  | .float32 => .float32
  | _ => .float64

/-- One round of the loop: the argument and the next `j`. It panics where `arrArgs` ends, and on a
character no case takes. -/
def decodeArg (f : GoFunc mem S) (c : UInt8) (t : GoType) (arrArgs : List SlotVal) (j : Nat) :
    Option (GoArg × Nat) := do
  let slot ← arrArgs[j]?
  let l := slot.toWord.toNat
  match ArgFormat.ofCode c with
  | some .none => return (.zero t, j + 1)
  | some .bool => return (.bool (slot.toWord != 0), j + 1)
  | some .double => return (.number (numberFor t) (voidp2double slot.toWord), j + 1)
  | some .lstring =>
    let s ← arrArgs[j + 1]?
    return (if t.kind = .slice then .byteSlice s l else .string s l, j + 2)
  | some .buffer =>
    let s ← arrArgs[j + 1]?
    return (if t.kind = .string then .string s l else .byteSlice s l, j + 2)
  | some .jobject | some .jarray =>
    let s ← arrArgs[j + 1]?
    let arg : GoArg :=
      if t.kind = .string then .string s l
      else if t.kind = .slice then .byteSlice s l
      else
        match f.unmarshal (s.bytes mem l) with
        | some o => .json o
        | none => .zero t
    return (arg, j + 2)
  | some .ecmafunc => return (.ecmaObject slot.toWord, j + 1)
  -- argv[i] stays the zero Value, whose type nobody can ask for
  | _ => none

structure DecodeLoop where
  i : Nat
  j : Nat
  argv : List GoArg

inductive DecodeStop where
  | panicked
  -- rt_none is returned without a call
  | rejected

def decodeRound (f : GoFunc mem S) (bft : Bytes) (arrArgs : List SlotVal) (loop : DecodeLoop) :
    Except DecodeStop DecodeLoop :=
  let funArgType := f.argType loop.i
  match decodeArg f (bft.getD loop.i 0) funArgType arrArgs loop.j with
  | none => .error .panicked
  | some (arg, j) =>
    match arg.type with
    | none => .error .panicked
    | some t =>
      if t.convertibleTo f.implements funArgType then
        .ok { i := loop.i + 1, j, argv := loop.argv ++ [arg] }
      else .error .rejected

/-- The loop after its first rounds. -/
def decodeRounds (f : GoFunc mem S) (bft : Bytes) (arrArgs : List SlotVal) :
    Nat → Except DecodeStop DecodeLoop
  | 0 => .ok { i := 0, j := 0, argv := [] }
  | n + 1 => decodeRounds f bft arrArgs n >>= decodeRound f bft arrArgs

/-- The characters before the NUL, of which there are at most `fuel`. -/
def formatChars (fmt : Nat → Option UInt8) : Nat → Nat → Bytes
  | 0, _ => []
  | fuel + 1, i =>
    match fmt i with
    | some c => if c = 0 then [] else c :: formatChars fmt fuel (i + 1)
    | none => []

namespace NativeArgs

/-- `C.strlen` and `toBytes` -/
def chars (ft : NativeArgs) : Bytes := formatChars ft.fmt (ft.nargs + 1) 0

/-- `toPointerArray`; a slot that was never written reads as anything. -/
def toPointerArray (ft : NativeArgs) (length : Nat) : List SlotVal :=
  (List.range length).map fun k => (ft.args k).getD (.word 0)

end NativeArgs

/-! ### The result -/

/-- `Value.Call` panics on an argument its parameter cannot be assigned. -/
def GoFunc.accepts (f : GoFunc mem S) (argv : List GoArg) : Bool :=
  let fixed := if f.variadic then f.params.length - 1 else f.params.length
  argv.zipIdx.all fun (arg, i) =>
    let target := if i < fixed then f.params.getD i .unsafePointer
      else (f.params.getD fixed .unsafePointer).elem
    match arg.type with
    | some t => t.assignableTo f.implements target
    | none => false

namespace NativeResult

def none : NativeResult := { resType := .none, res := 0, resLen := 0, freeRes := Option.none }

def word (resType : ResType) (res : Word) : NativeResult := { none with resType, res }

/-- `setBuffer` and `resToJson`, which take the length as a `C.int`. -/
def setBytes (resType : ResType) (s : GoBytes mem) : NativeResult :=
  { none with resType, res := s.addr, resLen := sizeOfInt (cInt s.data.length) }

end NativeResult

variable (go : GoRuntime mem S σ)

def resToJson (res : GoVal mem S) : NativeResult :=
  match go.marshal res with
  | none => .none
  | some b => .setBytes .object b

/-- The integer cases of the result switch. `resV.Int()` and `resV.Uint()` panic on a Value of
interface kind, which a result declared with an interface type is. -/
def encodeInteger (declaredInterface : Bool) (n : GoInteger) : Option NativeResult :=
  if n.defined then some .none
  else
    match n.kind with
    | .uintptr => some .none
    | k =>
      if declaredInterface then none
      else some <|
        match k with
        | .int | .int8 | .int16 | .int32 => .word .int n.toInt64.toUInt64
        | .int64 => .word .double (double2voidp n.toFloat64)
        | .uint8 | .uint16 => .word .int n.toUInt64
        | .uint | .uint32 | .uint64 | .uintptr => .word .double (double2voidp n.toFloat64)

/-- The `switch res.(type)` over the first result; `none` is a panic. -/
def encodeResult (declaredInterface : Bool) (res : GoVal mem S) : StateM σ (Option NativeResult) :=
  match res with
  | .nil => return some .none
  | .bool b => return some (.word .bool (if b then 1 else 0))
  | .integer n => return encodeInteger declaredInterface n
  | .float32 f =>
    return if declaredInterface then none else some (.word .double (double2voidp f.toFloat))
  | .float64 d => return if declaredInterface then none else some (.word .double (double2voidp d))
  | .string s => return some (.setBytes .string s)
  | .bytes b => return some (.setBytes .buffer b)
  | .error text => return some (.setBytes .error text)
  | .slice _ | .map _ => return some (resToJson go res)
  | .ecmaObject ecmaObj => return some (.word .func ecmaObj)
  | .structPtr s => do
    -- the kind of a Value of interface kind is not Ptr
    if declaredInterface then return some .none
    else
      let modKey ← modifyGet (go.createMethodKeys s)
      return some { NativeResult.none with
        resType := .mobject, res := go.createEcmascriptObject, resLen := modKey }
  | .other _ => return some .none

/-- What `callGoFunc` does with the values `Value.Call` returned. -/
def encodeResults (r : List (Bool × GoVal mem S)) : StateM σ (Option NativeResult) :=
  match r with
  | [(declaredInterface, res)] => encodeResult go declaredInterface res
  | [(declaredInterface, res), (_, err)] =>
    -- if 2 returned values, the 2nd must be error
    match err with
    | .nil => encodeResult go declaredInterface res
    | .error text => return some (.setBytes .error text)
    | _ => return some .none
  | _ => return some .none

def GoFunc.callWith (f : GoFunc mem S) (argv : List GoArg) : StateM σ (Option NativeResult) :=
  if f.accepts argv then encodeResults go (f.call argv) else return none

/-- `none` is a panic, which ends the process. -/
def callGoFunc (f : GoFunc mem S) (ft : Option NativeArgs) : StateM σ (Option NativeResult) :=
  let funNargs := f.params.length
  match ft with
  | none =>
    if funNargs = 0 || (f.variadic && funNargs = 1) then f.callWith go [] else return some .none
  | some ft =>
    let bft := ft.chars
    let nargs := bft.length
    let fits := if f.variadic then funNargs - 1 ≤ nargs else nargs = funNargs
    if fits then
      match decodeRounds f bft (ft.toPointerArray (2 * nargs)) nargs with
      | .ok loop => f.callWith go loop.argv
      | .error .rejected => return some .none
      | .error .panicked => return none
    else return some .none

end DukBridge
