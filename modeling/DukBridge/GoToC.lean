import DukBridge.Formats
import DukBridge.Lib.Binary64

/-!
# parseArg and parseArgs (go2c.go)

Go arguments are turned into a format string and an array of slots. A value takes one
slot, or two when it is a length with an address.
-/
namespace DukBridge

inductive IntKind where
  | int
  | int8
  | int16
  | int32
  | int64
  | uint
  | uint8
  | uint16
  | uint32
  | uint64
  | uintptr
deriving DecidableEq

namespace IntKind

def signed : IntKind → Bool
  | int | int8 | int16 | int32 | int64 => true
  | uint | uint8 | uint16 | uint32 | uint64 | uintptr => false

def bits : IntKind → Nat
  | int8 | uint8 => 8
  | int16 | uint16 => 16
  | int32 | uint32 => 32
  | int | int64 | uint | uint64 | uintptr => 64

def contains (k : IntKind) (n : Int) : Prop :=
  if k.signed then -2 ^ (k.bits - 1) ≤ n ∧ n < 2 ^ (k.bits - 1) else 0 ≤ n ∧ n < 2 ^ k.bits

instance (k : IntKind) (n : Int) : Decidable (k.contains n) :=
  inferInstanceAs <| Decidable <|
    if k.signed then -2 ^ (k.bits - 1) ≤ n ∧ n < 2 ^ (k.bits - 1) else 0 ≤ n ∧ n < 2 ^ k.bits

end IntKind

/-- A value of an integer type: a predeclared one, or a defined type over it. -/
structure GoInteger where
  kind : IntKind
  defined : Bool
  val : Int
  inRange : kind.contains val

namespace GoInteger

/-- `reflect.Value.Int` -/
def toInt64 (n : GoInteger) : Int64 := Int64.ofInt n.val

/-- `reflect.Value.Uint` -/
def toUInt64 (n : GoInteger) : UInt64 := UInt64.ofNat n.val.toNat

/-- `float64(n)` of the one or the other, rounded to nearest. -/
def toFloat64 (n : GoInteger) : Float := Binary64.ofInt n.val

end GoInteger

/-- A Go value as the type switch of `parseArg` sees it: by the case that takes it. The content
of slices, maps and all other values matters to `json.Marshal` alone. -/
inductive GoVal (mem : Memory) (S : Type) where
  | nil
  | bool (b : Bool)
  | integer (n : GoInteger)
  | float32 (f : Float32)
  | float64 (d : Float)
  | string (s : GoBytes mem)
  | bytes (b : GoBytes mem)
  /-- `[]string`, `[]interface{}` -/
  | slice (id : Nat)
  /-- `map[string][]string`, `map[string]interface{}` -/
  | map (id : Nat)
  /-- A non-nil `*EcmaObject`. -/
  | ecmaObject (ecmaObj : Word)
  /-- Any other type that implements `error`, with its `Error()`. -/
  | error (text : GoBytes mem)
  /-- A pointer to a struct. -/
  | structPtr (s : S)
  /-- What no case names: other slices and maps, arrays, structs, defined types. -/
  | other (id : Nat)

def GoVal.isError {mem : Memory} {S : Type} : GoVal mem S → Bool
  | .error _ => true
  | _ => false

/-- What `parseArg` uses of Go: `json.Marshal`, `createMethodKeys` on the pool's state, and the
address of `go_createEcmascriptObject`. -/
structure GoRuntime (mem : Memory) (S σ : Type) where
  marshal : GoVal mem S → Option (GoBytes mem)
  createMethodKeys : S → σ → Word × σ
  createEcmascriptObject : Word

/-- The variables `parseArg` writes through its pointers; a case leaves the others as they are. -/
structure ParsedArg where
  argType : ArgFormat
  val : Word
  p : Word
  pLen : Word
deriving DecidableEq

variable {mem : Memory} {S σ : Type} (go : GoRuntime mem S σ)

/-- `getStrPtrLen`, `getBytesPtrLen` and the conversion of the length to `C.size_t`. -/
def ParsedArg.setBytes (out : ParsedArg) (argType : ArgFormat) (s : GoBytes mem) : ParsedArg :=
  { out with argType, p := s.addr, pLen := sizeOfInt (cInt s.data.length) }

def ParsedArg.setVal (out : ParsedArg) (argType : ArgFormat) (val : Word) : ParsedArg :=
  { out with argType, val }

/-- `argToJson`, with the fallback to none every caller in `parseArg` has. -/
def ParsedArg.setJson (out : ParsedArg) (argType : ArgFormat) (arg : GoVal mem S) : ParsedArg :=
  match go.marshal arg with
  | some b => out.setBytes argType b
  | none => out.setVal .none 0

def parseInteger (n : GoInteger) (out : ParsedArg) : ParsedArg :=
  if n.defined then out.setJson go .jobject (.integer n)
  else
    match n.kind with
    | .int | .int8 | .int16 | .int32 => out.setVal .int n.toInt64.toUInt64
    | .int64 => out.setVal .double (double2voidp n.toFloat64)
    | .uint8 | .uint16 => out.setVal .int n.toUInt64
    | .uint | .uint32 | .uint64 => out.setVal .double (double2voidp n.toFloat64)
    | .uintptr => out.setJson go .jobject (.integer n)

def parseArg (arg : GoVal mem S) (out : ParsedArg) : StateM σ ParsedArg :=
  match arg with
  | .nil => return out.setVal .none 0
  | .bool b => return out.setVal .bool (if b then 1 else 0)
  | .integer n => return parseInteger go n out
  | .float32 f => return out.setVal .double (double2voidp f.toFloat)
  | .float64 d => return out.setVal .double (double2voidp d)
  | .string s => return out.setBytes .lstring s
  | .bytes b => return out.setBytes .buffer b
  | .slice _ => return out.setJson go .jarray arg
  | .map _ => return out.setJson go .jobject arg
  | .ecmaObject ecmaObj => return out.setVal .ecmafunc ecmaObj
  | .error text => return out.setBytes .error text
  | .structPtr s => do
    let modKey ← modifyGet (go.createMethodKeys s)
    return { out with argType := .mobject, p := go.createEcmascriptObject, pLen := modKey }
  | .other _ => return out.setJson go .jobject arg

/-- The local variables of the loop in `parseArgs`. -/
structure ParseLoop where
  out : ParsedArg
  i : Nat
  j : Nat
  fmt : Bytes
  argv : List Word

/-- The `switch argType` of `parseArgs`: which values are stored as length and address. -/
def storedAsPair : ArgFormat → Bool
  | .lstring | .buffer | .jobject | .jarray | .mobject => true
  | _ => false

def ParseLoop.store (loop : ParseLoop) (out : ParsedArg) : ParseLoop :=
  let fmt := loop.fmt.set loop.i out.argType.code
  if storedAsPair out.argType then
    { out, fmt, i := loop.i + 1, j := loop.j + 2
      argv := (loop.argv.set loop.j out.pLen).set (loop.j + 1) out.p }
  else
    { out, fmt, i := loop.i + 1, j := loop.j + 1, argv := loop.argv.set loop.j out.val }

def parseArgsFrom : List (GoVal mem S) → ParseLoop → StateM σ ParseLoop
  | [], loop => return loop
  | arg :: rest, loop => do
    let out ← parseArg go arg loop.out
    parseArgsFrom rest (loop.store out)

/-- Zeroed variables, a zeroed `fmt` with room for the ending NUL, two slots an argument. -/
def ParseLoop.start (nargs : Nat) : ParseLoop where
  out := ⟨.none, 0, 0, 0⟩
  i := 0
  j := 0
  fmt := List.replicate (nargs + 1) 0
  argv := List.replicate (nargs * 2) 0

/-- The loop of `parseArgs` over a list of `nargs` arguments, stopped after the first ones. -/
def parseArgsLoop (nargs : Nat) (args : List (GoVal mem S)) : StateM σ ParseLoop :=
  parseArgsFrom go args (ParseLoop.start nargs)

def parseArgs (args : List (GoVal mem S)) : StateM σ (Nat × Bytes × List Word) := do
  let loop ← parseArgsLoop go args.length args
  return (args.length, loop.fmt, loop.argv)

end DukBridge
