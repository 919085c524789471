import DukBridge.GoToC
import DukBridge.ModuleAttrs

/-!
# Go values bound to names

`RegisterVar` (duk_bridge.go) binds a value of any type to a global variable;
`go_getAttrsList` (module_loader.go) binds the exported fields of a struct to the
properties of a module.
-/
namespace DukBridge

variable {H : Type} (host : Host H) {S σ : Type} (go : GoRuntime host.mem S σ)

/-! ### RegisterVar -/

/-- The `switch argType` of `RegisterVar`, which has no case for errors and struct pointers. -/
def ParsedArg.varSlot (out : ParsedArg) : Word :=
  match out.argType with
  | .lstring | .buffer | .jobject | .jarray => out.p
  | _ => out.val

def registerVarAttr (name : Bytes) (val : GoVal host.mem S) : StateM σ ModuleAttr := do
  let out ← parseArg go val ⟨.none, 0, 0, 0⟩
  return { name, fmt := out.argType, val := out.varSlot, valLen := out.pLen }

/-- The call into C, and the pool afterwards. -/
def registerVar (name : Bytes) (val : GoVal host.mem S) (st : σ) : Duk H Int32 × σ :=
  let (attr, st') := (registerVarAttr host go name val).run st
  (jsRegisterVar host attr.name attr.fmt attr.val attr.valLen, st')

/-! ### Fields of a struct -/

/-- A field by its Kind, so a defined type counts as what it is defined over. -/
inductive GoFieldVal (mem : Memory) (S : Type) where
  | bool (b : Bool)
  | integer (n : GoInteger)
  | float (d : Float)
  | string (s : GoBytes mem)
  /-- A nil slice or map. -/
  | absent
  /-- A slice or array of bytes. -/
  | bytes (b : GoBytes mem)
  /-- Any other slice or array. -/
  | slice (v : GoVal mem S)
  | map (v : GoVal mem S)
  /-- Pointers, interfaces, structs, functions, channels and complex numbers. -/
  | other

structure GoField (mem : Memory) (S : Type) where
  name : Bytes
  val : GoFieldVal mem S

/-- The first letter is neither `_` nor one of `a` to `z`. -/
def GoField.exported {mem : Memory} (field : GoField mem S) : Bool :=
  match field.name with
  | [] => false
  | c :: _ => !(c == 95 || (97 ≤ c && c ≤ 122))

/-- `C.tolower` of the first letter. -/
def lowerFirst : Bytes → Bytes
  | [] => []
  | c :: rest => (if 65 ≤ c && c ≤ 90 then c + 32 else c) :: rest

namespace ModuleAttr

variable {mem : Memory} (attr : ModuleAttr)

def setVal (fmt : ArgFormat) (val : Word) : ModuleAttr := { attr with fmt, val }

def setBytes (fmt : ArgFormat) (s : GoBytes mem) : ModuleAttr :=
  { attr with fmt, val := s.addr, valLen := sizeOfInt (cInt s.data.length) }

/-- `argToJson`, whose result nobody looks at: a failure leaves NULL and 0. -/
def setJson (go : GoRuntime mem S σ) (fmt : ArgFormat) (v : GoVal mem S) : ModuleAttr :=
  match go.marshal v with
  | some b => attr.setBytes fmt b
  | none => { attr with fmt, val := 0, valLen := 0 }

/-- The integer cases; a `uintptr` falls to the `default`. -/
def setInteger (n : GoInteger) : Option ModuleAttr :=
  match n.kind with
  | .int | .int8 | .int16 | .int32 => attr.setVal .int n.toInt64.toUInt64
  | .int64 => attr.setVal .double (double2voidp n.toFloat64)
  | .uint8 | .uint16 => attr.setVal .int n.toUInt64
  | .uint | .uint32 | .uint64 => attr.setVal .double (double2voidp n.toFloat64)
  | .uintptr => none

/-- The `switch (field.Kind())` on `c_attr`, which every round fills again. -/
def setField (go : GoRuntime mem S σ) : GoFieldVal mem S → Option ModuleAttr
  | .bool b => attr.setVal .bool (if b then 1 else 0)
  | .integer n => attr.setInteger n
  | .float d => attr.setVal .double (double2voidp d)
  | .string s => attr.setBytes .lstring s
  | .absent => some { attr with fmt := .none }
  -- not af_buffer: a script gets the bytes of such a field as a string
  | .bytes b => attr.setBytes .lstring b
  | .slice v => attr.setJson go .jarray v
  | .map v => attr.setJson go .jobject v
  | .other => none

end ModuleAttr

/-- The loop of `go_getAttrsList`, with the module on top of the stack. -/
def goGetAttrsList : List (GoField host.mem S) → ModuleAttr → Duk H Unit
  | [], _ => return ()
  | field :: rest, attr =>
    if field.exported then
      let named := { attr with name := lowerFirst field.name }
      match named.setField go field.val with
      | some filled => do
        jsAddModuleAttr host filled
        goGetAttrsList rest filled
      | none => goGetAttrsList rest named
    else goGetAttrsList rest attr

end DukBridge
