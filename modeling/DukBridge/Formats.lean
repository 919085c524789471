import DukBridge.Words

/-! The enumerations of duk_bridge.h that tell what a slot holds. -/
namespace DukBridge

/-- `arg_format_t` -/
inductive ArgFormat where
  | none
  | bool
  | int
  | double
  | zstring
  | lstring
  | buffer
  | jarray
  | jobject
  | ecmafunc
  | error
  | mobject
deriving DecidableEq

namespace ArgFormat

/-- The format character, as it stands in `fmt`. -/
def code : ArgFormat → UInt8
  | none => 110
  | bool => 98
  | int => 105
  | double => 100
  | zstring => 115
  | lstring => 83
  | buffer => 66
  | jarray => 97
  | jobject => 111
  | ecmafunc => 70
  | error => 69
  | mobject => 79

def all : List ArgFormat :=
  [none, bool, int, double, zstring, lstring, buffer, jarray, jobject, ecmafunc, error, mobject]

/-- The `case` a `switch` over a format character takes; `none` is its `default`. -/
def ofCode (c : UInt8) : Option ArgFormat := all.find? fun f => f.code == c

@[simp] theorem ofCode_code (f : ArgFormat) : ofCode f.code = some f := by
  cases f <;> rfl

theorem code_ne_zero (f : ArgFormat) : f.code ≠ 0 := by
  cases f <;> decide

end ArgFormat

/-- The characters are those of the header. -/
example : [ArgFormat.none, .bool, .int, .double, .zstring, .lstring, .buffer, .jarray, .jobject,
    .ecmafunc, .error, .mobject].map ArgFormat.code = ascii "nbidsSBaoFEO" := by decide

/-- A slot filled by C: a plain word, or a pointer to a string or buffer on the JavaScript heap,
with the bytes it had when the pointer was taken. -/
inductive SlotVal where
  | word (w : Word)
  | heap (addr : Word) (bytes : Bytes)
deriving DecidableEq

namespace SlotVal

def toWord : SlotVal → Word
  | word w => w
  | heap addr _ => addr

/-- The `len` bytes at the pointer. -/
def bytes (mem : Memory) (len : Nat) : SlotVal → Bytes
  | word w => mem.read w len
  | heap _ b => b.take len

end SlotVal

/-- The block allocated for the arguments of a native call, with `args` for two slots an argument
and `fmt` for one character and the NUL; `none` was never written. -/
structure NativeArgs where
  nargs : Nat
  fmt : Nat → Option UInt8
  args : Nat → Option SlotVal

/-- `res_type_t` -/
inductive ResType where
  | none
  | bool
  | int
  | double
  | string
  | object
  | buffer
  | array
  | func
  | error
  | mobject
deriving DecidableEq

/-- What a native function hands back through its out parameters. -/
structure NativeResult where
  resType : ResType
  res : Word
  resLen : Word
  freeRes : Option Word

end DukBridge
