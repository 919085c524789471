import DukBridge.GoToC

/-!
# Go types as reflect sees them

Enough of `reflect.Type` for the parameters of a registered function: kinds, the
conversion test and the assignment test `Value.Call` makes.
-/
namespace DukBridge

inductive GoType where
  | bool
  | int (k : IntKind)
  | float32
  | float64
  | complex (bits : Nat)
  | string
  | slice (elem : GoType)
  | array (len : Nat) (elem : GoType)
  | map (key elem : GoType)
  | ptr (elem : GoType)
  | interface (methods : List String)
  | struct (id : Nat)
  | func (id : Nat)
  | chan (id : Nat)
  | unsafePointer
  -- a type declaration; the name tells it from every other type
  | defined (name : String) (underlying : GoType)
deriving DecidableEq

/-- `reflect.Kind` -/
inductive Kind where
  | bool
  | int (k : IntKind)
  | float32
  | float64
  | complex
  | string
  | slice
  | array
  | map
  | ptr
  | interface
  | struct
  | func
  | chan
  | unsafePointer
deriving DecidableEq

namespace GoType

def underlying : GoType → GoType
  | defined _ u => u.underlying
  | t => t

def kind (t : GoType) : Kind :=
  match t.underlying with
  | bool => .bool
  | int k => .int k
  | float32 => .float32
  | float64 => .float64
  | complex _ => .complex
  | string => .string
  | slice _ => .slice
  | array _ _ => .array
  | map _ _ => .map
  | ptr _ => .ptr
  | interface _ => .interface
  | struct _ => .struct
  | func _ => .func
  | chan _ => .chan
  -- the underlying type of a declaration is never one itself
  | unsafePointer | defined _ _ => .unsafePointer

/-- `Type.Elem` -/
def elem (t : GoType) : GoType :=
  match t.underlying with
  | slice e | array _ e | map _ e | ptr e => e
  | u => u

/-- Predeclared and declared types have a name, type literals have none. -/
def hasName : GoType → Bool
  | bool | int _ | float32 | float64 | complex _ | string | unsafePointer | defined _ _ => true
  | _ => false

def emptyInterface : GoType := interface []

def byteSlice : GoType := slice (int .uint8)

/-- `*EcmaObject` -/
def ecmaObjectPtr : GoType := ptr (defined "EcmaObject" (struct 0))

section Conversion

-- the method sets of the program's types
variable (implements : GoType → List String → Bool)

/-- `[]byte` or `[]rune`, whose element type belongs to no package. -/
def bytesOrRunes (t : GoType) : Bool :=
  t.kind == .slice && (t.elem == int .uint8 || t.elem == int .int32)

def implementsAll (src dst : GoType) : Bool :=
  match dst.underlying with
  | interface methods => methods.isEmpty || implements src methods
  | _ => false

/-- The conversions between kinds that `convertOp` allows. -/
def kindsConvert (src dst : GoType) : Bool :=
  match src.kind, dst.kind with
  | .int _, .int _ | .int _, .float32 | .int _, .float64 | .int _, .string => true
  | .float32, .int _ | .float32, .float32 | .float32, .float64 => true
  | .float64, .int _ | .float64, .float32 | .float64, .float64 => true
  | .complex, .complex => true
  | .string, .slice => bytesOrRunes dst
  | .slice, .string => bytesOrRunes src
  | .slice, .array => src.elem == dst.elem
  | .slice, .ptr => dst.elem.kind == .array && src.elem == dst.elem.elem
  | _, _ => false

/-- `Type.ConvertibleTo` -/
def convertibleTo (src dst : GoType) : Bool :=
  kindsConvert src dst || src.underlying == dst.underlying ||
    (!src.hasName && !dst.hasName && src.kind == .ptr && dst.kind == .ptr &&
      src.elem.underlying == dst.elem.underlying) ||
    implementsAll implements src dst

/-- `Type.AssignableTo` -/
def assignableTo (src dst : GoType) : Bool :=
  src == dst || ((!src.hasName || !dst.hasName) && src.underlying == dst.underlying) ||
    implementsAll implements src dst

end Conversion

end GoType

/-- What `json.Unmarshal` stores in an `interface{}`. -/
inductive GoJson where
  | null
  | bool (b : Bool)
  | number (d : Float)
  | string (s : Bytes)
  | array (elems : List GoJson)
  | object (members : List (Bytes × GoJson))

/-- The dynamic type; a nil interface has none. -/
def GoJson.type : GoJson → Option GoType
  | .null => none
  | .bool _ => some .bool
  | .number _ => some .float64
  | .string _ => some .string
  | .array _ => some (.slice .emptyInterface)
  | .object _ => some (.map .string .emptyInterface)

/-- An argument as a `reflect.Value`. Strings and byte slices are headers over memory of C, which
is not copied. -/
inductive GoArg where
  | zero (t : GoType)
  | bool (b : Bool)
  -- the double converted to a numeric type
  | number (as : GoType) (d : Float)
  | string (s : SlotVal) (len : Nat)
  | byteSlice (s : SlotVal) (len : Nat)
  | json (v : GoJson)
  | ecmaObject (ecmaObj : Word)

/-- `Value.Type`; it panics on the zero Value, which has none. -/
def GoArg.type : GoArg → Option GoType
  | .zero t => some t
  | .bool _ => some .bool
  | .number as _ => some as
  | .string _ _ => some .string
  | .byteSlice _ _ => some .byteSlice
  | .json v => v.type
  | .ecmaObject _ => some .ecmaObjectPtr

end DukBridge
