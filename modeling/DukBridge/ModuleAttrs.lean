import DukBridge.PushArgs

/-!
# Properties and methods of modules

A host value or a native function becomes a property of the object on top of the stack.
-/
namespace DukBridge

variable {H : Type} (host : Host H)

/-- `module_attr_t` -/
structure ModuleAttr where
  name : Bytes
  fmt : ArgFormat
  val : Word
  valLen : Word

/-- The switch of `js_add_module_attr`. -/
def pushAttr (attr : ModuleAttr) : Duk H Unit :=
  match attr.fmt with
  | .none => pushNull
  | .bool => pushBoolean (intOfPtr attr.val != 0)
  | .int => pushInt (intOfPtr attr.val)
  | .double => pushNumber (voidp2double attr.val)
  | .zstring => pushString host attr.val
  | .lstring => pushLstring host attr.val attr.valLen
  | .buffer => pushNodeBuffer host attr.val attr.valLen
  | .ecmafunc => do
    let _ ← loadObject host attr.val
  | .jarray | .jobject | .error | .mobject => pushJson host attr.val attr.valLen

def jsAddModuleAttr (attr : ModuleAttr) : Duk H Unit := do
  pushAttr host attr
  putPropString host 1 attr.name

def jsRegisterVar (varName : Bytes) (valType : ArgFormat) (val valSize : Word) : Duk H Int32 := do
  pushGlobalObject
  jsAddModuleAttr host { name := varName, fmt := valType, val, valLen := valSize }
  pop
  return 0

end DukBridge
