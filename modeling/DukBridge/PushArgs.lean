import DukBridge.HandleTable

/-!
# The loop of push_args_and_call_func

Each round reads one format character, takes one or two slots from `argv` and pushes
one value.
-/
namespace DukBridge

/-- What one round takes out of `argv`, after the casts. -/
inductive CArg where
  | none
  | bool (d : Int32)
  | int (d : Int32)
  | double (d : Float)
  | zstring (s : Word)
  | lstring (l s : Word)
  | error (l s : Word)
  | buffer (l s : Word)
  | ecmafunc (funcIndex : Word)
  | mobject (objUdd createEcmascriptInstance : Word)
  | json (l s : Word)
deriving DecidableEq

/-- The `switch (*fmt++)`: what is read at index `i`, and the index after it. -/
def readArg (c : UInt8) (argv : List Word) (i : Nat) : CArg × Nat :=
  let slot := fun k => argv.getD k 0
  match ArgFormat.ofCode c with
  | some .none => (.none, i + 1)
  | some .bool => (.bool (intOfPtr (slot i)), i + 1)
  | some .int => (.int (intOfPtr (slot i)), i + 1)
  | some .double => (.double (voidp2double (slot i)), i + 1)
  | some .zstring => (.zstring (slot i), i + 1)
  | some .lstring => (.lstring (slot i) (slot (i + 1)), i + 2)
  | some .error => (.error (slot i) (slot (i + 1)), i + 2)
  | some .buffer => (.buffer (slot i) (slot (i + 1)), i + 2)
  | some .ecmafunc => (.ecmafunc (slot i), i + 1)
  | some .mobject => (.mobject (slot i) (slot (i + 1)), i + 2)
  | some .jarray | some .jobject | none => (.json (slot i) (slot (i + 1)), i + 2)

variable {H : Type} (host : Host H)

/-- `"%.*s"` with the precision `(int)l`: up to a NUL, and a negative precision is none. -/
def formatString (l s : Word) : Bytes :=
  let precision := intOfPtr l
  host.mem.zstring s (if 0 ≤ precision then precision.toInt.toNat else maxStringLen + 1)

/-- `duk_push_lstring`, `duk_to_buffer`, `duk_push_buffer_object`, `duk_remove(ctx, -2)`. -/
def pushNodeBuffer (addr len : Word) : Duk H Unit := do
  pushLstring host addr len
  toBuffer
  pushBufferObject len
  removeAt 1

def pushJson (addr len : Word) : Duk H Unit := do
  pushLstring host addr len
  jsonDecode host

/-- A callback that creates an instance pushes it; otherwise undefined is pushed. -/
def pushInstance (createEcmascriptInstance udd : Word) : Duk H Unit := do
  if createEcmascriptInstance = 0 then pushUndefined
  else
    let ctx ← get
    match ← (host.createInstance ctx.world ctx.free createEcmascriptInstance udd).run with
    | some v => push v
    | none => pushUndefined

/-- The pushes of one round. -/
def pushArg : CArg → Duk H Unit
  | .none => pushNull
  | .bool d => pushBoolean (d != 0)
  | .int d => pushInt d
  | .double d => pushNumber d
  | .zstring s => pushString host s
  | .lstring l s => pushLstring host s l
  | .error l s => raise (.error (formatString host l s))
  | .buffer l s => pushNodeBuffer host s l
  | .ecmafunc funcIndex => do
    let _ ← loadObject host funcIndex
  | .mobject objUdd createEcmascriptInstance => pushInstance host createEcmascriptInstance objUdd
  | .json l s => pushJson host s l

/-- `while (*fmt)`; the result is `argc`. -/
def pushArgs (argv : List Word) : Bytes → Nat → Nat → Duk H Nat
  | [], _, argc => return argc
  | c :: fmt, i, argc =>
    if c = 0 then return argc
    else do
      pushArg host (readArg c argv i).1
      pushArgs argv fmt (readArg c argv i).2 (argc + 1)

end DukBridge
