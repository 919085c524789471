import DukBridge.HostErrors
import DukBridge.JavaArgs

/-!
# What a Java program gets back

The native methods of `DukBridge` leave it to `resultReceived` to make a Java object of a result.
It is called before the status of the call is known.
-/
namespace DukBridge

open Effect

variable {H : Type} (host : Host H)

/-! ### resultReceived -/

/-- The objects that `resultReceived` makes. -/
inductive JavaResult where
  | boolean (b : Bool)
  | integer (n : Int32)
  | double (d : Float)
  | bytes (data : Bytes)
deriving DecidableEq

/-- Which objects the JVM has memory for. There is no array of a negative size. -/
structure Jvm where
  newObject : JavaResult → Bool
  newByteArray : Int32 → Bool
  nonnegative : ∀ n, newByteArray n = true → 0 ≤ n

def Jvm.setObject (jvm : Jvm) (obj : JavaResult) : Option JavaResult :=
  if jvm.newObject obj then some obj else none

/-- What `*(cb->res)` holds afterwards; it is NULL before. -/
def resultReceived (jvm : Jvm) (mem : Memory) (d : Delivered) : Option JavaResult :=
  match d.resType with
  | .none => none
  | .bool => jvm.setObject (.boolean (d.res.toWord.toUInt8 != 0))
  | .int => jvm.setObject (.integer (intOfPtr d.res.toWord))
  | .double => jvm.setObject (.double (voidp2double d.res.toWord))
  | .string | .object | .buffer | .array =>
    -- all of the non-primitive data is converted to byte[]
    let resLen := cInt (d.len.getD 0)
    if jvm.newByteArray resLen then some (.bytes (d.res.bytes mem resLen.toNatClampNeg)) else none
  | .func | .error | .mobject => none

/-! ### The native methods -/

namespace JavaBridge

def jsEval (jvm : Jvm) (jsCode : JavaBytes host.mem) : Duk H (Option JavaResult) := do
  let (ret, delivered) ← DukBridge.jsEval host (scriptBytes host jsCode.toGoBytes) true
  let res := delivered.bind (resultReceived jvm host.mem)
  return if ret = 0 then res else none

def jsEvalFile (jvm : Jvm) (scriptFile : Bytes) : Duk H (Option JavaResult) := do
  let (ret, delivered) ← DukBridge.jsEvalFile host (cString scriptFile) true
  let res := delivered.bind (resultReceived jvm host.mem)
  return if ret = 0 then res else none

/-- The status is assigned and not looked at; an argument without its bytes ends in the JVM. -/
def doCallFunc (jvm : Jvm) (strarg : Bytes) (args : List (ArgFormat × JavaRes host.mem))
    (block : List Word)
    (callFunc : Bytes → Bool → Option Bytes → List Word → Duk H Returned) :
    Duk H (Option JavaResult) :=
  match javaCallArgs args block with
  | none => throw .noReturn
  | some (fmt, argv) => do
    let (_ret, delivered) ← callFunc (cString strarg) true fmt argv
    return delivered.bind (resultReceived jvm host.mem)

def jsCallFunc (jvm : Jvm) (funcName : Bytes) (args : List (ArgFormat × JavaRes host.mem))
    (block : List Word) : Duk H (Option JavaResult) :=
  doCallFunc host jvm funcName args block (jsCallRegisteredFunc host)

def jsCallFileFunc (jvm : Jvm) (scriptFile : Bytes) (args : List (ArgFormat × JavaRes host.mem))
    (block : List Word) : Duk H (Option JavaResult) :=
  doCallFunc host jvm scriptFile args block (DukBridge.jsCallFileFunc host)

end JavaBridge

/-- A call of a method of the class `DukBridge` that runs JavaScript. -/
inductive JavaCall (mem : Memory) where
  | eval (jsCode : JavaBytes mem)
  | evalFile (scriptFile : Bytes)
  | callFunc (funcName : Bytes) (args : List (JavaObj mem)) (block : List Word)
  | callFileFunc (scriptFile : Bytes) (args : List (JavaObj mem)) (block : List Word)

namespace JavaCall

/-- An exception of `normalizeArgs` leaves the method before the native one is called. -/
def run (jvm : Jvm) : JavaCall host.mem → Except String (Duk H (Option JavaResult))
  | eval jsCode => .ok (JavaBridge.jsEval host jvm jsCode)
  | evalFile scriptFile => .ok (JavaBridge.jsEvalFile host jvm scriptFile)
  | callFunc funcName args block => do
    return JavaBridge.jsCallFunc host jvm funcName (← normalizeArgs args) block
  | callFileFunc scriptFile args block => do
    return JavaBridge.jsCallFileFunc host jvm scriptFile (← normalizeArgs args) block

/-- The function of the C bridge behind it, with what it is called with. -/
def entry : JavaCall host.mem → Option EntryPoint
  | eval jsCode => some (.eval (scriptBytes host jsCode.toGoBytes))
  | evalFile scriptFile => some (.evalFile (cString scriptFile))
  | callFunc funcName args block => do
    let (fmt, argv) ← javaCallArgs (← (normalizeArgs args).toOption) block
    return .callRegisteredFunc (cString funcName) fmt argv
  | callFileFunc scriptFile args block => do
    let (fmt, argv) ← javaCallArgs (← (normalizeArgs args).toOption) block
    return .callFileFunc (cString scriptFile) fmt argv

/-- The methods that return null unless the status is 0. -/
def checksStatus {mem : Memory} : JavaCall mem → Bool
  | eval _ | evalFile _ => true
  | callFunc _ _ _ | callFileFunc _ _ _ => false

end JavaCall

variable {host}

/-- Whatever the method, it runs its entry point and makes a Java object of the result. -/
theorem JavaCall.run_eq {jvm : Jvm} {call : JavaCall host.mem} {m : Duk H (Option JavaResult)}
    {entry : EntryPoint} (accepted : call.run host jvm = .ok m) (enters : call.entry host = some entry) :
    m = do
      let (ret, delivered) ← entry.run host true
      return if call.checksStatus = true ∧ ret ≠ 0 then none
        else delivered.bind (resultReceived jvm host.mem) := by
  cases call with
  | eval jsCode =>
    cases accepted
    cases enters
    simp [JavaBridge.jsEval, checksStatus, EntryPoint.run]
  | evalFile scriptFile =>
    cases accepted
    cases enters
    simp [JavaBridge.jsEvalFile, checksStatus, EntryPoint.run]
  | callFunc funcName args block | callFileFunc scriptFile args block =>
    cases normal : normalizeArgs args with
    | error text => simp [run, normal, bind, Except.bind] at accepted
    | ok normalized =>
      cases packed : javaCallArgs normalized block with
      | none => simp [JavaCall.entry, normal, packed, Except.toOption] at enters
      | some fmtArgv =>
        simp [run, normal, bind, Except.bind, pure, Except.pure] at accepted
        simp [JavaCall.entry, normal, packed, Except.toOption] at enters
        rw [← accepted, ← enters]
        simp [JavaBridge.jsCallFunc, JavaBridge.jsCallFileFunc, JavaBridge.doCallFunc, packed,
          checksStatus, EntryPoint.run]

/-! ### What is delivered -/

/-- The types that come with a length have it, and the flag of a boolean is 0 or 1. -/
def Delivered.WellFormed (d : Delivered) : Prop :=
  match d.resType with
  | .bool => d.res = .word 0 ∨ d.res = .word 1
  | .string | .object | .buffer | .array =>
    match d.res with
    | .heap _ data => d.len = some data.length
    | .word _ => d.len = some 0
  | .none | .double | .func | .error => True
  | .int | .mobject => False

theorem deliverJson_wellFormed {array : Bool} {ctx ctx' : Ctx H} {d : Delivered}
    (delivered : deliverJson host array ctx = .ok d ctx') : d.WellFormed := by
  obtain ⟨_, mid, _, rest⟩ := bind_eq_ok.mp delivered
  rw [bind_run, get_run] at rest
  cases text : mid.get 0 <;> simp only [text] at rest <;> cases rest <;> cases array <;>
    simp [Delivered.WellFormed, Delivered.bytes]

theorem callResultCallback_wellFormed {ctx ctx' : Ctx H} {d : Delivered}
    (converted : callResultCallback host ctx = .ok d ctx') : d.WellFormed := by
  rw [callResultCallback, bind_run, get_run] at converted
  cases v : ctx.get 0 with
  | undefined | null | number x | string s | buffer data =>
    simp only [v] at converted
    cases converted
    simp [Delivered.WellFormed, Delivered.bytes]
  | boolean b =>
    simp only [v] at converted
    cases converted
    cases b <;> simp [Delivered.WellFormed]
  | pointer p | lightfunc f =>
    simp only [v] at converted
    exact deliverJson_wellFormed converted
  | object id =>
    simp only [v] at converted
    -- in the order of the tests: a function, a buffer, an error, and JSON for the rest
    by_cases isFunction : (ctx.world.objects id).shape.ecmascriptFunction = true
    · simp only [isFunction, if_true] at converted
      obtain ⟨_, _, _, rest⟩ := bind_eq_ok.mp converted
      obtain ⟨_, _, _, rest⟩ := bind_eq_ok.mp rest
      obtain ⟨_, _, _, last⟩ := bind_eq_ok.mp rest
      cases last
      trivial
    · simp only [Bool.eq_false_iff.mpr isFunction, Bool.false_eq_true, if_false] at converted
      cases isBuffer : (ctx.world.objects id).shape.bufferData with
      | some data =>
        simp only [isBuffer] at converted
        cases converted
        simp [Delivered.WellFormed, Delivered.bytes]
      | none =>
        simp only [isBuffer] at converted
        by_cases isError : (ctx.world.objects id).shape.error = true
        · simp only [isError, if_true] at converted
          obtain ⟨_, _, _, rest⟩ := bind_eq_ok.mp converted
          cases rest
          trivial
        · simp only [isError] at converted
          exact deliverJson_wellFormed converted

/-! ### Which results are null -/

/-- The JVM cannot make the object. -/
def Jvm.Refuses (jvm : Jvm) : GoRes → Prop
  | .bool b => jvm.newObject (.boolean b) = false
  | .float64 d | .cDouble d => jvm.newObject (.double d) = false
  | .string s | .bytes s => jvm.newByteArray (cInt s.length) = false
  | .nil | .ecmaObject _ | .error _ => False

/-- The results that `resultReceived` passes over. -/
def GoRes.passedOver : GoRes → Bool
  | .nil | .ecmaObject _ | .error _ => true
  | .bool _ | .float64 _ | .cDouble _ | .string _ | .bytes _ => false

theorem setObject_eq_none {jvm : Jvm} {obj : JavaResult} :
    jvm.setObject obj = none ↔ jvm.newObject obj = false := by
  simp [Jvm.setObject]

theorem resultReceived_eq_none {jvm : Jvm} {mem : Memory} {d : Delivered}
    (wellFormed : d.WellFormed) : resultReceived jvm mem d = none ↔
      (goResultReceived mem d).passedOver = true ∨ jvm.Refuses (goResultReceived mem d) := by
  obtain ⟨resType, res, len⟩ := d
  cases resType with
  | none | func | error => simp [resultReceived, goResultReceived, GoRes.passedOver]
  | int | mobject => exact wellFormed.elim
  | double =>
    simp [resultReceived, goResultReceived, GoRes.passedOver, Jvm.Refuses, setObject_eq_none]
  | bool =>
    simp only [resultReceived, goResultReceived, GoRes.passedOver, Jvm.Refuses, setObject_eq_none]
    -- the low byte of the flag is the flag
    rcases wellFormed with flag | flag <;> rw [show res = _ from flag] <;> simp [SlotVal.toWord]
  | string | object | buffer | array =>
    have length : (res.bytes mem (len.getD 0)).length = len.getD 0 := by
      cases res with
      | word w => simp [SlotVal.bytes]
      | heap addr data =>
        have whole : len = some data.length := wellFormed
        simp [SlotVal.bytes, whole]
    simp [resultReceived, goResultReceived, GoRes.passedOver, Jvm.Refuses, length]

/-! ### Throws -/

/-- The values that are null in Java: undefined, null, ECMAScript functions, and errors that are
neither functions nor buffers. -/
def Ctx.NullInJava (ctx : Ctx H) (v : JsVal) : Prop :=
  v.NilLike ∨ ctx.EcmascriptFunction v ∨ (ctx.ErrorInstance v ∧ ¬ ctx.FunctionOrBuffer v)

/-- A value has one image. -/
theorem ImageOf.unique {ctx : Ctx H} {v : JsVal} {res other : GoRes}
    (image : ImageOf host ctx v res) (image' : ImageOf host ctx v other) : res = other := by
  cases image with
  | json structured noError noBytes encoded =>
    cases image' with
    | json _ _ _ encoded' =>
      rw [encoded] at encoded'
      cases encoded'
      rfl
    | function isFunction => exact absurd (.inl isFunction) noBytes
    | bufferObject _ isBuffer => exact absurd (.inr (by simp [isBuffer])) noBytes
    | _ => cases structured
  | function isFunction saved =>
    cases image' with
    | function _ saved' =>
      rw [saved] at saved'
      cases saved'
      rfl
    | bufferObject noFunction => simp [isFunction] at noFunction
    | json _ _ noBytes => exact absurd (.inl isFunction) noBytes
  | bufferObject noFunction isBuffer =>
    cases image' with
    | function isFunction => simp [isFunction] at noFunction
    | bufferObject _ isBuffer' =>
      rw [isBuffer] at isBuffer'
      cases isBuffer'
      rfl
    | json _ _ noBytes => exact absurd (.inr (by simp [isBuffer])) noBytes
  | _ =>
    cases image' with
    | json structured => cases structured
    | _ => rfl

theorem passedOver_of_image {ctx : Ctx H} {v : JsVal} {res : GoRes}
    (other : ¬ (ctx.ErrorInstance v ∧ ¬ ctx.FunctionOrBuffer v))
    (image : ImageOf host ctx v res) : res.passedOver = true ↔ ctx.NullInJava v := by
  rw [Ctx.NullInJava, or_iff_left other]
  cases image with
  | function isFunction => simp [GoRes.passedOver, Ctx.EcmascriptFunction, isFunction]
  | bufferObject noFunction =>
    simp [GoRes.passedOver, JsVal.NilLike, Ctx.EcmascriptFunction, noFunction]
  | @json v _ _ _ structured _ noBytes _ =>
    cases v with
    | object id =>
      simp only [Ctx.FunctionOrBuffer, not_or, Bool.not_eq_true] at noBytes
      simp [GoRes.passedOver, JsVal.NilLike, Ctx.EcmascriptFunction, noBytes.1]
    | pointer p | lightfunc f => simp [GoRes.passedOver, JsVal.NilLike, Ctx.EcmascriptFunction]
    | _ => cases structured
  | _ => simp [GoRes.passedOver, JsVal.NilLike, Ctx.EcmascriptFunction]

theorem received_none_iff (jvm : Jvm) {ctx ctx' : Ctx H} {d : Delivered} (inside : 1 ≤ ctx.height)
    (converted : callResultCallback host ctx = .ok d ctx') :
    resultReceived jvm host.mem d = none ↔ ctx.NullInJava (ctx.get 0) ∨
      ∃ res, ImageOf host ctx (ctx.get 0) res ∧ jvm.Refuses res := by
  rw [resultReceived_eq_none (callResultCallback_wellFormed converted)]
  rcases callResultCallback_received inside converted with ⟨isError, noBytes, text, received⟩ |
    ⟨other, image⟩
  · rw [received]
    exact iff_of_true (.inl rfl) (.inl (.inr (.inr ⟨isError, noBytes⟩)))
  · rw [passedOver_of_image other image]
    apply or_congr_right
    constructor
    · exact fun refuses => ⟨_, image, refuses⟩
    · rintro ⟨res, image', refuses⟩
      rwa [image.unique image']

/-- When its script or function throws, a Java method returns null exactly if it checks the status,
as `eval` and `evalFile` do, or the thrown value is one that is null in Java anyway, or the JVM
cannot make the object for it. -/
theorem throw_is_null_iff (jvm : Jvm) (call : JavaCall host.mem) (m : Duk H (Option JavaResult))
    (accepted : call.run host jvm = .ok m) (entry : EntryPoint)
    (enters : call.entry host = some entry) (e : JsVal) (s t s' : Ctx H)
    (throws : Completes host entry s (.abrupt e) t) (res : Option JavaResult)
    (returned : m s = .ok res s') :
    res = none ↔ call.checksStatus = true ∨ t.NullInJava e ∨
      ∃ image, ImageOf host t e image ∧ jvm.Refuses image := by
  obtain ⟨top, inside⟩ := completes_top throws
  rw [JavaCall.run_eq accepted enters] at returned
  obtain ⟨outcome, mid, ran, last⟩ := bind_eq_ok.mp returned
  obtain ⟨d, t', converted, rfl, rfl⟩ := entryRun_of_completes throws ran
  have failed := entry.failure_ne_zero
  simp only [Completion.isAbrupt, if_true] at last
  injection last with same
  rw [← same]
  have received := received_none_iff jvm inside converted
  rw [show t.get 0 = e from top] at received
  by_cases checks : call.checksStatus = true
  · simp [checks, failed]
  · simpa [checks] using received

/-! ### A function that throws a string -/

/-- A JVM with memory for everything. -/
def roomyJvm : Jvm := ⟨fun _ => true, fun n => decide (0 ≤ n), fun _ => of_decide_eq_true⟩

/-- `throw "no"` comes back to Java as the bytes of a result, where `eval` returns null. -/
theorem thrown_string_returned :
    (JavaCall.callFunc (ascii "f") [] []).run throwingHost roomyJvm =
      .ok (JavaBridge.jsCallFunc throwingHost roomyJvm (ascii "f") [] []) ∧
    (∃ t, Completes throwingHost (.callRegisteredFunc (ascii "f") none []) oneFunction
      (.abrupt (.string (ascii "no"))) t) ∧
    (∃ s', JavaBridge.jsCallFunc throwingHost roomyJvm (ascii "f") [] [] oneFunction =
      .ok (some (.bytes (ascii "no"))) s') ∧
    ∃ script s', JavaBridge.jsEval throwingHost roomyJvm script oneFunction = .ok none s' := by
  refine ⟨rfl, ?_, ⟨_, rfl⟩,
    ⟨⟨8, [0], rfl, by decide, fun _ => by decide⟩, by decide⟩, _, rfl⟩
  exact ⟨_, .callRegisteredFunc rfl rfl (.ended (by decide) (by decide) (.abrupt rfl))⟩

/-- A host whose functions throw nothing in particular. -/
def undefinedHost : Host Unit :=
  { stillHost with call := fun w _ _ _ _ => .throws .undefined w 0 }

theorem throw_is_null_undefined : ∃ res s',
    JavaBridge.jsCallFunc undefinedHost roomyJvm (ascii "f") [] [] oneFunction = .ok res s' ∧
    res = none := by
  refine ⟨_, _, rfl, ?_⟩
  have throws : Completes undefinedHost (.callRegisteredFunc (ascii "f") none []) oneFunction
      (.abrupt .undefined) _ :=
    .callRegisteredFunc rfl rfl (.ended (by decide) (by decide) (.abrupt rfl))
  exact (throw_is_null_iff roomyJvm (.callFunc (ascii "f") [] []) _ rfl _ rfl .undefined _ _ _
    throws _ rfl).mpr (.inr (.inl (.inl trivial)))

end DukBridge
