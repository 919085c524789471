import DukBridge.ArgumentStack
import DukBridge.HostErrors
import DukBridge.IntegerFidelity

/-!
# Arguments that a function gives back

A Go value is encoded by `parseArgs`, pushed by `push_args_and_call_func`, returned by a
function, converted by `call_result_callback` and decoded by `go_resultReceived`.
-/
namespace DukBridge

open Effect

variable {H : Type} {host : Host H} {S σ : Type}

/-! ### What comes back -/

/-- The type is encoded as a C `int`. -/
def IntKind.asInt : IntKind → Bool
  | int | int8 | int16 | int32 | uint8 | uint16 => true
  | int64 | uint | uint32 | uint64 | uintptr => false

/-- The arguments that have a value of Go to come back as. -/
def GoVal.Echoable {mem : Memory} : GoVal mem S → Prop
  | .nil | .bool _ | .float32 _ | .float64 _ | .string _ => True
  | .integer n => n.defined = false ∧ n.kind.asInt = true ∧ -2 ^ 31 ≤ n.val ∧ n.val < 2 ^ 31
  | _ => False

/-- The result is the argument: nil, the same bool, the float64 that is equal to the number, or a
string with the same bytes. -/
def GoVal.Echoes {mem : Memory} : GoVal mem S → GoRes → Prop
  | .nil, res => res = .nil
  | .bool b, res => res = .bool b
  | .integer n, res => ∃ d, res = .float64 d ∧ Binary64.Is d n.val
  | .float32 f, res => res = .float64 f.toFloat
  | .float64 d, res => res = .float64 d
  | .string s, res => res = .string s.data
  | _, _ => False

/-- The result has the argument's value, where a number is a `C.double`. -/
def GoVal.EchoesValue {mem : Memory} : GoVal mem S → GoRes → Prop
  | .integer n, res => ∃ d, res = .cDouble d ∧ Binary64.Is d n.val
  | .float32 f, res => res = .cDouble f.toFloat
  | .float64 d, res => res = .cDouble d
  | arg, res => arg.Echoes res

/-- Numbers reach Go through `C.voidp2double`. -/
def GoVal.isNumber {mem : Memory} : GoVal mem S → Bool
  | .integer _ | .float32 _ | .float64 _ => true
  | _ => false

/-- A string that is longer has no length for C. -/
def GoVal.FitsCInt {mem : Memory} : GoVal mem S → Prop
  | .string s => s.data.length < 2 ^ 31
  | _ => True

/-! ### The value a function receives -/

/-- An argument that is one value whatever the state reaches the function in its place. -/
theorem argument_value {args : List CArg} {ctx : Ctx H} (fit : ArgsFit host ctx args) {i : Nat}
    {arg : CArg} (here : args[i]? = some arg) {v : JsVal}
    (value : ∀ ctx, afterArg host ctx arg = ctx.pushed v) :
    (((args.foldl (afterArg host) ctx).stack.take args.length).reverse).getD i .undefined = v := by
  obtain ⟨before, fits, next⟩ := argsFit_at fit here
  have within := (List.getElem?_eq_some_iff.mp here).1
  obtain ⟨below, belowLength, belowStack⟩ := afterArgs_stack before
  -- the arguments behind it lie above it
  have whole : args = args.take (i + 1) ++ args.drop (i + 1) := (List.take_append_drop _ _).symm
  have rest : ArgsFit host ((args.take (i + 1)).foldl (afterArg host) ctx) (args.drop (i + 1)) := by
    rw [whole, argsFit_append] at fit
    exact fit.2
  obtain ⟨above, aboveLength, aboveStack⟩ := afterArgs_stack rest
  rw [← List.foldl_append, List.take_append_drop, next, value, Ctx.pushed_stack, belowStack]
    at aboveStack
  rw [List.length_take, Nat.min_eq_left (by omega)] at belowLength
  rw [List.length_drop] at aboveLength
  have taken : (args.foldl (afterArg host) ctx).stack.take args.length = above ++ v :: below := by
    have length : (above ++ v :: below).length = args.length := by simp; omega
    have split : above ++ v :: (below ++ ctx.stack) = (above ++ v :: below) ++ ctx.stack := by simp
    rw [aboveStack, split, ← length, List.take_left]
  rw [taken, List.reverse_append, List.reverse_cons, List.append_assoc, List.getD_eq_getElem?_getD,
    List.getElem?_append_right (by simp; omega)]
  simp [belowLength]

variable (go : GoRuntime host.mem S σ)

/-- The value a function gets for an argument of these kinds. -/
def GoVal.received : GoVal host.mem S → JsVal
  | .nil => .null
  | .bool b => .boolean b
  | .integer n => .number n.number
  | .float32 f => .number f.toFloat
  | .float64 d => .number d
  | .string s => .string (host.bytesAt s.addr (sizeOfInt (cInt s.data.length)))
  | _ => .undefined

theorem afterArg_payload {arg : GoVal host.mem S} (echoable : arg.Echoable) (out : ParsedArg)
    (st : σ) (ctx : Ctx H) :
    afterArg host ctx ((parseArg go arg out).run st).1.payload = ctx.pushed arg.received := by
  cases arg with
  | nil => rfl
  | bool b => cases b <;> rfl
  | integer n =>
    obtain ⟨predeclared, asInt, _, _⟩ := echoable
    change afterArg host ctx (parseInteger go n out).payload = _
    rw [parseInteger, predeclared, GoVal.received, GoInteger.number]
    cases kind : n.kind <;> simp [kind, IntKind.asInt] at asInt <;>
      simp [IntKind.asDouble, GoInteger.slot, kind, IntKind.signed, ParsedArg.setVal,
        ParsedArg.payload, afterArg]
  | float32 f =>
    exact congrArg (fun d => ctx.pushed (.number d)) (Float.ofBits_toBits _)
  | float64 d =>
    exact congrArg (fun d => ctx.pushed (.number d)) (Float.ofBits_toBits _)
  | string s => rfl
  | _ => exact echoable.elim

/-! ### Encoder to decoder -/

/-- A function that gives back its argument number `i`. -/
def ReturnsArgument (host : Host H) (f : JsVal) (i : Nat) : Prop :=
  ∀ w free this args, ∃ w' reserved,
    host.call w free this f args = .returns (args.getD i .undefined) w' reserved

section Call

variable (plain : PlainHandles host) {args : List (GoVal host.mem S)}
  (noErrors : ∀ arg ∈ args, arg.isError = false) {st : σ} {ctx : Ctx H} {funcName : Bytes}
  {f : JsVal} {writable configurable : Bool}
  (registered : ctx.global.own (cString funcName) = some (.data f writable configurable))

include plain noErrors registered

/-- With slots for the look-up and for each argument in its turn the function is called, and
completes with the value it was given at position `i`. -/
theorem completes_echo {i : Nat} (echoes : ReturnsArgument host f i)
    (room : ctx.height + 4 ≤ ctx.reserve)
    (fit : ArgsFit host (ctx.pushed f) (payloads go args st)) {v : JsVal} {p : CArg}
    (here : (payloads go args st)[i]? = some p) (value : ∀ ctx, afterArg host ctx p = ctx.pushed v) :
    ∃ t, Completes host ((GoCall.callFunc funcName (some args)).entry host go st) ctx (.normal v) t := by
  have looked : getGlobalString host (cString funcName) ctx = .ok true (ctx.pushed f) := by
    rw [getGlobalString_data registered, if_pos room]
  have pushes := (pushAll_eq_ok plain (u := ())).mpr ⟨fit, rfl⟩
  have arguments := bind_ok pushes fun _ => pure args.length
  rw [← pushArgs_parseArgs go args noErrors st] at arguments
  obtain ⟨values, length, stack⟩ := afterArgs_stack fit
  rw [payloads_length] at length
  have reserve := afterArgs_reserve fit
  have received := argument_value fit here value
  rw [payloads_length] at received
  generalize (payloads go args st).foldl (afterArg host) (ctx.pushed f) = pushed at *
  have taken : (pushed.stack.take args.length).reverse = values.reverse := by
    rw [stack, ← length, List.take_left]
  obtain ⟨w, reserved, returned⟩ := echoes pushed.world pushed.free .undefined values.reverse
  rw [← taken, received, taken] at returned
  -- the function lies under its arguments
  have lies : pushed.stack = values.reverse.reverse ++ f :: ctx.stack := by
    rw [List.reverse_reverse, stack, Ctx.pushed_stack]
  have slot : ctx.stack.length + 1 ≤ pushed.reserve + reserved := by
    rw [Ctx.pushed_reserve] at reserve
    change ctx.height + 1 ≤ _
    omega
  have calls := calls_under_arguments lies slot (.normal returned)
  rw [List.length_reverse, length] at calls
  exact ⟨_, .callRegisteredFunc looked arguments calls⟩

/-- A call that comes back has found its slots. -/
theorem pushes_of_callFunc {result : GoRes × Option GoErr} {s' : Ctx H}
    (returned : (JSEnv.callFunc host go funcName (some args) st).1 ctx = .ok result s') :
    ctx.height + 4 ≤ ctx.reserve ∧ ArgsFit host (ctx.pushed f) (payloads go args st) := by
  obtain ⟨r, _, called, _⟩ := bind_eq_ok.mp returned
  obtain ⟨found, mid, looked, rest⟩ := bind_eq_ok.mp called
  rw [getGlobalString_data registered] at looked
  by_cases room : ctx.height + 4 ≤ ctx.reserve
  · rw [if_pos room] at looked
    cases looked
    obtain ⟨argc, pushed, arguments, _⟩ := bind_eq_ok.mp rest
    change pushArgs host ((parseArgs go args).run st).1.2.2 ((parseArgs go args).run st).1.2.1 0 0
      (ctx.pushed f) = .ok argc pushed at arguments
    rw [pushArgs_parseArgs go args noErrors st] at arguments
    obtain ⟨_, _, pushes, _⟩ := bind_eq_ok.mp arguments
    exact ⟨room, ((pushAll_eq_ok plain).mp pushes).1⟩
  · rw [if_neg room] at looked
    cases looked

end Call

/-- The bytes that come back are those of the string exactly if its length fits. -/
theorem bytesAt_eq_iff (s : GoBytes host.mem)
    (short : (host.bytesAt s.addr (sizeOfInt (cInt s.data.length))).length ≤ maxStringLen) :
    host.bytesAt s.addr (sizeOfInt (cInt s.data.length)) = s.data ↔ s.data.length < 2 ^ 31 := by
  constructor
  · intro same
    rw [same, maxStringLen] at short
    omega
  · exact bytesAt_stored s

/-- Every argument of these kinds has its value again, but for a string whose length is cut. -/
theorem echoesValue_iff_fits {arg : GoVal host.mem S} (echoable : arg.Echoable) {ctx : Ctx H}
    {res : GoRes} (short : ∀ s, arg = .string s →
      (host.bytesAt s.addr (sizeOfInt (cInt s.data.length))).length ≤ maxStringLen)
    (image : ImageOf host ctx arg.received res) : arg.EchoesValue res ↔ arg.FitsCInt := by
  -- each of these values has one image; JSON stands for structured values only
  cases arg with
  | nil =>
    cases image with
    | null => exact iff_of_true rfl trivial
    | json structured => cases structured
  | bool b =>
    cases image with
    | boolean => exact iff_of_true rfl trivial
    | json structured => cases structured
  | integer n =>
    obtain ⟨_, asInt, low, high⟩ := echoable
    cases image with
    | number =>
      have named : n.kind ≠ .uintptr := by
        intro kind
        rw [kind] at asInt
        cases asInt
      exact iff_of_true ⟨_, rfl, (n.number_is (by omega) named).mpr fun _ => ⟨low, high⟩⟩ trivial
    | json structured => cases structured
  | float32 f | float64 d =>
    cases image with
    | number => exact iff_of_true rfl trivial
    | json structured => cases structured
  | string s =>
    cases image with
    | string =>
      change GoRes.string _ = GoRes.string s.data ↔ s.data.length < 2 ^ 31
      rw [GoRes.string.injEq]
      exact bytesAt_eq_iff s (short s rfl)
    | json structured => cases structured
  | _ => exact echoable.elim

/-- No number is itself again: what comes back has the type `C.double`. -/
theorem echoes_iff_fits {arg : GoVal host.mem S} (echoable : arg.Echoable) {ctx : Ctx H}
    {res : GoRes} (short : ∀ s, arg = .string s →
      (host.bytesAt s.addr (sizeOfInt (cInt s.data.length))).length ≤ maxStringLen)
    (image : ImageOf host ctx arg.received res) :
    arg.Echoes res ↔ arg.isNumber = false ∧ arg.FitsCInt := by
  have value := echoesValue_iff_fits echoable short image
  cases arg with
  | nil | bool _ | string _ =>
    rw [← value]
    exact (and_iff_right rfl).symm
  | integer n =>
    cases image with
    | number => exact iff_of_false (fun ⟨_, same, _⟩ => by cases same) (fun both => by cases both.1)
    | json structured => cases structured
  | float32 f | float64 d =>
    cases image with
    | number => exact iff_of_false (fun same => by cases same) (fun both => by cases both.1)
    | json structured => cases structured
  | _ => exact echoable.elim

section Echo

variable (plain : PlainHandles host) (args : List (GoVal host.mem S))
  (noErrors : ∀ arg ∈ args, arg.isError = false) (st : σ) (ctx : Ctx H) (funcName : Bytes)
  (f : JsVal) (writable configurable : Bool)
  (registered : ctx.global.own (cString funcName) = some (.data f writable configurable)) (i : Nat)
  (arg : GoVal host.mem S) (here : args[i]? = some arg) (echoable : arg.Echoable)
  (echoes : ReturnsArgument host f i)

include plain noErrors registered here echoable echoes

/-- What the image of the argument decides of a result holds of the call's result under the same
condition, provided the look-up and each argument in its turn find what their pushes need. -/
theorem callFunc_echo_iff {Holds : GoRes → Prop} {cond : Prop}
    (decides : ∀ {t : Ctx H} {res : GoRes}, (∀ s, arg = .string s →
      (host.bytesAt s.addr (sizeOfInt (cInt s.data.length))).length ≤ maxStringLen) →
      ImageOf host t arg.received res → (Holds res ↔ cond)) :
    (∃ res s', (JSEnv.callFunc host go funcName (some args) st).1 ctx = .ok (res, none) s' ∧
      Holds res) ↔
    ctx.height + 4 ≤ ctx.reserve ∧ ArgsFit host (ctx.pushed f) (payloads go args st) ∧ cond := by
  obtain ⟨st', parsed⟩ := parsedArgs_get go here (ParseLoop.start args.length).out st
  generalize ((parsedArgs go args _ st).take i).getLastD _ = out at parsed
  have payload : (payloads go args st)[i]? = some ((parseArg go arg out).run st').1.payload := by
    rw [payloads, List.getElem?_map, outputs, parsed]
    rfl
  have primitive : ∀ t : Ctx H, ¬ (t.ErrorInstance arg.received ∧
      ¬ t.FunctionOrBuffer arg.received) := by
    intro t both
    cases arg <;> exact both.1
  have completes := fun room fit =>
    completes_echo go plain noErrors registered echoes room fit payload
      (afterArg_payload go echoable out st')
  -- once it is called, the function gets the value and gives it back
  have result : ∀ {res err s'}, ctx.height + 4 ≤ ctx.reserve →
      ArgsFit host (ctx.pushed f) (payloads go args st) →
      (JSEnv.callFunc host go funcName (some args) st).1 ctx = .ok (res, err) s' →
      err = none ∧ (Holds res ↔ cond) := by
    intro res err s' room fit returned
    obtain ⟨t, completed⟩ := completes room fit
    obtain ⟨image, noError⟩ := image_of_normal go completed (primitive t) returned
    refine ⟨noError, decides ?_ image⟩
    rintro s rfl
    exact (argsFit_at fit payload).2.1.2
  constructor
  · rintro ⟨res, s', returned, holds⟩
    obtain ⟨room, fit⟩ := pushes_of_callFunc go plain noErrors registered returned
    exact ⟨room, fit, (result room fit returned).2.mp holds⟩
  · rintro ⟨room, fit, condition⟩
    obtain ⟨t, completed⟩ := completes room fit
    have deliverable : Deliverable host t := by
      rw [Deliverable, (completes_top completed).1]
      cases arg <;> trivial
    obtain ⟨⟨res, err⟩, s', returned⟩ := (run_returns_iff go plain completed).mpr deliverable
    obtain ⟨rfl, same⟩ := result room fit returned
    exact ⟨res, s', returned, same.mpr condition⟩

/-- For every list of arguments without an error value, a call of a function that gives back its
argument `i` gives Go the value of that argument, a number as a `C.double`, exactly if the look-up
and each argument in its turn find what their pushes need, and the argument is no string of 2^31
bytes or more. -/
theorem echo_value_iff :
    (∃ res s', (JSEnv.callFunc host go funcName (some args) st).1 ctx = .ok (res, none) s' ∧
      arg.EchoesValue res) ↔
    ctx.height + 4 ≤ ctx.reserve ∧ ArgsFit host (ctx.pushed f) (payloads go args st) ∧
      arg.FitsCInt :=
  callFunc_echo_iff go plain args noErrors st ctx funcName f writable configurable registered i arg
    here echoable echoes (echoesValue_iff_fits echoable)

/-- The argument itself comes back under the same condition unless it is a number: in place of a
float64 `go_resultReceived` stores a `C.double`. -/
theorem echo_iff :
    (∃ res s', (JSEnv.callFunc host go funcName (some args) st).1 ctx = .ok (res, none) s' ∧
      arg.Echoes res) ↔
    ctx.height + 4 ≤ ctx.reserve ∧ ArgsFit host (ctx.pushed f) (payloads go args st) ∧
      arg.isNumber = false ∧ arg.FitsCInt :=
  callFunc_echo_iff go plain args noErrors st ctx funcName f writable configurable registered i arg
    here echoable echoes (echoes_iff_fits echoable)

end Echo

/-! ### A float -/

/-- A host whose functions give back an argument. -/
def echoHost (i : Nat) : Host Unit :=
  { stillHost with call := fun w _ _ _ args => .returns (args.getD i .undefined) w 0 }

theorem echoHost_plain (i : Nat) : PlainHandles (echoHost i) :=
  ⟨fun _ _ _ => rfl, fun _ _ _ _ => rfl⟩

theorem echoHost_returns (i : Nat) (f : JsVal) : ReturnsArgument (echoHost i) f i :=
  fun w _ _ _ => ⟨w, 0, rfl⟩

/-- A float comes back as a `C.double`, which is no float64. -/
theorem float_not_echoed : ∃ s' : Ctx Unit,
    PlainHandles (echoHost 0) ∧ ReturnsArgument (echoHost 0) (.object 1) 0 ∧
    (JSEnv.callFunc (echoHost 0) (bareRuntime _) (ascii "f") (some [.float64 2.5]) ()).1
      oneFunction = .ok (.cDouble 2.5, none) s' ∧
    ¬ (GoVal.float64 2.5 : GoVal (echoHost 0).mem Unit).Echoes (.cDouble 2.5) := by
  obtain ⟨res, s', returned, same⟩ := (echo_value_iff (bareRuntime _) (echoHost_plain 0)
    [.float64 2.5] (by simp [GoVal.isError]) () oneFunction (ascii "f") (.object 1) true true rfl 0
    (.float64 2.5) rfl trivial (echoHost_returns 0 _)).mpr
      ⟨by decide, (argsFit_scalars (by decide) (by decide)).mpr (by decide), trivial⟩
  have value : res = .cDouble 2.5 := same
  rw [value] at returned
  exact ⟨s', echoHost_plain 0, echoHost_returns 0 _, returned, fun echoed => by cases echoed⟩

theorem echo_iff_two : ∃ res s',
    (JSEnv.callFunc (echoHost 1) (bareRuntime _) (ascii "f") (some [.nil, .bool true]) ()).1
      oneFunction = .ok (res, none) s' ∧
    (GoVal.bool true : GoVal (echoHost 1).mem Unit).Echoes res :=
  (echo_iff (bareRuntime _) (echoHost_plain 1) [.nil, .bool true] (by simp [GoVal.isError]) ()
    oneFunction (ascii "f") (.object 1) true true rfl 1 (.bool true) rfl trivial
    (echoHost_returns 1 _)).mpr
      ⟨by decide, (argsFit_scalars (by decide) (by decide)).mpr (by decide), rfl, trivial⟩

end DukBridge
