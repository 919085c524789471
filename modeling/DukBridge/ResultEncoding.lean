import DukBridge.ArgumentLayout
import DukBridge.GoInvocation
import DukBridge.IntegerFidelity

/-!
# What the result type of a Go function decides

`callGoFunc` switches on the dynamic type of a result and reads it through a Value of the
declared type. The outcome is compared between two declarations of one value, and with
what `parseArg` makes of the same value as an argument.
-/
namespace DukBridge

open Effect

variable {mem : Memory} {S σ : Type}

/-- A call that reaches `f`, which returns `v` and no error. -/
def GoFunc.Gives (f : GoFunc mem S) (ft : Option NativeArgs) (declaredInterface : Bool)
    (v : GoVal mem S) : Prop :=
  ∃ argv, f.invocation ft = .ok argv ∧ f.Assignable argv ∧
    (f.call argv = [(declaredInterface, v)] ∨
      ∃ errDeclared, f.call argv = [(declaredInterface, v), (errDeclared, .nil)])

theorem callGoFunc_gives (go : GoRuntime mem S σ) {f : GoFunc mem S} {ft : Option NativeArgs}
    {declaredInterface : Bool} {v : GoVal mem S} (gives : f.Gives ft declaredInterface v) :
    callGoFunc go f ft = encodeResult go declaredInterface v := by
  obtain ⟨argv, invoked, assignable, called⟩ := gives
  rw [callGoFunc_eq, invoked, GoFunc.proceed, GoFunc.callWith, if_pos (accepts_iff.mpr assignable)]
  rcases called with called | ⟨errDeclared, called⟩
  · rw [called, encodeResults]
  · rw [called, encodeResults]

/-! ### Two declarations -/

/-- Reading the value does not need the kind of its own type: it is in no case of the switch that
reads a number, and no pointer to a struct. -/
def GoVal.ReadsBoxed : GoVal mem S → Prop
  | .integer n => n.defined = true ∨ n.kind = .uintptr
  | .float32 _ | .float64 _ | .structPtr _ => False
  | _ => True

theorem encodeInteger_boxed {n : GoInteger} {out : NativeResult}
    (encoded : encodeInteger true n = some out) : n.defined = true ∨ n.kind = .uintptr := by
  cases defined : n.defined with
  | true => exact .inl rfl
  | false =>
    rw [encodeInteger, if_neg (by simp [defined])] at encoded
    right
    cases kind : n.kind with
    | uintptr => rfl
    | _ =>
      rw [kind] at encoded
      cases encoded

theorem encodeInteger_unread {n : GoInteger} (unread : n.defined = true ∨ n.kind = .uintptr)
    (declaredInterface : Bool) : encodeInteger declaredInterface n = some .none := by
  rw [encodeInteger]
  rcases unread with defined | kind
  · rw [if_pos defined]
  · cases defined : n.defined with
    | true => rfl
    | false => rw [if_neg (by simp), kind]

theorem encodeResult_boxed (go : GoRuntime mem S σ) (v : GoVal mem S) (st : σ) :
    (∃ out st', (encodeResult go false v).run st = (some out, st') ∧
      (encodeResult go true v).run st = (some out, st')) ↔ v.ReadsBoxed := by
  cases v with
  | integer n =>
    constructor
    · rintro ⟨out, st', _, boxed⟩
      exact encodeInteger_boxed (congrArg Prod.fst boxed)
    · intro unread
      refine ⟨.none, st, ?_, ?_⟩
      · exact congrArg (·, st) (encodeInteger_unread unread false)
      · exact congrArg (·, st) (encodeInteger_unread unread true)
  | float32 f | float64 d =>
    -- Float panics on a Value of interface kind
    refine iff_of_false ?_ id
    rintro ⟨out, st', _, boxed⟩
    cases boxed
  | structPtr s =>
    refine iff_of_false ?_ id
    rintro ⟨out, st', unboxed, boxed⟩
    cases boxed
    -- an instance with a key on one side, nothing on the other
    cases congrArg (fun encoded => encoded.1.map NativeResult.resType) unboxed
  | nil | bool | string | bytes | slice | map | ecmaObject | error | other =>
    exact iff_of_true ⟨_, st, rfl, rfl⟩ trivial

/-- Two calls that give the same value, one declared with the value's own type and one with an
interface type, are encoded alike exactly when the value is read by its dynamic type alone. -/
theorem boxed_result_agrees (go : GoRuntime mem S σ) (v : GoVal mem S) (f g : GoFunc mem S)
    (ft gt : Option NativeArgs) (st : σ) (unboxed : f.Gives ft false v) (boxed : g.Gives gt true v) :
    (∃ out st', (callGoFunc go f ft).run st = (some out, st') ∧
      (callGoFunc go g gt).run st = (some out, st')) ↔ v.ReadsBoxed := by
  rw [callGoFunc_gives go unboxed, callGoFunc_gives go boxed]
  exact encodeResult_boxed go v st

/-- A function without parameters. -/
def returning (declaredInterface : Bool) (v : GoVal mem S) : GoFunc mem S where
  params := []
  variadic := false
  call _ := [(declaredInterface, v)]
  implements _ _ := false
  unmarshal _ := none

theorem returning_gives (declaredInterface : Bool) (v : GoVal mem S) :
    (returning declaredInterface v).Gives none declaredInterface v := by
  refine ⟨[], rfl, ?_, .inl rfl⟩
  intro i arg here
  cases here

theorem boxed_result_agrees_true :
    ∃ out st', (callGoFunc (bareRuntime fun _ => 0) (returning false (.bool true)) none).run () =
        (some out, st') ∧
      (callGoFunc (bareRuntime fun _ => 0) (returning true (.bool true)) none).run () =
        (some out, st') :=
  (boxed_result_agrees _ _ _ _ none none () (returning_gives false (.bool true))
    (returning_gives true (.bool true))).mpr trivial

/-- `func() interface{} { return 1 }` panics where `func() int { return 1 }` does not. -/
theorem boxed_int_panics :
    ∃ n : GoInteger, n.kind = .int ∧ n.val = 1 ∧
      (returning false (.integer n) : GoFunc (fun _ => 0) Unit).Gives none false (.integer n) ∧
      (returning true (.integer n) : GoFunc (fun _ => 0) Unit).Gives none true (.integer n) ∧
      ((callGoFunc (bareRuntime fun _ => 0) (returning false (.integer n)) none).run ()).1 =
        some (.word .int 1) ∧
      ((callGoFunc (bareRuntime fun _ => 0) (returning true (.integer n)) none).run ()).1 = none :=
  ⟨⟨.int, false, 1, by decide⟩, rfl, rfl, returning_gives _ _, returning_gives _ _, rfl, rfl⟩

/-! ### Results beside arguments -/

variable {H : Type} {host : Host H}

def takeTop : Duk H JsVal := do
  let v ← getAt 0
  pop
  return v

/-- What a script gets for a result: a C function that returns 0 has no value of its own. -/
def jsResult (host : Host H) (res : NativeResult) : Duk H JsVal := do
  let count ← pushResult host res
  if count = 0 then return .undefined else takeTop

/-- What a JavaScript function gets for an argument. -/
def jsArgument (host : Host H) (arg : CArg) : Duk H JsVal := do
  pushArg host arg
  takeTop

/-- `parseArg` gives the value to `json.Marshal`. -/
def GoVal.AsJson : GoVal mem S → Prop
  | .integer n => n.defined = true ∨ n.kind = .uintptr
  | .slice _ | .map _ | .other _ => True
  | _ => False

/-- A value of a type that `parseArg` encodes, and not as an error. -/
structure Encodable (go : GoRuntime mem S σ) (v : GoVal mem S) : Prop where
  typed : v ≠ .nil
  noError : v.isError = false
  marshals : v.AsJson → (go.marshal v).isSome = true

/-- The type is named in a case of the result switch, or is a pointer to a struct. -/
def GoVal.HasResultCase : GoVal mem S → Prop
  | .integer n => n.defined = false ∧ n.kind ≠ .uintptr
  | .other _ => False
  | _ => True

/-- As a result of a function declared with its own type and as an argument the value becomes one
and the same for a script: the same value, in the same world, or the same failure. -/
def EncodedAlike (host : Host H) (go : GoRuntime host.mem S σ) (f : GoFunc host.mem S)
    (ft : Option NativeArgs) (v : GoVal host.mem S) (out : ParsedArg) (st : σ) (ctx : Ctx H) : Prop :=
  ∃ res st', (callGoFunc go f ft).run st = (some res, st') ∧
    ((parseArg go v out).run st).2 = st' ∧
    jsResult host res ctx = jsArgument host ((parseArg go v out).run st).1.payload ctx

theorem jsResult_of_pushArg {res : NativeResult} {arg : CArg}
    (same : pushResult host res = pushArg host arg >>= fun _ => pure 1) :
    jsResult host res = jsArgument host arg := by
  rw [jsResult, same, jsArgument, bind_assoc]
  rfl

theorem setJson_payload {go : GoRuntime mem S σ} {v : GoVal mem S} {text : GoBytes mem}
    (marshals : go.marshal v = some text) {fmt : ArgFormat} (json : fmt = .jarray ∨ fmt = .jobject)
    (out : ParsedArg) :
    (out.setJson go fmt v).payload = .json (sizeOfInt (cInt text.data.length)) text.addr := by
  rw [ParsedArg.setJson, marshals]
  rcases json with rfl | rfl <;> rfl

/-- The text of a result is pushed as the text of an argument, whether it is called an array or
an object. -/
theorem json_encodedAlike {go : GoRuntime host.mem S σ} {v : GoVal host.mem S}
    (marshals : (go.marshal v).isSome = true) {fmt : ArgFormat}
    (json : fmt = .jarray ∨ fmt = .jobject) (out : ParsedArg) :
    jsResult host (resToJson go v) = jsArgument host (out.setJson go fmt v).payload := by
  obtain ⟨text, marshalled⟩ := Option.isSome_iff_exists.mp marshals
  rw [setJson_payload marshalled json, resToJson, marshalled]
  exact jsResult_of_pushArg rfl

/-- Decoded JSON is a value, and undefined is none of them. -/
def DecodesValues (host : Host H) : Prop :=
  ∀ w free text v w' reserved, host.jsonDecode w free text = .returns v w' reserved → v ≠ .undefined

theorem jsArgument_json (values : DecodesValues host) (l s : Word) (ctx : Ctx H) :
    jsResult host .none ctx ≠ jsArgument host (.json l s) ctx := by
  have nothing : jsResult host .none ctx = .ok .undefined ctx := rfl
  rw [nothing]
  intro received
  obtain ⟨_, after, pushed, taken⟩ := bind_eq_ok.mp received.symm
  obtain ⟨_, _, v, w, reserved, decoded, rfl⟩ := pushJson_eq_ok.mp pushed
  rw [takeTop, bind_ok (getAt_run 0)] at taken
  obtain ⟨_, _, _, returned⟩ := bind_eq_ok.mp taken
  have undefined : v = .undefined := (EStateM.Result.ok.inj returned).1
  exact values _ _ _ _ _ _ decoded undefined

/-- The integers a result switch has a case for are encoded as they are for an argument. -/
theorem integer_encodedAlike (go : GoRuntime host.mem S σ) {n : GoInteger}
    (predeclared : n.defined = false) (named : n.kind ≠ .uintptr) (out : ParsedArg) :
    ∃ res, encodeInteger false n = some res ∧
      jsResult host res = jsArgument host (parseInteger go n out).payload := by
  obtain ⟨res, encoded, program⟩ := pushResult_encodeInteger host named predeclared
  refine ⟨res, encoded, jsResult_of_pushArg ?_⟩
  rw [program, pushArg_parseInteger go named predeclared out]

theorem parseInteger_json {go : GoRuntime mem S σ} {n : GoInteger}
    (unnamed : n.defined = true ∨ n.kind = .uintptr) (out : ParsedArg) :
    parseInteger go n out = out.setJson go .jobject (.integer n) := by
  rw [parseInteger]
  rcases unnamed with defined | kind
  · rw [if_pos defined]
  · cases defined : n.defined with
    | true => rfl
    | false => rw [if_neg (by simp), kind]

/-- A value that is encoded as a result and as an argument is one value for a script exactly when
its type has a case in the result switch. -/
theorem encodedAlike_iff (values : DecodesValues host) (go : GoRuntime host.mem S σ)
    (f : GoFunc host.mem S) (ft : Option NativeArgs) (v : GoVal host.mem S) (out : ParsedArg)
    (st : σ) (ctx : Ctx H) (encodable : Encodable go v) (gives : f.Gives ft false v) :
    EncodedAlike host go f ft v out st ctx ↔ v.HasResultCase := by
  obtain ⟨typed, noError, marshals⟩ := encodable
  rw [EncodedAlike, callGoFunc_gives go gives]
  -- what the result switch drops arrives as undefined, and as JSON otherwise
  have dropped : ∀ w : GoVal host.mem S, (go.marshal w).isSome = true →
      jsResult host .none ctx ≠ jsArgument host (out.setJson go .jobject w).payload ctx := by
    intro w encoded
    obtain ⟨text, marshalled⟩ := Option.isSome_iff_exists.mp encoded
    rw [setJson_payload marshalled (.inr rfl)]
    exact jsArgument_json values _ _ ctx
  cases v with
  | nil => exact absurd rfl typed
  | error text => exact Bool.noConfusion noError
  | integer n =>
    by_cases unnamed : n.defined = true ∨ n.kind = .uintptr
    · refine iff_of_false ?_ ?_
      · rintro ⟨res, st', encoded, _, same⟩
        have none : some NativeResult.none = some res := by
          rw [← encodeInteger_unread unnamed false]
          exact congrArg Prod.fst encoded
        cases none
        refine dropped _ (marshals unnamed) ?_
        rw [← parseInteger_json unnamed]
        exact same
      · rintro ⟨predeclared, named⟩
        rcases unnamed with defined | kind
        · exact Bool.noConfusion (predeclared.symm.trans defined)
        · exact named kind
    · have predeclared : n.defined = false := Bool.eq_false_iff.mpr fun defined => unnamed (.inl defined)
      have named : n.kind ≠ .uintptr := fun kind => unnamed (.inr kind)
      obtain ⟨res, encoded, same⟩ := integer_encodedAlike go predeclared named out
      refine iff_of_true ⟨res, st, congrArg (·, st) encoded, rfl, ?_⟩ ⟨predeclared, named⟩
      exact congrFun same ctx
  | slice id =>
    refine iff_of_true ⟨resToJson go (.slice id), st, rfl, rfl, ?_⟩ trivial
    exact congrFun (json_encodedAlike (marshals trivial) (.inl rfl) out) ctx
  | map id =>
    refine iff_of_true ⟨resToJson go (.map id), st, rfl, rfl, ?_⟩ trivial
    exact congrFun (json_encodedAlike (marshals trivial) (.inr rfl) out) ctx
  | other value =>
    refine iff_of_false ?_ id
    rintro ⟨res, st', encoded, _, same⟩
    cases encoded
    exact dropped _ (marshals trivial) same
  | ecmaObject ecmaObj =>
    refine iff_of_true ⟨.word .func ecmaObj, st, rfl, rfl, ?_⟩ trivial
    refine congrFun (jsResult_of_pushArg ?_) ctx
    change _ = (loadObject host ecmaObj >>= fun _ => pure ()) >>= fun _ => pure 1
    rw [bind_assoc]
    rfl
  | bool | float32 | float64 | string | bytes | structPtr =>
    refine iff_of_true ⟨_, _, rfl, rfl, ?_⟩ trivial
    exact congrFun (jsResult_of_pushArg rfl) ctx

/-- A host with `[]` at address 1, which it decodes into a new array. -/
def arrayHost : Host Unit :=
  { stillHost with
    mem := fun addr => if addr = 1 then 0x5B else 0x5D
    jsonDecode := fun w _ _ => .returns (.object w.nextId)
      { w.setObject w.nextId ⟨{ ObjShape.plain with array := true }, fun _ => none, true, none⟩ with
        nextId := w.nextId + 1 } 0 }

theorem arrayHost_decodes : DecodesValues arrayHost := by
  intro w free text v w' reserved decoded
  cases decoded
  exact JsVal.noConfusion

/-- Go code whose values all have the JSON text `[]`. -/
def arrayRuntime : GoRuntime arrayHost.mem Unit Unit :=
  { bareRuntime arrayHost.mem with
    marshal := fun _ => some ⟨1, [0x5B, 0x5D], by decide, by decide, fun _ => by decide⟩ }

theorem encodedAlike_iff_slice :
    EncodedAlike arrayHost arrayRuntime (returning false (.slice 0)) none (.slice 0) ⟨.none, 0, 0, 0⟩ ()
      freshEnvironment := by
  refine (encodedAlike_iff arrayHost_decodes arrayRuntime (returning false (.slice 0)) none
    (.slice 0) ⟨.none, 0, 0, 0⟩ () freshEnvironment ⟨?_, rfl, fun _ => rfl⟩
    (returning_gives _ _)).mpr trivial
  exact fun impossible => by cases impossible

/-- `[]int{}` as an argument is an array, and as a result undefined. -/
theorem int_slice_lost : ∃ v : GoVal arrayHost.mem Unit, Encodable arrayRuntime v ∧
    (returning false v).Gives none false v ∧
    (∃ res, ((callGoFunc arrayRuntime (returning false v) none).run ()).1 = some res ∧
      jsResult arrayHost res freshEnvironment = .ok .undefined freshEnvironment) ∧
    ∃ id after, jsArgument arrayHost ((parseArg arrayRuntime v ⟨.none, 0, 0, 0⟩).run ()).1.payload
      freshEnvironment = .ok (.object id) after ∧ (after.world.objects id).shape.array = true := by
  refine ⟨.other 0, ⟨?_, rfl, fun _ => rfl⟩, returning_gives _ _, ⟨.none, rfl, rfl⟩, 3, _, rfl, rfl⟩
  exact fun impossible => by cases impossible

end DukBridge
