import DukBridge.EchoLaw
import DukBridge.GlobalFunctions
import DukBridge.GoInvocation

/-!
# Functions handed to Go

A function of a script comes to Go as an argument or as a result. If it was compiled from a
script it is saved, and what Go gets is the handle; anything else that can be called goes
through JSON, which has no text for it.
-/
namespace DukBridge

open Effect KeyStore

variable {H : Type} {host : Host H} {S σ : Type}

theorem Ctx.EcmascriptFunction.object {ctx : Ctx H} {v : JsVal}
    (function : ctx.EcmascriptFunction v) :
    ∃ id, v = .object id ∧ (ctx.world.objects id).shape.ecmascriptFunction = true := by
  cases v with
  | object id => exact ⟨id, rfl, function⟩
  | _ => exact function.elim

theorem handedAsJson_of_function {ctx : Ctx H} {v : JsVal} (function : ctx.EcmascriptFunction v) :
    handedAsJson ctx v = none := by
  obtain ⟨id, rfl, isFunction⟩ := function.object
  simp [handedAsJson, isFunction]

theorem handsOver_of_function {ctx : Ctx H} {v : JsVal} (function : ctx.EcmascriptFunction v) :
    HandsOver host ctx v ↔ Savable host ctx := by
  obtain ⟨id, rfl, isFunction⟩ := function.object
  rw [HandsOver]
  simp only [isFunction, if_true]

/-! ### A call through a handle -/

section Call

variable (go : GoRuntime host.mem S σ)

/-- What is pushed for the arguments of a Go call, which may be none at all. -/
def callPayloads (args : Option (List (GoVal host.mem S))) (st : σ) : List CArg :=
  match args with
  | none => []
  | some args => payloads go args st

/-- `CallEcmascriptFunc` on the handle: with slots for the look-up and for each argument in its
turn, `f` is called with what the arguments were pushed as, and the call ends as `f` does. -/
def CallsItself (h : Word) (f : JsVal) (s : Ctx H) : Prop :=
  ∀ (args : Option (List (GoVal host.mem S))) (st : σ), s.height + 4 ≤ s.reserve →
    ArgsFit host (s.pushed f) (callPayloads go args st) →
    ∃ pushed values, pushed = (callPayloads go args st).foldl (afterArg host) (s.pushed f) ∧
      pushed.stack = values.reverse ++ f :: s.stack ∧
      values.length = (callPayloads go args st).length ∧
      ∀ c t, Ends (host.call pushed.world pushed.free .undefined f values) pushed c t →
        Completes host ((GoCall.callEcmascriptFunc h args).entry host go st) s c
          { t with stack := c.value :: s.stack }

/-- In every run of the environment in which no save reads a microsecond in use, the handle calls
`f` as long as it is not destroyed. -/
def CallsWhileLive (h : Word) (f : JsVal) (after : Ctx H) : Prop :=
  ∀ s, FreshHandleRun host ⟨after, [(h, f)]⟩ s → (h, f) ∈ s.live → CallsItself go h f s.ctx

/-- An error among the arguments is pushed by no state. -/
theorem noErrors_of_fit {args : List (GoVal host.mem S)} {st : σ} {ctx : Ctx H}
    (fit : ArgsFit host ctx (payloads go args st)) : ∀ arg ∈ args, arg.isError = false := by
  rw [← outputs_error go args st]
  intro out member isError
  obtain ⟨i, here⟩ := List.mem_iff_getElem?.mp member
  have payload : (payloads go args st)[i]? = some (.error out.pLen out.p) := by
    rw [payloads, List.getElem?_map, here, Option.map_some, ParsedArg.payload, isError]
  exact (argsFit_at fit payload).2.1

/-- The arguments lie above what was on top. -/
theorem pushCallArgs_fit (plain : PlainHandles host) {args : Option (List (GoVal host.mem S))}
    {st : σ} {ctx : Ctx H} (fit : ArgsFit host ctx (callPayloads go args st)) :
    pushCallArgs host ((callArgs host go args).run st).1.1 ((callArgs host go args).run st).1.2 ctx =
      .ok (callPayloads go args st).length
        ((callPayloads go args st).foldl (afterArg host) ctx) := by
  cases args with
  | none => rfl
  | some args =>
    have pushes := (pushAll_eq_ok plain (u := ())).mpr ⟨fit, rfl⟩
    have arguments := bind_ok pushes fun _ => pure args.length
    change ArgsFit host ctx (payloads go args st) at fit
    rw [callPayloads, ← pushArgs_parseArgs go args (noErrors_of_fit go fit) st] at arguments
    rw [callPayloads, payloads_length]
    exact arguments

theorem callsItself_of_saved (plain : PlainHandles host) {h : Word} {f : JsVal} {s : Ctx H}
    (held : saved s h = some f) : CallsItself go h f s := by
  intro args st room fit
  obtain ⟨values, length, stack⟩ := afterArgs_stack fit
  have reserve := afterArgs_reserve fit
  have arguments := pushCallArgs_fit go plain fit
  have loaded : loadObject host h s = .ok true (s.pushed f) := by
    rw [loadObject_live held, if_pos room]
  generalize (callPayloads go args st).foldl (afterArg host) (s.pushed f) = pushed at *
  have lies : pushed.stack = values.reverse.reverse ++ f :: s.stack := by
    rw [List.reverse_reverse, stack, Ctx.pushed_stack]
  refine ⟨pushed, values.reverse, rfl, lies, by rw [List.length_reverse, length], ?_⟩
  intro c t ends
  have slot : s.stack.length + 1 ≤ t.reserve := by
    have more := (ends_stack ends).2
    rw [Ctx.pushed_reserve] at reserve
    change s.height + 1 ≤ _
    omega
  have calls := calls_under_arguments lies slot ends
  rw [List.length_reverse, length] at calls
  exact .callEcmascriptFunc loaded arguments calls

/-- From a save on, the handle is right about its object until it is destroyed. -/
theorem callsWhileLive_of_saved (plain : PlainHandles host) {h : Word} {f : JsVal} {after : Ctx H}
    (held : saved after h = some f) : CallsWhileLive go h f after := by
  intro s run live
  have start : Tracks (saved after) [(h, f)] := by
    refine ⟨List.nodup_singleton h, fun k v member => ?_⟩
    cases List.mem_singleton.mp member
    exact held
  exact callsItself_of_saved go plain ((tracks_run plain run start).found h f live)

end Call

/-! ### As an argument -/

section Argument

variable {gf : GoFunc host.mem S} {values : List JsVal} {entry ctx turn : Ctx H}
  {args : NativeArgs} {i : Nat} {written : MarshalLoop}

/-- Parameter `i` gets `arg`: the decoding loop does not stop at it, and in every call of the
function it is what the function is called with. -/
structure Receives (gf : GoFunc host.mem S) (args : NativeArgs) (i : Nat) (arg : GoArg) : Prop where
  passes : ∀ loop, decodeRounds gf args.chars (args.toPointerArray (2 * args.chars.length)) i =
    .ok loop → ∃ next, decodeRound gf args.chars (args.toPointerArray (2 * args.chars.length)) loop =
      .ok next
  called : ∀ argv, gf.invocation (some args) = .ok argv → argv[i]? = some arg

variable (gf) in
/-- What an argument was packed as is all that its parameter gets to see. -/
theorem receives_of_carries (stack : entry.stack = values.reverse)
    (returned : marshalArgs host values.length entry = .ok args ctx) (within : i < values.length)
    (ran : marshalRounds host values.length i entry = .ok written turn) :
    ∃ out, Carries host turn (values.get ⟨i, within⟩) out ∧ ∀ arg t,
      out.decoded gf (gf.argType i) = some arg → arg.type = some t →
      t.convertibleTo gf.implements (gf.argType i) = true → Receives gf args i arg := by
  obtain ⟨outs, marshalled, packed, loop, filled, block⟩ := marshalArgs_packed stack returned
  obtain ⟨written', turn', out, ran', here, carries⟩ := marshalled.carries i within
  have height : entry.height = values.length := by rw [Ctx.height, stack, List.length_reverse]
  rw [height, ran] at ran'
  cases ran'
  rw [height, get_argument stack within] at carries
  have length := marshalled.length
  have array := packed.array
  have strlen : args.chars.length = outs.length := by rw [packed.chars, List.length_map]
  rw [← strlen] at array
  -- one round of the decoder, which is in step with the block
  refine ⟨out, carries, fun arg t decoded type convertible => ⟨?_, ?_⟩⟩
  · intro before reached
    rw [array] at reached ⊢
    have inStep := decodeRounds_inStep gf packed.widths packed.chars (by omega) reached
    have round := inStep.decodes gf here (packed.widths out (List.mem_of_getElem? here))
      (List.replicate (2 * args.chars.length - (outs.map NativeArg.slots).flatten.length) (.word 0))
    rw [← packed.chars, decoded, inStep.i] at round
    rw [decodeRound, inStep.i, round]
    simp only [Option.map_some, type, convertible, if_true]
    exact ⟨_, rfl⟩
  · intro argv invoked
    rw [GoFunc.invocation] at invoked
    split at invoked
    · next admitted =>
      cases reached : decodeRounds gf args.chars (args.toPointerArray (2 * args.chars.length))
          args.chars.length with
      | error stop =>
        rw [reached] at invoked
        cases invoked
      | ok last =>
        rw [reached] at invoked
        cases invoked
        rw [array] at reached
        have inStep := decodeRounds_inStep gf packed.widths packed.chars (by omega) reached
        rw [inStep.args i (by omega) out here, decoded]
    · cases invoked

/-- A function is packed as the handle it was saved under. -/
theorem carries_function {f : JsVal} {out : NativeArg} (carries : Carries host turn f out)
    (function : turn.EcmascriptFunction f) :
    ∃ h after, out = .word .ecmafunc h ∧ saveTopObject host (turn.pushed f) = .ok h after := by
  cases carries with
  | function isFunction saves => exact ⟨_, _, rfl, saves⟩
  | bufferObject noFunction isBuffer =>
    rw [Ctx.EcmascriptFunction, noFunction] at function
    cases function
  | @json _ _ _ _ _ asJson _ | @noJson _ _ _ _ asJson _ =>
    rw [handedAsJson_of_function function] at asJson
    cases asJson
  | _ => exact function.elim

theorem function_received (plain : PlainHandles host) (stack : entry.stack = values.reverse)
    (returned : marshalArgs host values.length entry = .ok args ctx) (within : i < values.length)
    (ran : marshalRounds host values.length i entry = .ok written turn)
    (function : turn.EcmascriptFunction (values.get ⟨i, within⟩))
    (expects : gf.argType i = .ecmaObjectPtr) :
    ∃ h after, saveTopObject host (turn.pushed (values.get ⟨i, within⟩)) = .ok h after ∧
      saved after h = some (values.get ⟨i, within⟩) ∧ Receives gf args i (.ecmaObject h) := by
  obtain ⟨out, carries, receives⟩ := receives_of_carries gf stack returned within ran
  obtain ⟨h, after, rfl, saves⟩ := carries_function carries function
  obtain ⟨_, v, rest, pushed, _, stored⟩ := saveTopObject_ok plain saves
  cases pushed
  refine ⟨h, after, saves, by rw [stored, Function.update_self], ?_⟩
  rw [expects] at receives
  exact receives _ _ rfl rfl (by simp [GoType.convertibleTo])

/-- What JSON has no text for is a nil pointer for a parameter of this type. -/
theorem callable_received_nil (stack : entry.stack = values.reverse)
    (returned : marshalArgs host values.length entry = .ok args ctx) (within : i < values.length)
    (ran : marshalRounds host values.length i entry = .ok written turn) {array : Bool}
    (asJson : handedAsJson turn (values.get ⟨i, within⟩) = some array)
    (noText : ∀ text w reserved,
      host.jsonEncode turn.world turn.free (values.get ⟨i, within⟩) = .returns text w reserved →
        text = none)
    (noValue : gf.unmarshal [] = none) (expects : gf.argType i = .ecmaObjectPtr) :
    Receives gf args i (.zero .ecmaObjectPtr) := by
  obtain ⟨out, carries, receives⟩ := receives_of_carries gf stack returned within ran
  rw [expects] at receives
  generalize values.get ⟨i, within⟩ = f at carries asJson noText
  have decoded : ∀ array : Bool, (NativeArg.mk (if array then ArgFormat.jarray else .jobject)
      [.word 0, .word 0]).decoded gf .ecmaObjectPtr = some (.zero .ecmaObjectPtr) := by
    intro array
    have read : SlotVal.bytes host.mem 0 (.word 0) = [] := rfl
    cases array <;> simp [NativeArg.decoded, decodeArg, SlotVal.toWord, read, noValue, GoType.kind,
      GoType.underlying, GoType.ecmaObjectPtr]
  cases carries with
  | json _ encoded => cases noText _ _ _ encoded
  | noJson asJson' encoded => exact receives _ _ (decoded _) rfl (by simp [GoType.convertibleTo])
  | @function id _ _ isFunction _ => simp [handedAsJson, isFunction] at asJson
  | @bufferObject id _ noFunction isBuffer => simp [handedAsJson, noFunction, isBuffer] at asJson
  | _ => cases asJson

end Argument

/-! ### As a result -/

section Result

variable (go : GoRuntime host.mem S σ) {call : GoCall host.mem S} {st : σ} {s t s' : Ctx H}
  {f : JsVal} {value : GoRes} {err : Option GoErr}

theorem callResultCallback_function {id : Nat} {d : Delivered} {t' : Ctx H}
    (top : t.get 0 = .object id) (function : t.EcmascriptFunction (.object id))
    (converted : callResultCallback host t = .ok d t') :
    ∃ h, saveTopObject host (t.pushed (.object id)) = .ok h t' ∧
      d = { resType := .func, res := .word h, len := none } := by
  rw [Ctx.EcmascriptFunction] at function
  rw [callResultCallback, bind_run, get_run] at converted
  simp only [top, function, if_true] at converted
  obtain ⟨_, pushed, room, rest⟩ := bind_eq_ok.mp converted
  obtain ⟨_, rfl⟩ := push_eq_ok.mp room
  rw [bind_ok (setAt_run 0 _)] at rest
  obtain ⟨h, after, saves, same⟩ := bind_eq_ok.mp rest
  cases same
  exact ⟨h, saves, rfl⟩

theorem function_returned (plain : PlainHandles host)
    (completes : Completes host (call.entry host go st) s (.normal f) t)
    (function : t.EcmascriptFunction f)
    (returned : (call.run host go st).1 s = .ok (value, err) s') :
    err = none ∧ ∃ h, value = .ecmaObject h ∧ saved s' h = some f := by
  obtain ⟨top, _⟩ := completes_top completes
  obtain ⟨d, t', converted, rfl, same⟩ := run_of_completes go completes returned
  obtain ⟨id, rfl, _⟩ := function.object
  obtain ⟨h, saves, rfl⟩ := callResultCallback_function top function converted
  cases same
  obtain ⟨_, v, rest, pushed, _, stored⟩ := saveTopObject_ok plain saves
  cases pushed
  refine ⟨rfl, h, rfl, ?_⟩
  change saved t' h = some (.object id)
  rw [stored, Function.update_self]

/-- What JSON has no text for is an empty byte slice for Go. -/
theorem callable_returned_empty
    (completes : Completes host (call.entry host go st) s (.normal f) t) {array : Bool}
    (asJson : handedAsJson t f = some array) (noError : ¬ t.ErrorInstance f)
    (noText : ∀ text w reserved,
      host.jsonEncode t.world t.free f = .returns text w reserved → text = none)
    (returned : (call.run host go st).1 s = .ok (value, err) s') :
    value = .bytes [] ∧ err = none := by
  obtain ⟨image, noErr⟩ := image_of_normal go completes (fun both => noError both.1) returned
  refine ⟨?_, noErr⟩
  dsimp only at image
  cases image with
  | json _ _ _ encoded => rw [noText _ _ _ encoded]; rfl
  | @function id _ _ isFunction _ => simp [handedAsJson, isFunction] at asJson
  | @bufferObject id _ noFunction isBuffer => simp [handedAsJson, noFunction, isBuffer] at asJson
  | _ => cases asJson

end Result

/-- Every function compiled from a script that comes to a parameter of type `*EcmaObject`, or that
a script or a function completes with, reaches Go as a handle. From then on, in every run, the
handle calls the function itself until it is destroyed. -/
theorem functions_delivered (plain : PlainHandles host) (go : GoRuntime host.mem S σ) :
    (∀ (gf : GoFunc host.mem S) (values : List JsVal) (entry ctx : Ctx H) (args : NativeArgs),
      entry.stack = values.reverse → marshalArgs host values.length entry = .ok args ctx →
      ∀ i (within : i < values.length) written turn,
        marshalRounds host values.length i entry = .ok written turn →
        turn.EcmascriptFunction (values.get ⟨i, within⟩) →
        gf.target i = .ecmaObjectPtr → gf.argType i = gf.target i →
        ∃ h after, saveTopObject host (turn.pushed (values.get ⟨i, within⟩)) = .ok h after ∧
          Receives gf args i (.ecmaObject h) ∧
          CallsWhileLive go h (values.get ⟨i, within⟩) after) ∧
    ∀ (call : GoCall host.mem S) (st : σ) (s t s' : Ctx H) (f : JsVal) (value : GoRes)
      (err : Option GoErr), Completes host (call.entry host go st) s (.normal f) t →
      t.EcmascriptFunction f → (call.run host go st).1 s = .ok (value, err) s' →
      err = none ∧ ∃ h, value = .ecmaObject h ∧ CallsWhileLive go h f s' := by
  refine ⟨?_, ?_⟩
  · intro gf values entry ctx args stack returned i within written turn ran function expects looked
    obtain ⟨h, after, saves, held, receives⟩ := function_received plain stack returned within ran
      function (looked.trans expects)
    exact ⟨h, after, saves, receives, callsWhileLive_of_saved go plain held⟩
  · intro call st s t s' f value err completes function returned
    obtain ⟨noErr, h, handle, held⟩ := function_returned go plain completes function returned
    exact ⟨noErr, h, handle, callsWhileLive_of_saved go plain held⟩

/-! ### A script function and a native function -/

/-- Object 1 is a function of a script, and object 2 the native function of two parameters. -/
def adderWorld : World Unit :=
  (freshEnvironment.world.setObject 1
    ⟨{ ObjShape.plain with ecmascriptFunction := true }, fun _ => none, true, none⟩).setObject 2
    ⟨.plain, fun key => if key = nativeFuncKey then some (.data (.pointer 12288) true true) else none,
      true, some (.nativeFuncBridge, 2)⟩

/-- A frame in which a Go function is called with these arguments. -/
def adderFrame (values : List JsVal) : Ctx Unit where
  stack := values.reverse
  reserve := values.length + 64
  world := adderWorld

/-- A host whose scripts complete with this value. -/
def completingHost (v : JsVal) : Host Unit :=
  { stillHost with call := fun w _ _ _ _ => .returns v w 0 }

theorem completingHost_plain (v : JsVal) : PlainHandles (completingHost v) :=
  ⟨fun _ _ _ => rfl, fun _ _ _ _ => rfl⟩

/-- func(*EcmaObject) -/
def takesFunction (v : JsVal) : GoFunc (completingHost v).mem Unit where
  params := [.ecmaObjectPtr]
  variadic := false
  call _ := []
  implements _ _ := false
  unmarshal _ := none

def anyScript (v : JsVal) : GoBytes (completingHost v).mem :=
  ⟨24, [0, 0, 0], rfl, by decide, fun _ => by decide⟩

/-- The native function is a nil pointer as an argument, and no bytes as a result. -/
theorem native_function_not_delivered : IsBridge adderWorld (.object 2) ∧
    (∃ args ctx, marshalArgs (completingHost (.object 2)) 1 (adderFrame [.object 2]) = .ok args ctx ∧
      (takesFunction (.object 2)).invocation (some args) = .ok [.zero .ecmaObjectPtr]) ∧
    ∃ s', JSEnv.eval (completingHost (.object 2)) (anyScript (.object 2)) (adderFrame []) =
      .ok (.bytes [], none) s' :=
  ⟨⟨2, 2, .pointer 12288, true, true, rfl, rfl, rfl⟩, ⟨_, _, rfl, rfl⟩, _, rfl⟩

theorem functions_delivered_script :
    (∃ args ctx, marshalArgs (completingHost (.object 1)) 1 (adderFrame [.object 1]) = .ok args ctx ∧
      Receives (takesFunction (.object 1)) args 0 (.ecmaObject 5)) ∧
    ∃ s', JSEnv.eval (completingHost (.object 1)) (anyScript (.object 1)) (adderFrame []) =
        .ok (.ecmaObject 5, none) s' ∧
      CallsWhileLive (bareRuntime (completingHost (.object 1)).mem) 5 (.object 1) s' := by
  obtain ⟨argument, result⟩ := functions_delivered (completingHost_plain (.object 1))
    (bareRuntime (completingHost (.object 1)).mem)
  constructor
  · obtain ⟨h, after, saves, receives, _⟩ := argument (takesFunction (.object 1)) [.object 1]
      (adderFrame [.object 1]) _ _ rfl rfl 0 (by decide) _ _ rfl rfl rfl rfl
    cases saves
    exact ⟨_, _, rfl, receives⟩
  · obtain ⟨_, h, handle, calls⟩ := result (.eval (anyScript (.object 1))) () (adderFrame []) _ _ _ _ _
      (.eval (.ran (by decide) (.normal rfl) (by decide) (.normal rfl))) rfl rfl
    cases handle
    exact ⟨_, rfl, calls⟩

end DukBridge
