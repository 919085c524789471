import DukBridge.EchoLaw
import DukBridge.GlobalFunctions

/-!
# The lengths that Go hands to C

`getStrPtrLen` and `getBytesPtrLen` take the length of a string or slice as a `C.int`; every
caller widens it to a `C.size_t` again. What arrives depends on the length alone.
-/
namespace DukBridge

variable {H : Type} {host : Host H} {S σ : Type}

/-- The arguments `s, C.size_t(l)` of the functions of the C bridge that take a script. -/
def handScript (jsCode : GoBytes host.mem) : Word × Word :=
  (jsCode.addr, sizeOfInt (cInt jsCode.data.length))

/-- The three methods run, or register, what lies at the address in the length that was handed. -/
theorem scripts_handed (jsCode : GoBytes host.mem) (funcName : Bytes) :
    (JSEnv.eval host jsCode = do
      let returned ← jsEval host (host.sourceAt (handScript jsCode).1 (handScript jsCode).2) true
      return returned.parse host.mem) ∧
    (JSEnv.evalBytes host jsCode = do
      let returned ← jsEval host (host.sourceAt (handScript jsCode).1 (handScript jsCode).2) true
      return returned.parse host.mem) ∧
    JSEnv.registerCodeFunc host jsCode funcName = do
      return fromErrorCode (← jsRegisterCodeFunc host
        (host.sourceAt (handScript jsCode).1 (handScript jsCode).2) (cString funcName)) :=
  ⟨rfl, rfl, rfl⟩

/-- The bytes that `parseArg` sends for a value: its own, or its JSON text. -/
def GoVal.argumentBytes (go : GoRuntime host.mem S σ) (arg : GoVal host.mem S) :
    Option (GoBytes host.mem) :=
  match arg with
  | .string s | .bytes s | .error s => some s
  | .slice _ | .map _ | .other _ => go.marshal arg
  | .integer n => if n.defined = true ∨ n.kind = .uintptr then go.marshal arg else none
  | .nil | .bool _ | .float32 _ | .float64 _ | .ecmaObject _ | .structPtr _ => none

/-- The bytes that `setBuffer` or `resToJson` sends for a result. -/
def GoVal.resultBytes (go : GoRuntime host.mem S σ) (res : GoVal host.mem S) :
    Option (GoBytes host.mem) :=
  match res with
  | .string s | .bytes s | .error s => some s
  | .slice _ | .map _ => go.marshal res
  | _ => none

/-- An error in the second place is sent instead of the first result. -/
def resultsBytes (go : GoRuntime host.mem S σ) (r : List (Bool × GoVal host.mem S)) :
    Option (GoBytes host.mem) :=
  match r with
  | [(_, res)] => res.resultBytes go
  | [(_, res), (_, err)] =>
    match err with
    | .nil => res.resultBytes go
    | .error text => some text
    | _ => none
  | _ => none

/-- The length that is read with an address. -/
def CArg.length? : CArg → Option Word
  | .lstring l _ | .error l _ | .buffer l _ | .json l _ => some l
  | .none | .bool _ | .int _ | .double _ | .zstring _ | .ecmafunc _ | .mobject _ _ => Option.none

/-- What `push_args_and_call_func` reads for argument `i` of a list from `parseArgs`. -/
def argumentRead (go : GoRuntime host.mem S σ) (args : List (GoVal host.mem S)) (st : σ) (i : Nat) :
    CArg :=
  let parsed := ((parseArgs go args).run st).1
  (readArg (parsed.2.1.getD i 0) parsed.2.2 (decoderIndex parsed.2.1 parsed.2.2 i)).1

/-- Bytes of Go on their way to C, with the length that C is given for them. -/
inductive Crosses (go : GoRuntime host.mem S σ) : GoBytes host.mem → Word → Prop where
  /-- `Eval`, `EvalBytes`, `RegisterCodeFunc` -/
  | script (jsCode : GoBytes host.mem) : Crosses go jsCode (handScript jsCode).2
  /-- An argument in a list, which is read only if no error comes before it. -/
  | argument {args : List (GoVal host.mem S)} {i : Nat} {arg : GoVal host.mem S}
      {data : GoBytes host.mem} {len : Word} (st : σ) (here : args[i]? = some arg)
      (sent : arg.argumentBytes go = some data)
      (noErrors : ∀ a ∈ args.take (i + 1), a.isError = false)
      (read : (argumentRead go args st i).length? = some len) : Crosses go data len
  /-- The value of `RegisterVar`, errors among them: `js_register_var` gets the length as it is. -/
  | registered {data : GoBytes host.mem} (name : Bytes) (val : GoVal host.mem S) (st : σ)
      (sent : val.argumentBytes go = some data) :
      Crosses go data ((registerVarAttr host go name val).run st).1.valLen
  /-- What a Go function returned. -/
  | results {data : GoBytes host.mem} {native : NativeResult}
      (r : List (Bool × GoVal host.mem S)) (st : σ) (sent : resultsBytes go r = some data)
      (encoded : ((encodeResults go r).run st).1 = some native) :
      Crosses go data native.resLen

variable {go : GoRuntime host.mem S σ}

/-! ### The narrowed length -/

theorem handed_eq_iff {mem : Memory} (data : GoBytes mem) :
    (sizeOfInt (cInt data.data.length)).toNat = data.data.length ↔ data.data.length < 2 ^ 31 := by
  have bounded := data.bounded
  rw [sizeOfInt_cInt]
  split <;> omega

/-- The variables of `parseArg` describe the bytes: they would be read with this length. -/
def ParsedArg.Sends (out : ParsedArg) (data : GoBytes host.mem) : Prop :=
  out.pLen = sizeOfInt (cInt data.data.length) ∧ out.payload.length? = some out.pLen

theorem setJson_sends {out : ParsedArg} {argType : ArgFormat}
    (json : argType = .jarray ∨ argType = .jobject) {arg : GoVal host.mem S}
    {data : GoBytes host.mem} (marshalled : go.marshal arg = some data) :
    (out.setJson go argType arg).Sends data := by
  rw [ParsedArg.setJson, marshalled]
  refine ⟨rfl, ?_⟩
  rcases json with rfl | rfl <;> rfl

theorem parseArg_sends {arg : GoVal host.mem S} {data : GoBytes host.mem} (out : ParsedArg) (st : σ)
    (sent : arg.argumentBytes go = some data) : ((parseArg go arg out).run st).1.Sends data := by
  cases arg with
  | string s | bytes s | error s =>
    cases sent
    exact ⟨rfl, rfl⟩
  | slice id => exact setJson_sends (.inl rfl) sent
  | map id | other id => exact setJson_sends (.inr rfl) sent
  | integer n =>
    -- only a defined type and `uintptr` go through JSON
    simp only [GoVal.argumentBytes] at sent
    split at sent
    next viaJson =>
      change (parseInteger go n out).Sends data
      rcases viaJson with defined | kind
      · rw [parseInteger, if_pos defined]
        exact setJson_sends (.inr rfl) sent
      · have json : parseInteger go n out = out.setJson go .jobject (.integer n) := by
          simp [parseInteger, kind]
        rw [json]
        exact setJson_sends (.inr rfl) sent
    · simp at sent
  | nil | bool b | float32 f | float64 d | ecmaObject p | structPtr s =>
    simp [GoVal.argumentBytes] at sent

theorem encodeResult_resLen {declaredInterface : Bool} {res : GoVal host.mem S}
    {data : GoBytes host.mem} {st : σ} {native : NativeResult}
    (sent : res.resultBytes go = some data)
    (encoded : ((encodeResult go declaredInterface res).run st).1 = some native) :
    native.resLen = sizeOfInt (cInt data.data.length) := by
  cases res with
  | string s | bytes s | error s =>
    cases sent
    cases encoded
    rfl
  | slice id | map id =>
    have marshalled : go.marshal _ = some data := sent
    have json : some (resToJson go _) = some native := encoded
    simp only [resToJson, marshalled, Option.some.injEq] at json
    rw [← json]
    rfl
  | nil | bool b | integer n | float32 f | float64 d | ecmaObject p | structPtr s | other id =>
    simp [GoVal.resultBytes] at sent

theorem encodeResults_resLen {r : List (Bool × GoVal host.mem S)} {data : GoBytes host.mem}
    {st : σ} {native : NativeResult} (sent : resultsBytes go r = some data)
    (encoded : ((encodeResults go r).run st).1 = some native) :
    native.resLen = sizeOfInt (cInt data.data.length) := by
  match r with
  | [] | _ :: _ :: _ :: _ => simp [resultsBytes] at sent
  | [(declaredInterface, res)] => exact encodeResult_resLen sent encoded
  | [(declaredInterface, res), (_, err)] =>
    cases err with
    | nil => exact encodeResult_resLen sent encoded
    | error text =>
      cases sent
      cases encoded
      rfl
    | _ => simp [resultsBytes] at sent

/-! ### The length that is read for an argument -/

section Read

variable {args : List (GoVal host.mem S)} {i : Nat} (st : σ)

theorem argumentRead_length {arg : GoVal host.mem S} {data : GoBytes host.mem}
    (here : args[i]? = some arg) (sent : arg.argumentBytes go = some data)
    (noErrors : ∀ a ∈ args.take (i + 1), a.isError = false) :
    (argumentRead go args st i).length? = some (sizeOfInt (cInt data.data.length)) := by
  have within := (List.getElem?_eq_some_iff.mp here).1
  have noError : arg.isError = false := by
    apply noErrors arg
    rw [List.take_add_one, here]
    exact List.mem_append_right _ (List.mem_singleton_self arg)
  obtain ⟨st', parsed⟩ := parsedArgs_get go here (ParseLoop.start args.length).out st
  generalize ((parsedArgs go args _ st).take i).getLastD _ = out at parsed
  have start := start_of_noErrors go args st ((parseArgs go args).run st).1.2.2 (by omega)
    fun a member => noErrors a (List.take_subset_take_left args (Nat.le_succ i) member)
  have payload := payload_at go args st (i := i) (fun out' parsed' => by
    cases parsed.symm.trans parsed'
    intro isError
    rw [(parseArg_error go arg out st').mp isError] at noError
    cases noError) within start
  obtain ⟨pLen, read⟩ := parseArg_sends out st' sent
  rw [argumentRead, payload, encoderAt_out go args st parsed, read, pLen]

/-- For an error the length is what the arguments before it left in `val`, whatever its text: no
case of `parseArgs` stores the length. -/
theorem argumentRead_error {text : GoBytes host.mem} (here : args[i]? = some (.error text))
    (noErrors : ∀ a ∈ args.take i, a.isError = false) :
    (argumentRead go args st i).length? = some (encoderAt go args st i).out.val := by
  have within := (List.getElem?_eq_some_iff.mp here).1
  obtain ⟨st', parsed⟩ := parsedArgs_get go here (ParseLoop.start args.length).out st
  have start := start_of_noErrors go args st ((parseArgs go args).run st).1.2.2 (by omega) noErrors
  have code := fmt_getD go args st parsed
  rw [(stored_at go args st i).last]
  have cell : ((outputs go args st).map ParsedArg.cells)[i]? =
      some [(((outputs go args st).take i).getLastD (ParseLoop.start args.length).out).val] := by
    rw [List.getElem?_map, outputs, parsed]
    rfl
  have slot : ((parseArgs go args).run st).1.2.2.getD (encoderAt go args st i).j 0 =
      (((outputs go args st).take i).getLastD (ParseLoop.start args.length).out).val := by
    rw [parseArgs_eq, encoderAt_j, List.getD_eq_getElem?_getD]
    have packed := SlotWalk.packed_get cell (List.replicate (args.length * 2 -
      ((outputs go args st).map ParsedArg.cells).flatten.length) 0) (k := 0) Nat.zero_lt_one
    rw [Nat.add_zero] at packed
    rw [packed]
    rfl
  have tag : ArgFormat.ofCode (((parseArgs go args).run st).1.2.1.getD i 0) = some .error := by
    rw [code]
    rfl
  simp only [argumentRead, readArg, tag, start, slot, CArg.length?]

end Read

/-- All of them hand over the same function of the length. -/
theorem Crosses.handed {data : GoBytes host.mem} {len : Word} (crosses : Crosses go data len) :
    len = sizeOfInt (cInt data.data.length) := by
  cases crosses with
  | script => rfl
  | argument st here sent noErrors read =>
    rw [argumentRead_length st here sent noErrors] at read
    exact (Option.some.inj read).symm
  | registered name val st sent => exact (parseArg_sends _ st sent).1
  | results r st sent encoded => exact encodeResults_resLen sent encoded

/-- At every crossing the length that C gets is the length of the data exactly if it is less than
2^31; only an error in a list of arguments is read with a length that has nothing to do with it. -/
theorem length_survives_iff (go : GoRuntime host.mem S σ) :
    (∀ (data : GoBytes host.mem) (len : Word), Crosses go data len →
      (len.toNat = data.data.length ↔ data.data.length < 2 ^ 31)) ∧
    ∀ (args : List (GoVal host.mem S)) (st : σ) (i : Nat) (text : GoBytes host.mem),
      args[i]? = some (.error text) → (∀ a ∈ args.take i, a.isError = false) →
      (argumentRead go args st i).length? = some (encoderAt go args st i).out.val := by
  refine ⟨fun data len crosses => ?_, fun args st i text => argumentRead_error st⟩
  rw [crosses.handed]
  exact handed_eq_iff data

/-! ### Zeros -/

/-- A string of zeros. -/
def zeros (n : Nat) (bounded : n < 2 ^ 63) : GoBytes fun _ => 0 where
  addr := 8
  data := List.replicate n 0
  stored := by rw [Memory.read, List.map_const', List.length_range, List.length_replicate]
  bounded := by rwa [List.length_replicate]
  located _ := by decide

theorem length_survives_zeros : ∃ (text : GoBytes (echoHost 0).mem) (len : Word),
    Crosses (bareRuntime (echoHost 0).mem) text len ∧ (len.toNat = text.data.length ↔
      text.data.length < 2 ^ 31) := by
  have second : ([.nil, .bytes (zeros 3 (by decide))] : List (GoVal (echoHost 0).mem Unit))[1]? =
      some (.bytes (zeros 3 (by decide))) := rfl
  have crosses : Crosses (bareRuntime (echoHost 0).mem) (zeros 3 (by decide)) 3 :=
    .argument () second rfl (by decide) (by decide)
  exact ⟨_, _, crosses, (length_survives_iff _).1 _ _ crosses⟩

/-- Two gigabytes are as many below 2^64. -/
theorem two_gigabytes_lost : ∃ text : GoBytes (echoHost 0).mem,
    text.data.length = 2 ^ 31 ∧ Crosses (bareRuntime (echoHost 0).mem) text (handScript text).2 ∧
    (handScript text).2.toNat = 2 ^ 64 - 2 ^ 31 := by
  have length : (zeros (2 ^ 31) (by decide)).data.length = 2 ^ 31 := List.length_replicate
  refine ⟨zeros (2 ^ 31) (by decide), length, .script _, ?_⟩
  change (sizeOfInt (cInt (zeros (2 ^ 31) _).data.length)).toNat = _
  rw [length]
  decide

end DukBridge
