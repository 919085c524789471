import DukBridge.StackHeights

/-!
# Completion values and the callback of the host

A script or a function runs under a protected call, and leaves its completion value on
the stack. The value is converted afterwards, where no protected call is left.
-/
namespace DukBridge

open Effect

variable {H : Type} (host : Host H)

/-! ### When the conversion comes back -/

/-- Nothing that `call_result_callback` does with the value on top throws. -/
def Deliverable (ctx : Ctx H) : Prop :=
  match ctx.get 0 with
  | .undefined | .null | .boolean _ | .number _ | .string _ | .buffer _ => True
  | .object id =>
    let shape := (ctx.world.objects id).shape
    if shape.ecmascriptFunction then Savable host ctx
    else if shape.bufferData.isSome then True
    else if shape.error then
      ctx.height + 1 ≤ ctx.reserve ∧
        (host.safeToString ctx.world ctx.free (.object id)).isSome
    else JsonReturns host ctx (.object id)
  | .pointer p => JsonReturns host ctx (.pointer p)
  | .lightfunc f => JsonReturns host ctx (.lightfunc f)

variable {host} {ctx : Ctx H}

theorem deliverJson_returns (array : Bool) :
    Returns (deliverJson host array) ctx ↔ JsonReturns host ctx (ctx.get 0) := by
  rw [← jsonEncode_returns]
  apply returns_bind_total
  intro _ s
  rw [returns_bind_of_ok (get_run s)]
  split <;> exact returns_pure _ _

theorem safeToString_returns : Returns (safeToString host) ctx ↔
    ctx.height + 1 ≤ ctx.reserve ∧
      (host.safeToString ctx.world ctx.free (ctx.get 0)).isSome := by
  by_cases room : ctx.height + 1 ≤ ctx.reserve
  · have reserved : requireRoom 1 ctx = .ok () ctx := requireRoom_eq_ok.mpr ⟨room, rfl⟩
    rw [safeToString, returns_bind_of_ok reserved, returns_bind_of_ok (get_run ctx)]
    cases coerced : host.safeToString ctx.world ctx.free (ctx.get 0) with
    | none =>
      simp only [Option.isSome_none]
      exact iff_of_false (not_returns_of_error rfl) (fun both => Bool.false_ne_true both.2)
    | some result =>
      simp only [Option.isSome_some]
      exact iff_of_true ⟨_, _, rfl⟩ ⟨room, trivial⟩
  · have full : requireRoom 1 ctx = .error (.thrown .rangeError) ctx := by
      rw [requireRoom_run, if_neg room]
    refine iff_of_false (not_returns_of_error (bind_error full _)) (fun both => room both.1)

/-- The conversion returns exactly for the values it can convert. -/
theorem callResultCallback_returns (plain : PlainHandles host) :
    Returns (callResultCallback host) ctx ↔ Deliverable host ctx := by
  rw [callResultCallback, returns_bind_of_ok (get_run ctx), Deliverable]
  cases v : ctx.get 0 with
  | object id =>
    dsimp only
    by_cases isFunction : (ctx.world.objects id).shape.ecmascriptFunction = true
    · rw [if_pos isFunction, if_pos isFunction]
      exact copyAndSave_returns plain _ _
    · rw [if_neg isFunction, if_neg isFunction]
      cases isBuffer : (ctx.world.objects id).shape.bufferData with
      | some data => exact iff_of_true (returns_pure _ _) trivial
      | none =>
        simp only [Option.isSome_none, Bool.false_eq_true, if_false]
        by_cases isError : (ctx.world.objects id).shape.error = true
        · rw [if_pos isError, if_pos isError, returns_bind_total fun _ s => ?_]
          · rw [safeToString_returns, v]
          · exact ⟨_, _, rfl⟩
        · rw [if_neg isError, if_neg isError, deliverJson_returns, v]
  | pointer p | lightfunc f => rw [deliverJson_returns, v]
  | _ => exact iff_of_true (returns_pure _ _) trivial

/-! ### The five entry points -/

/-- Calls of the host that end in a completion value. -/
inductive EntryPoint where
  | eval (jsCode : Option Bytes)
  | evalFile (scriptFile : Bytes)
  | callRegisteredFunc (funcName : Bytes) (fmt : Option Bytes) (argv : List Word)
  | callFileFunc (scriptFile : Bytes) (fmt : Option Bytes) (argv : List Word)
  | callEcmascriptFunc (ecmaFunc : Word) (fmt : Option Bytes) (argv : List Word)

variable (host)

/-- The arguments; `fmt` may be NULL. -/
def pushCallArgs (fmt : Option Bytes) (argv : List Word) : Duk H Nat :=
  match fmt with
  | none => pure 0
  | some fmt => pushArgs host argv fmt 0 0

/-- The arguments and the protected call. -/
def pushArgsAndPcall (fmt : Option Bytes) (argv : List Word) : Duk H Int32 := do
  let argc ← pushCallArgs host fmt argv
  let rc ← pcall host argc
  return if rc = 0 then 0 else -2

namespace EntryPoint

def run (callFuncRes : Bool) : EntryPoint → Duk H Returned
  | eval jsCode => jsEval host jsCode callFuncRes
  | evalFile scriptFile => jsEvalFile host scriptFile callFuncRes
  | callRegisteredFunc funcName fmt argv =>
    jsCallRegisteredFunc host funcName callFuncRes fmt argv
  | callFileFunc scriptFile fmt argv => jsCallFileFunc host scriptFile callFuncRes fmt argv
  | callEcmascriptFunc ecmaFunc fmt argv =>
    jsCallEcmascriptFunc host ecmaFunc callFuncRes fmt argv

/-- The call up to its completion value: the status to come, and whether there is a value. -/
def evaluate (callFuncRes : Bool) : EntryPoint → Duk H (Int32 × Bool)
  | eval jsCode => do
    let ret ← pevalLstring host jsCode
    return (if ret = 0 then 0 else -1, true)
  | evalFile scriptFile =>
    match host.readFileContent scriptFile with
    | .ok src => do
      let ret ← pevalLstring host src
      return (if ret = 0 then 0 else -1, true)
    | .error ret =>
      -- a file that was not found has an error object for its value
      if ret = -1 ∧ callFuncRes then do
        pushErrorObject host (scriptFile ++ ascii " not found")
        return (ret, true)
      else return (ret, false)
  | callRegisteredFunc funcName fmt argv => do
    if !(← getGlobalString host funcName) then return (-1, false)
    return (← pushArgsAndPcall host fmt argv, true)
  | callFileFunc scriptFile fmt argv =>
    match host.readFileContent scriptFile with
    | .error ret => return (ret, false)
    | .ok src => do
      if (← pcompileLstring host .function src) ≠ 0 then
        let _ ← safeToString host
        pop
        return (-1, false)
      return (← pushArgsAndPcall host fmt argv, true)
  | callEcmascriptFunc ecmaFunc fmt argv => do
    let _ ← loadObject host ecmaFunc
    return (← pushArgsAndPcall host fmt argv, true)

end EntryPoint

/-- What follows the evaluation. -/
def finish (callFuncRes : Bool) (status : Int32) (completed : Bool) : Duk H Returned := do
  if completed then
    let delivered ← deliver host callFuncRes
    pop
    return (status, delivered)
  else
    return (status, none)

theorem pushArgsAndCallFunc_eq (callFuncRes : Bool) (fmt : Option Bytes) (argv : List Word) :
    pushArgsAndCallFunc host callFuncRes fmt argv =
      pushArgsAndPcall host fmt argv >>= fun status => finish host callFuncRes status true := by
  cases fmt with
  | none => simp [pushArgsAndCallFunc, callFunc, pushArgsAndPcall, pushCallArgs, finish]
  | some fmt => simp [pushArgsAndCallFunc, callFunc, pushArgsAndPcall, pushCallArgs, finish]

theorem jsEval_eq (callFuncRes : Bool) (jsCode : Option Bytes) : jsEval host jsCode callFuncRes =
    (EntryPoint.eval jsCode).evaluate host callFuncRes >>= fun (status, completed) =>
      finish host callFuncRes status completed := by
  simp [jsEval, EntryPoint.evaluate, finish]

theorem run_eq (callFuncRes : Bool) (entry : EntryPoint) : entry.run host callFuncRes =
    entry.evaluate host callFuncRes >>= fun (status, completed) =>
      finish host callFuncRes status completed := by
  cases entry with
  | eval jsCode => exact jsEval_eq host callFuncRes jsCode
  | evalFile scriptFile =>
    simp only [EntryPoint.run, EntryPoint.evaluate, jsEvalFile]
    cases host.readFileContent scriptFile with
    | ok src => exact jsEval_eq host callFuncRes src
    | error ret =>
      by_cases missing : ret = -1 ∧ callFuncRes = true
      · simp [fileNotRead, missing, finish, deliver]
      · simp [fileNotRead, missing, finish]
  | callRegisteredFunc funcName fmt argv =>
    -- the early return of an unknown function delivers nothing
    simp only [EntryPoint.run, EntryPoint.evaluate, jsCallRegisteredFunc, bind_assoc]
    apply bind_congr
    intro found
    cases found with
    | false => simp [finish]
    | true => simp [pushArgsAndCallFunc_eq]
  | callFileFunc scriptFile fmt argv =>
    simp only [EntryPoint.run, EntryPoint.evaluate, jsCallFileFunc]
    cases host.readFileContent scriptFile with
    | error ret => simp [finish]
    | ok src =>
      simp only [bind_assoc]
      apply bind_congr
      intro rc
      by_cases failed : rc = 0
      · simp [failed, pushArgsAndCallFunc_eq]
      · simp [failed, finish]
  | callEcmascriptFunc ecmaFunc fmt argv =>
    simp [EntryPoint.run, EntryPoint.evaluate, jsCallEcmascriptFunc, pushArgsAndCallFunc_eq]

theorem moves_pushArgsAndPcall (fmt : Option Bytes) (argv : List Word) :
    Moves 0 (pushArgsAndPcall host fmt argv) := by
  intro s status t returned
  obtain ⟨argc, mid, pushed, called⟩ := bind_eq_ok.mp returned
  have arguments : stackHeight mid = stackHeight s + argc := by
    cases fmt with
    | none =>
      cases pushed
      exact (Int.add_zero _).symm
    | some fmt =>
      have counted := pushArgs_height host pushed
      omega
  have call : Moves (-argc) (do
      let rc ← pcall host argc
      return (if rc = 0 then 0 else -2 : Int32)) :=
    (moves_pcall host argc).next fun rc => (moves_pure _).of_eq (by omega)
  have after := call _ _ _ called
  omega

/-- The completion value is the one thing an evaluation adds to the stack. -/
theorem evaluate_height {callFuncRes : Bool} {entry : EntryPoint} {s s' : Ctx H} {status : Int32}
    (evaluated : entry.evaluate host callFuncRes s = .ok (status, true) s') :
    stackHeight s' = stackHeight s + 1 := by
  have eval : ∀ src, Moves 1 (do
      let ret ← pevalLstring host src
      return ((if ret = 0 then 0 else -1 : Int32), true)) :=
    fun src => (moves_pevalLstring host src).next fun _ => moves_pure _
  have call : ∀ fmt argv, Moves 0 (do return (← pushArgsAndPcall host fmt argv, true)) :=
    fun fmt argv => (moves_pushArgsAndPcall host fmt argv).next fun _ => moves_pure _
  -- an evaluation that ends without a value has another second component
  cases entry with
  | eval jsCode => exact eval jsCode _ _ _ evaluated
  | evalFile scriptFile =>
    simp only [EntryPoint.evaluate] at evaluated
    cases read : host.readFileContent scriptFile with
    | ok src =>
      rw [read] at evaluated
      exact eval src _ _ _ evaluated
    | error ret =>
      simp only [read] at evaluated
      split at evaluated
      · obtain ⟨_, _, pushed, same⟩ := bind_eq_ok.mp evaluated
        cases same
        exact moves_pushErrorObject host _ _ _ _ pushed
      · cases evaluated
  | callRegisteredFunc funcName fmt argv =>
    obtain ⟨found, mid, looked, called⟩ := bind_eq_ok.mp evaluated
    have pushed := moves_getGlobalString host funcName _ _ _ looked
    cases found with
    | false => cases called
    | true =>
      have after := call fmt argv _ _ _ called
      omega
  | callFileFunc scriptFile fmt argv =>
    simp only [EntryPoint.evaluate] at evaluated
    cases read : host.readFileContent scriptFile with
    | error ret =>
      rw [read] at evaluated
      cases evaluated
    | ok src =>
      simp only [read] at evaluated
      obtain ⟨rc, mid, compiled, called⟩ := bind_eq_ok.mp evaluated
      have pushed := moves_pcompileLstring host _ _ _ _ _ compiled
      split at called
      · -- the code did not compile
        obtain ⟨_, _, _, popped⟩ := bind_eq_ok.mp called
        obtain ⟨_, _, _, stop⟩ := bind_eq_ok.mp popped
        cases stop
      · have after := call fmt argv _ _ _ called
        omega
  | callEcmascriptFunc ecmaFunc fmt argv =>
    obtain ⟨_, mid, loaded, called⟩ := bind_eq_ok.mp evaluated
    have pushed := moves_loadObject host ecmaFunc _ _ _ loaded
    have after := call fmt argv _ _ _ called
    omega

theorem finish_returns_iff (plain : PlainHandles host) {t : Ctx H} (value : 1 ≤ t.height)
    (callFuncRes : Bool) (status : Int32) : Returns (finish host callFuncRes status true) t ↔
      (callFuncRes = true → Deliverable host t) := by
  -- what the conversion leaves can be popped
  have pops : ∀ (t : Ctx H) (delivered : Option Delivered), 1 ≤ t.height →
      Returns (do pop; return (status, delivered)) t := by
    intro t delivered tall
    have popped : pop t = .ok () { t with stack := t.stack.drop 1 } :=
      popN_eq_ok.mpr ⟨tall, rfl⟩
    exact (returns_bind_of_ok popped).mpr (returns_pure _ _)
  cases callFuncRes with
  | false => exact iff_of_true (pops t none value) (fun asked => Bool.noConfusion asked)
  | true =>
    rw [← callResultCallback_returns plain]
    constructor
    · -- the whole call returned, and the conversion is a part of it
      rintro finished -
      obtain ⟨_, _, delivered, _⟩ := returns_bind.mp finished
      obtain ⟨d, t', converted, _⟩ := bind_eq_ok.mp delivered
      exact ⟨d, t', converted⟩
    · intro converts
      obtain ⟨d, t', converted⟩ := converts rfl
      have level := moves_callResultCallback host _ _ _ converted
      have delivered : deliver host true t = .ok (some d) t' := bind_ok converted _
      refine (returns_bind_of_ok delivered).mpr (pops t' (some d) ?_)
      simp only [stackHeight, Ctx.height] at level value ⊢
      omega

/-- Once a script or a function has completed, the host gets its status back exactly when it asked
for no value, or the value on the stack can be converted. -/
theorem result_returns_iff (plain : PlainHandles host) (entry : EntryPoint) (callFuncRes : Bool)
    (s s' : Ctx H) (status : Int32) (completed : Bool)
    (evaluated : entry.evaluate host callFuncRes s = .ok (status, completed) s') :
    Returns (entry.run host callFuncRes) s ↔
      (completed = true → callFuncRes = true → Deliverable host s') := by
  rw [run_eq, returns_bind_of_ok evaluated]
  cases completed with
  | false => exact iff_of_true (returns_pure _ _) (fun absent => Bool.noConfusion absent)
  | true =>
    have value : 1 ≤ s'.height := by
      have tall := evaluate_height host evaluated
      simp only [stackHeight, Ctx.height] at tall ⊢
      omega
    rw [finish_returns_iff host plain value]
    exact ⟨fun delivers _ => delivers, fun delivers => delivers rfl⟩

/-! ### A cyclic object -/

/-- A host whose scripts complete with an object that JSON cannot encode. -/
def cyclicHost : Host Unit :=
  { idleHost fun _ => ⟨0, 5⟩ with
    call := fun w _ _ _ _ => .returns (.object 1) w 0
    jsonEncode := fun w _ _ => .throws (.string (ascii "cyclic input")) w 0 }

/-- `js_eval` of such a script ends in an error that no protected call catches. -/
theorem cyclic_result_escapes :
    PlainHandles cyclicHost ∧ ∃ s', (EntryPoint.eval (ascii "cyclic()")).evaluate cyclicHost true
        freshEnvironment = .ok (0, true) s' ∧
      (∃ e after, jsEval cyclicHost (ascii "cyclic()") true freshEnvironment =
        .error (.thrown e) after) ∧
      ¬ Returns (jsEval cyclicHost (ascii "cyclic()") true) freshEnvironment := by
  refine ⟨⟨fun _ _ _ => rfl, fun _ _ _ _ => rfl⟩, _, rfl, ⟨_, _, rfl⟩, ?_⟩
  exact not_returns_of_error rfl

theorem result_returns_iff_idle : ∃ s',
    (EntryPoint.eval (ascii "1")).evaluate (idleHost fun _ => ⟨0, 5⟩) true freshEnvironment =
      .ok (0, true) s' ∧
    Returns (jsEval (idleHost fun _ => ⟨0, 5⟩) (ascii "1") true) freshEnvironment := by
  refine ⟨_, rfl, ?_⟩
  exact (result_returns_iff _ (idleHost_plain _) (.eval (ascii "1")) true freshEnvironment _ 0 true
    rfl).mpr fun _ _ => trivial

end DukBridge
