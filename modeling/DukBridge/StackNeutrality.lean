import DukBridge.StackHeights

/-!
# Host calls and the height of the value stack

Each function a host calls is to leave the value stack as high as it found it. All do
but one, which leaves a value behind when the function to call is not found.
-/
namespace DukBridge

open Effect

variable {H : Type} (host : Host H)

/-! ### One function after the other -/

theorem moves_bindFunction (failed : Int32) : Moves (-3) (bindFunction host failed) := by
  -- [ global, func_name, function ]
  apply (moves_putProp host).next
  intro rc
  apply moves_pop.andThen
  exact moves_pure _

theorem neutral_jsRegisterCodeFunc (jsCode : Option Bytes) (funcName : Bytes) :
    Moves 0 (jsRegisterCodeFunc host jsCode funcName) := by
  apply (moves_push _).andThen
  apply (moves_pushBytes funcName).andThen
  apply (moves_pcompileLstring host .function jsCode).next
  intro rc
  apply Shifts.ite
  · -- [ global, func_name, error ]
    apply (moves_safeToString host).andThen
    exact (moves_popN 3).next fun _ => moves_pure _
  · exact moves_bindFunction host _

theorem neutral_jsRegisterFileFunc (scriptFile funcName : Bytes) :
    Moves 0 (jsRegisterFileFunc host scriptFile funcName) := by
  unfold jsRegisterFileFunc
  cases host.readFileContent scriptFile with
  | error ret => exact moves_pure _
  | ok src =>
    apply (moves_push _).andThen
    apply (moves_pushBytes funcName).andThen
    apply (moves_pushBytes scriptFile).andThen
    -- the result takes the place of the file name
    apply (moves_pcompileLstringFilename host .function src).next
    intro rc
    apply Shifts.ite
    · apply (moves_safeToString host).andThen
      exact (moves_popN 3).next fun _ => moves_pure _
    · exact moves_bindFunction host _

theorem neutral_jsUnregisterFunc (funcName : Bytes) :
    Moves 0 (jsUnregisterFunc funcName : Duk H Int32) := by
  apply (moves_push _).andThen
  apply (moves_delPropString funcName).next
  intro rc
  exact moves_pop.next fun _ => moves_pure _

theorem moves_makeFuncBridge (funcName : Bytes) (nativeFunc : Word) (nargs : Int32) (udd : Word) :
    Moves 0 (makeFuncBridge host funcName nativeFunc nargs udd) := by
  apply (moves_pushBytes funcName).andThen
  apply (moves_pushCFunction .nativeFuncBridge nargs).andThen
  apply (moves_push _).andThen
  apply (moves_putPropString host 1 nativeFuncKey).andThen
  apply (moves_push _).andThen
  apply (moves_putPropString host 1 nativeUddKey).andThen
  exact (moves_putProp host).next fun _ => moves_pure _

theorem neutral_jsRegisterNativeFunc (funcName : Bytes) (nativeFunc : Word) (paramNum : Int32)
    (udd : Word) : Moves 0 (jsRegisterNativeFunc host funcName nativeFunc paramNum udd) := by
  apply (moves_push _).andThen
  apply (moves_makeFuncBridge host funcName nativeFunc _ udd).andThen
  exact moves_pop.next fun _ => moves_pure _

theorem neutral_jsUnregisterNativeFunc (funcName : Bytes) :
    Moves 0 (jsUnregisterNativeFunc host funcName) := by
  apply (moves_push _).andThen
  apply (moves_getPropString host 0 funcName).next
  intro found
  apply Shifts.ite
  · -- [ global, undefined ]
    exact (moves_popN 2).next fun _ => moves_pure _
  apply (moves_getPropString host 0 nativeFuncKey).next
  intro native
  apply Shifts.ite
  · -- [ global, func, undefined ]
    exact (moves_popN 3).next fun _ => moves_pure _
  apply (moves_popN 2).andThen
  apply (moves_delPropString funcName).andThen
  exact moves_pop.next fun _ => moves_pure _

theorem neutral_jsRegisterVar (varName : Bytes) (valType : ArgFormat) (val valSize : Word) :
    Moves 0 (jsRegisterVar host varName valType val valSize) := by
  apply (moves_push _).andThen
  have added : Moves 0 (jsAddModuleAttr host ⟨varName, valType, val, valSize⟩) :=
    (moves_pushAttr host _).next fun _ => moves_putPropString host 1 varName
  apply added.andThen
  exact moves_pop.next fun _ => moves_pure _

theorem neutral_jsCallFileFunc (scriptFile : Bytes) (callFuncRes : Bool) (fmt : Option Bytes)
    (argv : List Word) : Moves 0 (jsCallFileFunc host scriptFile callFuncRes fmt argv) := by
  unfold jsCallFileFunc
  cases host.readFileContent scriptFile with
  | error ret => exact moves_pure _
  | ok src =>
    apply (moves_pcompileLstring host .function src).next
    intro rc
    apply Shifts.ite
    · apply (moves_safeToString host).andThen
      exact moves_pop.next fun _ => moves_pure _
    · exact moves_pushArgsAndCallFunc host callFuncRes fmt argv

theorem neutral_jsCallEcmascriptFunc (ecmaFunc : Word) (callFuncRes : Bool) (fmt : Option Bytes)
    (argv : List Word) : Moves 0 (jsCallEcmascriptFunc host ecmaFunc callFuncRes fmt argv) := by
  apply (moves_loadObject host ecmaFunc).andThen
  exact moves_pushArgsAndCallFunc host callFuncRes fmt argv

theorem neutral_jsEval (jsCode : Option Bytes) (callFuncRes : Bool) :
    Moves 0 (jsEval host jsCode callFuncRes) := by
  apply (moves_pevalLstring host jsCode).next
  intro ret
  apply (moves_deliver host callFuncRes).next
  intro delivered
  exact moves_pop.next fun _ => moves_pure _

theorem neutral_fileNotRead (scriptFile : Bytes) (ret : Int32) (callFuncRes : Bool) :
    Moves 0 (fileNotRead host scriptFile ret callFuncRes) := by
  refine .ite ?_ (moves_pure _)
  apply (moves_pushErrorObject host _).andThen
  apply (moves_callResultCallback host).next
  intro delivered
  exact moves_pop.next fun _ => moves_pure _

theorem neutral_jsEvalFile (scriptFile : Bytes) (callFuncRes : Bool) :
    Moves 0 (jsEvalFile host scriptFile callFuncRes) := by
  unfold jsEvalFile
  cases host.readFileContent scriptFile with
  | error ret => exact neutral_fileNotRead host scriptFile ret callFuncRes
  | ok src => exact neutral_jsEval host src callFuncRes

theorem neutral_jsCheckSyntax (jsCode : Option Bytes) (callFuncRes : Bool) :
    Moves 0 (jsCheckSyntax host jsCode callFuncRes) := by
  apply (moves_pcompileLstring host .program jsCode).next
  intro ret
  have delivered : Moves (-1) (do
      let delivered ← deliver host callFuncRes
      pop
      return ((if ret = 0 then 0 else -1 : Int32), delivered)) := by
    apply (moves_deliver host callFuncRes).next
    intro delivered
    exact moves_pop.next fun _ => moves_pure _
  -- what compiles is replaced by undefined
  refine .ite ?_ delivered
  apply (moves_push _).andThen
  exact (moves_removeAt 1).next fun _ => delivered

theorem neutral_jsCheckSyntaxFile (scriptFile : Bytes) (callFuncRes : Bool) :
    Moves 0 (jsCheckSyntaxFile host scriptFile callFuncRes) := by
  unfold jsCheckSyntaxFile
  cases host.readFileContent scriptFile with
  | error ret => exact neutral_fileNotRead host scriptFile ret callFuncRes
  | ok src => exact neutral_jsCheckSyntax host src callFuncRes

theorem moves_putPointer (p : Word) (key : Bytes) : Moves 0 (putPointer host p key) :=
  (moves_push _).next fun _ => moves_putPropString host 1 key

theorem neutral_jsAddModuleLoader (udd : Word) (modExt : Bytes)
    (loadModule getMethodsList getAttrsList finalizer : Word) :
    Moves 0 (jsAddModuleLoader host udd modExt loadModule getMethodsList getAttrsList finalizer) := by
  have requireInt : Moves 0 (requireInt : Duk H Int32) := by
    apply (moves_getAt 0).next
    intro v
    cases v with
    | number d => exact moves_pure _
    | _ => exact moves_raise _ _
  apply (moves_push _).andThen
  apply (moves_getPropString host 0 nativeModCountKey).next
  intro found
  have counted : ∀ loaderCount : Int32, Moves (-2) (do
      pop
      pushInt (loaderCount + 1)
      putPropString host 1 nativeModCountKey
      pushObject
      pushBytes modExt
      putPropString host 1 (ascii "_nme_")
      putPointer host loadModule (ascii "_nml_")
      putPointer host getMethodsList (ascii "_nmm_")
      putPointer host getAttrsList (ascii "_nma_")
      putPointer host finalizer (ascii "_nmf_")
      putPointer host udd (ascii "_nu_")
      putPropString host 1 (getNativeModNum (sizeOfInt loaderCount))
      pop) := by
    intro loaderCount
    apply moves_pop.andThen
    apply (moves_push _).andThen
    apply (moves_putPropString host 1 _).andThen
    -- [ global, loader ], whose properties come and go one by one
    apply (moves_pushNew _ _).andThen
    apply (moves_pushBytes modExt).andThen
    apply (moves_putPropString host 1 _).andThen
    apply (moves_putPointer host _ _).andThen
    apply (moves_putPointer host _ _).andThen
    apply (moves_putPointer host _ _).andThen
    apply (moves_putPointer host _ _).andThen
    apply (moves_putPointer host _ _).andThen
    apply (moves_putPropString host 1 _).andThen
    exact moves_pop
  -- the count of loaders, or 0 for the first one
  apply Shifts.ite
  · exact requireInt.next counted
  · exact counted 0

/-! ### The look-up that fails -/

/-- Neither the global object nor a prototype of it has a property of this name. -/
def Missing (ctx : Ctx H) (name : Bytes) : Prop :=
  ∃ v after, readProp host (.object globalId) name ctx = .ok (v, false) after

theorem getGlobalString_missing {ctx after : Ctx H} {name : Bytes} {found : Bool}
    (returned : getGlobalString host name ctx = .ok found after) :
    Missing host ctx name ↔ found = false := by
  obtain ⟨_, mid, room, rest⟩ := bind_eq_ok.mp returned
  rw [(requireRoom_eq_ok.mp room).2] at rest
  obtain ⟨⟨v, has⟩, read, here, last⟩ := bind_eq_ok.mp rest
  have same : found = has := by
    -- a value that was found needs one slot more, and nothing else is different
    cases has with
    | false =>
      obtain ⟨_, _, _, stop⟩ := bind_eq_ok.mp last
      cases stop
      rfl
    | true =>
      obtain ⟨_, _, _, more⟩ := bind_eq_ok.mp last
      obtain ⟨_, _, _, stop⟩ := bind_eq_ok.mp more
      cases stop
      rfl
  constructor
  · rintro ⟨w, other, absent⟩
    rw [here] at absent
    cases absent
    exact same
  · intro absent
    rw [absent] at same
    exact ⟨v, read, same ▸ here⟩

/-- A call of a function that is not found leaves what its look-up pushed. -/
theorem jsCallRegisteredFunc_height {funcName : Bytes} {callFuncRes : Bool} {fmt : Option Bytes}
    {argv : List Word} {s t : Ctx H} {a : Returned}
    (returned : jsCallRegisteredFunc host funcName callFuncRes fmt argv s = .ok a t) :
    Missing host s funcName ∧ t.height = s.height + 1 ∨
      ¬ Missing host s funcName ∧ t.height = s.height := by
  obtain ⟨found, mid, looked, rest⟩ := bind_eq_ok.mp returned
  have missing := getGlobalString_missing host looked
  have pushed := moves_getGlobalString host funcName _ _ _ looked
  cases found with
  | false =>
    -- the early return, without the pop the other functions have
    cases rest
    refine .inl ⟨missing.mpr rfl, ?_⟩
    simp only [stackHeight, Ctx.height] at pushed ⊢
    omega
  | true =>
    have called := moves_pushArgsAndCallFunc host callFuncRes fmt argv _ _ _ rest
    refine .inr ⟨fun absent => Bool.noConfusion (missing.mp absent), ?_⟩
    simp only [stackHeight, Ctx.height] at pushed called ⊢
    omega

/-! ### Sequences of calls -/

inductive HostCall where
  | registerVar (varName : Bytes) (valType : ArgFormat) (val valSize : Word)
  | registerCodeFunc (jsCode : Option Bytes) (funcName : Bytes)
  | registerFileFunc (scriptFile funcName : Bytes)
  | unregisterFunc (funcName : Bytes)
  | registerNativeFunc (funcName : Bytes) (nativeFunc : Word) (paramNum : Int32) (udd : Word)
  | unregisterNativeFunc (funcName : Bytes)
  | callRegisteredFunc (funcName : Bytes) (callFuncRes : Bool) (fmt : Option Bytes)
      (argv : List Word)
  | callFileFunc (scriptFile : Bytes) (callFuncRes : Bool) (fmt : Option Bytes) (argv : List Word)
  | callEcmascriptFunc (ecmaFunc : Word) (callFuncRes : Bool) (fmt : Option Bytes)
      (argv : List Word)
  | eval (jsCode : Option Bytes) (callFuncRes : Bool)
  | evalFile (scriptFile : Bytes) (callFuncRes : Bool)
  | checkSyntax (jsCode : Option Bytes) (callFuncRes : Bool)
  | checkSyntaxFile (scriptFile : Bytes) (callFuncRes : Bool)
  | addModuleLoader (udd : Word) (modExt : Bytes)
      (loadModule getMethodsList getAttrsList finalizer : Word)
  | destroyEcmascriptObj (ecmaObj : Word)

namespace HostCall

def run : HostCall → Duk H Unit
  | registerVar varName valType val valSize => do
    let _ ← jsRegisterVar host varName valType val valSize
  | registerCodeFunc jsCode funcName => do
    let _ ← jsRegisterCodeFunc host jsCode funcName
  | registerFileFunc scriptFile funcName => do
    let _ ← jsRegisterFileFunc host scriptFile funcName
  | unregisterFunc funcName => do
    let _ ← jsUnregisterFunc funcName
  | registerNativeFunc funcName nativeFunc paramNum udd => do
    let _ ← jsRegisterNativeFunc host funcName nativeFunc paramNum udd
  | unregisterNativeFunc funcName => do
    let _ ← jsUnregisterNativeFunc host funcName
  | callRegisteredFunc funcName callFuncRes fmt argv => do
    let _ ← jsCallRegisteredFunc host funcName callFuncRes fmt argv
  | callFileFunc scriptFile callFuncRes fmt argv => do
    let _ ← jsCallFileFunc host scriptFile callFuncRes fmt argv
  | callEcmascriptFunc ecmaFunc callFuncRes fmt argv => do
    let _ ← jsCallEcmascriptFunc host ecmaFunc callFuncRes fmt argv
  | eval jsCode callFuncRes => do
    let _ ← jsEval host jsCode callFuncRes
  | evalFile scriptFile callFuncRes => do
    let _ ← jsEvalFile host scriptFile callFuncRes
  | checkSyntax jsCode callFuncRes => do
    let _ ← jsCheckSyntax host jsCode callFuncRes
  | checkSyntaxFile scriptFile callFuncRes => do
    let _ ← jsCheckSyntaxFile host scriptFile callFuncRes
  | addModuleLoader udd modExt loadModule getMethodsList getAttrsList finalizer =>
    jsAddModuleLoader host udd modExt loadModule getMethodsList getAttrsList finalizer
  | destroyEcmascriptObj ecmaObj => jsDestroyEcmascriptObj ecmaObj

/-- The call is one of `js_call_registered_func`, for a function that does not exist. -/
def LooksUpMissing (call : HostCall) (s : Ctx H) : Prop :=
  match call with
  | callRegisteredFunc funcName _ _ _ => Missing host s funcName
  | _ => False

variable {host}

theorem height_of_moves {m : Duk H Unit} (moves : Moves 0 m) {s t : Ctx H} (returned : m s = .ok () t) :
    t.height = s.height := by
  have same := moves s () t returned
  simp only [stackHeight] at same
  simp only [Ctx.height]
  omega

theorem height_iff {call : HostCall} {s t : Ctx H} (returned : call.run host s = .ok () t) :
    t.height = s.height ↔ ¬ call.LooksUpMissing host s := by
  have neutral : Moves 0 (call.run host) → (t.height = s.height ↔ ¬ False) :=
    fun moves => iff_of_true (height_of_moves moves returned) not_false
  -- the status does not matter to the height
  have discards : ∀ {α : Type} {m : Duk H α}, Moves 0 m → Moves 0 (do let _ ← m) :=
    fun moves => moves.next fun _ => moves_pure _
  cases call with
  | callRegisteredFunc funcName callFuncRes fmt argv =>
    obtain ⟨_, _, called, same⟩ := bind_eq_ok.mp returned
    cases same
    simp only [LooksUpMissing]
    rcases jsCallRegisteredFunc_height host called with ⟨missing, taller⟩ | ⟨present, level⟩
    · exact iff_of_false (by omega) (not_not_intro missing)
    · exact iff_of_true level present
  | registerVar => exact neutral (discards (neutral_jsRegisterVar host _ _ _ _))
  | registerCodeFunc => exact neutral (discards (neutral_jsRegisterCodeFunc host _ _))
  | registerFileFunc => exact neutral (discards (neutral_jsRegisterFileFunc host _ _))
  | unregisterFunc => exact neutral (discards (neutral_jsUnregisterFunc _))
  | registerNativeFunc => exact neutral (discards (neutral_jsRegisterNativeFunc host _ _ _ _))
  | unregisterNativeFunc => exact neutral (discards (neutral_jsUnregisterNativeFunc host _))
  | callFileFunc => exact neutral (discards (neutral_jsCallFileFunc host _ _ _ _))
  | callEcmascriptFunc => exact neutral (discards (neutral_jsCallEcmascriptFunc host _ _ _ _))
  | eval => exact neutral (discards (neutral_jsEval host _ _))
  | evalFile => exact neutral (discards (neutral_jsEvalFile host _ _))
  | checkSyntax => exact neutral (discards (neutral_jsCheckSyntax host _ _))
  | checkSyntaxFile => exact neutral (discards (neutral_jsCheckSyntaxFile host _ _))
  | addModuleLoader => exact neutral (neutral_jsAddModuleLoader host _ _ _ _ _ _)
  | destroyEcmascriptObj => exact neutral (moves_destroyObject _)

end HostCall

/-- Calls made one after the other, each with the state it returned in. -/
def HostRun : Ctx H → List (HostCall × Ctx H) → Prop
  | _, [] => True
  | s, (call, t) :: rest => call.run host s = .ok () t ∧ HostRun t rest

/-- Every call leaves the height as it found it. -/
def StackNeutral : Ctx H → List (HostCall × Ctx H) → Prop
  | _, [] => True
  | s, (_, t) :: rest => t.height = s.height ∧ StackNeutral t rest

/-- No call is one of a function that does not exist. -/
def FindsFunctions : Ctx H → List (HostCall × Ctx H) → Prop
  | _, [] => True
  | s, (call, t) :: rest => ¬ call.LooksUpMissing host s ∧ FindsFunctions t rest

/-- A sequence of calls keeps the height at every step exactly when `js_call_registered_func` is
never asked for a function that does not exist. -/
theorem stackNeutral_iff (env : Ctx H) (calls : List (HostCall × Ctx H))
    (run : HostRun host env calls) : StackNeutral env calls ↔ FindsFunctions host env calls := by
  induction calls generalizing env with
  | nil => exact Iff.rfl
  | cons step rest ih =>
    obtain ⟨call, t⟩ := step
    obtain ⟨returned, others⟩ := run
    -- one call at a time, each from the state the one before returned in
    exact and_congr (HostCall.height_iff returned) (ih t others)

/-- Registering a variable and removing it again. -/
theorem stackNeutral_iff_registerVar : ∃ after gone,
    HostRun (idleHost fun _ => ⟨0, 5⟩) freshEnvironment
      [(.registerVar (ascii "x") .bool 1 0, after), (.unregisterFunc (ascii "x"), gone)] ∧
    StackNeutral freshEnvironment
      [(.registerVar (ascii "x") .bool 1 0, after), (.unregisterFunc (ascii "x"), gone)] := by
  refine ⟨_, _, ⟨rfl, rfl, trivial⟩, ?_⟩
  apply (stackNeutral_iff (idleHost fun _ => ⟨0, 5⟩) freshEnvironment
    [(.registerVar (ascii "x") .bool 1 0, _), (.unregisterFunc (ascii "x"), _)]
    ⟨rfl, rfl, trivial⟩).mpr
  exact ⟨not_false, not_false, trivial⟩

/-- A call of an unknown function returns -1 with undefined left on the stack. -/
theorem stack_grows_on_unknown_function : ∃ after,
    HostRun (idleHost fun _ => ⟨0, 5⟩) freshEnvironment
      [(.callRegisteredFunc (ascii "f") true none [], after)] ∧
    ¬ StackNeutral freshEnvironment [(.callRegisteredFunc (ascii "f") true none [], after)] := by
  refine ⟨_, ⟨rfl, trivial⟩, ?_⟩
  intro neutral
  exact absurd neutral.1 (by decide)

end DukBridge
