import DukBridge.CallOutcomes
import DukBridge.HandleAccounts

/-!
# Handles that leave with a call

A Go function is given the functions among its arguments and the caller of a script its result.
What was saved on the way is in the table afterwards for nobody when the call takes another turn.
-/
namespace DukBridge

open Effect KeyStore

variable {H : Type} {host : Host H} {S σ : Type} {held : H → Ledger Word JsVal}
  {pending : Ledger Word JsVal}

/-! ### The entry points -/

section Rules

variable {R : World H → World H → Prop} (respects : host.Respects R)
  (creates : ∀ w free create udd, (host.createInstance w free create udd).Within R w)
include respects creates

theorem within_pushArgsAndPcall (fmt : Option Bytes) (argv : List Word) :
    Within R (pushArgsAndPcall host fmt argv) := by
  have pushes : Within R (pushCallArgs host fmt argv) := by
    cases fmt with
    | none => exact within_pure respects 0
    | some fmt => exact within_pushArgs respects creates argv fmt 0 0
  apply within_bind respects pushes
  intro argc
  exact within_bind respects (within_pcall respects argc) fun _ => within_pure respects _

theorem within_evaluate (entry : EntryPoint) : Within R (entry.evaluate host true) := by
  have evaluates : ∀ src, Within R (do
      let ret ← pevalLstring host src
      return (if ret = 0 then 0 else -1, true) : Duk H (Int32 × Bool)) := fun src =>
    within_bind respects (within_pevalLstring respects src) fun _ => within_pure respects _
  have calls : ∀ fmt argv, Within R (do
      return (← pushArgsAndPcall host fmt argv, true) : Duk H (Int32 × Bool)) := fun fmt argv =>
    within_bind respects (within_pushArgsAndPcall respects creates fmt argv)
      fun _ => within_pure respects _
  -- each entry point evaluates or calls, if it finds something to
  cases entry with
  | eval jsCode => exact evaluates jsCode
  | evalFile scriptFile =>
    rw [EntryPoint.evaluate]
    cases host.readFileContent scriptFile with
    | ok src => exact evaluates src
    | error ret =>
      refine .ite ?_ (within_pure respects _)
      exact within_andThen respects (within_pushErrorObject respects _) (within_pure respects _)
  | callRegisteredFunc funcName fmt argv =>
    apply within_bind respects (within_getGlobalString respects funcName)
    intro found
    exact .ite (within_pure respects _) (calls fmt argv)
  | callFileFunc scriptFile fmt argv =>
    rw [EntryPoint.evaluate]
    cases host.readFileContent scriptFile with
    | error ret => exact within_pure respects _
    | ok src =>
      apply within_bind respects (within_pcompileLstring respects .function src)
      intro rc
      refine .ite ?_ (calls fmt argv)
      apply within_bind respects (within_safeToString respects)
      intro _
      exact within_andThen respects (within_popN respects 1) (within_pure respects _)
  | callEcmascriptFunc ecmaFunc fmt argv =>
    exact within_bind respects (within_loadObject respects ecmaFunc) fun _ => calls fmt argv

end Rules

/-! ### The result of a host call -/

def GoRes.handle? : GoRes → Option Word
  | .ecmaObject h => some h
  | _ => none

/-- The conversion saves a function and nothing else, and Go receives what was saved. -/
theorem balanced_callResultCallback (plain : PlainHandles host)
    (scripts : ScriptsAccount host held) {t t' : Ctx H} (inside : 1 ≤ t.height)
    (fresh : t.EcmascriptFunction (t.get 0) → t.world.saved (nextHandle host t) = none)
    (balanced : Balanced held pending t.world) {d : Delivered}
    (converted : callResultCallback host t = .ok d t') : ∃ given : Ledger Word JsVal,
      Balanced held (given ++ pending) t'.world ∧
      (given = [] ↔ ¬ t.EcmascriptFunction (t.get 0)) ∧
      given.keys = (goResultReceived host.mem d).handle?.toList := by
  by_cases function : t.EcmascriptFunction (t.get 0)
  · have unsaved := fresh function
    obtain ⟨id, top, _⟩ := function.object
    obtain ⟨h, saves, rfl⟩ := callResultCallback_function top (top ▸ function) converted
    have copied : (t.pushed (.object id)).stack = .object id :: t.stack := rfl
    have one : Balanced held ((h, .object id) :: pending) t'.world :=
      balanced_save plain copied unsaved saves balanced
    exact ⟨[(h, .object id)], one, iff_of_false (List.cons_ne_nil _ _) fun not => not function, rfl⟩
  · have kept := callResultCallback_within scripts.respects (s := t) fun id top isFunction => by
      rw [top] at function
      exact absurd isFunction function
    rw [converted] at kept
    refine ⟨[], kept pending balanced, iff_of_true rfl function, ?_⟩
    have noHandle : (goResultReceived host.mem d).handle? = none := by
      rcases callResultCallback_received inside converted with ⟨_, _, text, received⟩ | ⟨_, image⟩
      · rw [received]
        rfl
      · generalize t.get 0 = v at image function
        generalize goResultReceived host.mem d = res at image ⊢
        cases image with
        | function isFunction _ => exact absurd isFunction function
        | _ => rfl
    rw [noHandle]
    rfl

/-- The caller gets the handle with a status of 0, and nothing with any other. -/
theorem parse_handle (status : Int32) (d : Delivered) :
    (Returned.parse host.mem (status, some d)).1.handle? =
      if status = 0 then (goResultReceived host.mem d).handle? else none := by
  rw [parse_eq]
  by_cases ok : status = 0
  · cases goResultReceived host.mem d <;> simp [ok, GoRes.handle?]
  · cases goResultReceived host.mem d <;> simp [ok, GoRes.handle?]

theorem parse_none (status : Int32) : (Returned.parse host.mem (status, none)).1 = .nil := by
  by_cases ok : status = 0 <;> simp [Returned.parse, parseResult, ok]

/-- What is thrown is no function. -/
def ThrowsNoFunction (host : Host H) (entry : EntryPoint) (s : Ctx H) : Prop :=
  ∀ e t, Leaves host s entry (.abrupt e) t → ¬ t.EcmascriptFunction e

/-- A function that is left for the callback is not saved under a microsecond in use. -/
def FreshResult (host : Host H) (entry : EntryPoint) (s : Ctx H) : Prop :=
  ∀ c t, Leaves host s entry c t → t.EcmascriptFunction c.value →
    t.world.saved (nextHandle host t) = none

/-- With the value of the call its handle is handed over, if it has one. -/
def Settles (held : H → Ledger Word JsVal) (pending : Ledger Word JsVal) (value : GoRes)
    (w : World H) : Prop :=
  ∃ given : Ledger Word JsVal, given.keys = value.handle?.toList ∧
    Balanced held (given ++ pending) w

theorem settles_none {value : GoRes} {w : World H} (noHandle : value.handle? = none) :
    Settles held pending value w ↔ Balanced held pending w := by
  rw [Settles, noHandle]
  constructor
  · rintro ⟨given, keys, balanced⟩
    rw [List.map_eq_nil_iff.mp keys] at balanced
    exact balanced
  · exact fun balanced => ⟨[], rfl, balanced⟩

/-- The value of the evaluation is converted whatever the status, and handed over only with a
status of 0. -/
theorem settles_finish (plain : PlainHandles host) (scripts : ScriptsAccount host held)
    {t s' : Ctx H} {status : Int32} {returned : Returned} (inside : 1 ≤ t.height)
    (fresh : t.EcmascriptFunction (t.get 0) → t.world.saved (nextHandle host t) = none)
    (balanced : Balanced held pending t.world)
    (finished : finish host true status true t = .ok returned s') :
    Settles held pending (returned.parse host.mem).1 s'.world ↔
      (t.EcmascriptFunction (t.get 0) → status = 0) := by
  obtain ⟨delivered, after, conversion, popped⟩ := bind_eq_ok.mp finished
  obtain ⟨d, _, converted, same⟩ := bind_eq_ok.mp conversion
  obtain ⟨_, _, dropped, last⟩ := bind_eq_ok.mp popped
  obtain ⟨_, rfl⟩ := popN_eq_ok.mp dropped
  cases same
  cases last
  obtain ⟨given, kept, nothing, keys⟩ :=
    balanced_callResultCallback plain scripts inside fresh balanced converted
  -- with another status the saved function is lost
  by_cases ok : status = 0
  · refine iff_of_true ⟨given, ?_, kept⟩ fun _ => ok
    rw [keys, parse_handle, if_pos ok]
  · have noHandle : (Returned.parse host.mem (status, some d)).1.handle? = none := by
      rw [parse_handle, if_neg ok]
    rw [settles_none noHandle]
    constructor
    · intro settled function
      have some : given ≠ [] := fun empty => nothing.mp empty function
      exact absurd settled (kept.not_of_pending some)
    · intro drops
      have empty : given = [] := nothing.mpr fun function => ok (drops function)
      rwa [empty, List.nil_append] at kept

theorem balanced_hostCall (plain : PlainHandles host) (scripts : ScriptsAccount host held)
    (go : GoRuntime host.mem S σ) (call : GoCall host.mem S) (st : σ) {s s' : Ctx H}
    {result : GoRes × Option GoErr} (fresh : FreshResult host (call.entry host go st) s)
    (balanced : Balanced held pending s.world)
    (returned : (call.run host go st).1 s = .ok result s') :
    Settles held pending result.1 s'.world ↔ ThrowsNoFunction host (call.entry host go st) s := by
  have evaluates := within_evaluate scripts.respects scripts.createInstance (call.entry host go st) s
    pending balanced
  rw [GoCall.run_eq] at returned
  obtain ⟨raw, last, ran, parsed⟩ := bind_eq_ok.mp returned
  cases parsed
  rw [run_eq] at ran
  obtain ⟨⟨status, completed⟩, t, evaluated, finished⟩ := bind_eq_ok.mp ran
  rw [evaluated] at evaluates
  cases completed with
  | false =>
    -- nothing is left to be converted
    cases finished
    rw [settles_none (by rw [parse_none]; rfl)]
    refine iff_of_true evaluates fun e t' leaves => ?_
    have other := evaluate_iff_leaves.mpr ⟨_, leaves, rfl⟩
    rw [evaluated] at other
    cases other
  | true =>
    have inside : 1 ≤ t.height := by
      have height := evaluate_height host evaluated
      simp only [stackHeight, Ctx.height] at height ⊢
      omega
    obtain ⟨c, leaves, known⟩ := evaluate_iff_leaves.mp evaluated
    have top := leaves_top leaves
    rw [settles_finish plain scripts inside (fun function => fresh c t leaves (top ▸ function))
      evaluates finished, top]
    constructor
    · intro one e t' thrown function
      have other := evaluate_iff_leaves.mpr ⟨_, thrown, rfl⟩
      rw [evaluated] at other
      cases other
      have same := leaves_top thrown
      rw [top] at same
      exact EntryPoint.failure_ne_zero _ (one (same ▸ function))
    · intro throws function
      cases c with
      | normal v => exact known
      | abrupt e => exact absurd function (throws e t leaves)

/-- In every environment, between a call and its end, the table has changed by what the program was
given and has destroyed. For a call of a Go function this is so exactly if the function takes the
arguments once one of them is saved; for a call that runs JavaScript it is so exactly if no function
is thrown. Every save reads a microsecond that is not in use. -/
theorem no_handle_lost_iff (plain : PlainHandles host) (scripts : ScriptsAccount host held)
    (go : GoRuntime host.mem S σ) :
    (∀ (gf : GoFunc host.mem S) (body : World H → Nat → List GoArg → Outcome H NativeResult)
      (values : List JsVal) (entry : Ctx H) (currentFunction : JsVal) (pending : Ledger Word JsVal),
      entry.stack = values.reverse →
      (∀ nativeFunc udd ctx,
        getNativeFunc host currentFunction entry = .ok (nativeFunc, udd) ctx →
        GoServes host held gf body nativeFunc udd ∧ FreshArguments host values ctx) →
      Balanced held pending entry.world →
      (∀ s, nativeFuncBridge host currentFunction entry ≠ .error .noReturn s) →
      (Balanced held pending (endState (nativeFuncBridge host currentFunction entry)).world ↔
        ∀ nativeFunc udd ctx,
          getNativeFunc host currentFunction entry = .ok (nativeFunc, udd) ctx →
          AllocatesBlock host values → TakesIfSaved gf values ctx)) ∧
    ∀ (call : GoCall host.mem S) (st : σ) (s s' : Ctx H) (value : GoRes) (err : Option GoErr)
      (pending : Ledger Word JsVal),
      FreshResult host (call.entry host go st) s → Balanced held pending s.world →
      (call.run host go st).1 s = .ok (value, err) s' →
      (Settles held pending value s'.world ↔ ThrowsNoFunction host (call.entry host go st) s) := by
  refine ⟨?_, ?_⟩
  · intro gf body values entry currentFunction pending stack serves balanced ended
    exact balanced_nativeFuncBridge plain scripts stack serves balanced ended
  · intro call st s s' value err pending fresh balanced returned
    exact balanced_hostCall plain scripts go call st fresh balanced returned

/-! ### A program that keeps what it is given -/

/-- A Go function with these parameters. -/
def takes (params : List GoType) : GoFunc (fun _ => 0) Unit where
  params
  variadic := false
  call _ := []
  implements _ _ := false
  unmarshal _ := none

/-- The objects of the handles it is called with are the program's. -/
def keep (w : World (Ledger Word JsVal)) (_ : Nat) (argv : List GoArg) :
    Outcome (Ledger Word JsVal) NativeResult :=
  let given := (handles argv).filterMap fun h => (w.saved h).map fun v => (h, v)
  .returns .none { w with heap := given ++ w.heap } 0

/-- A host whose functions end in this way, and whose native functions are all the same. -/
def keepingHost (params : List GoType) (c : Completion) : Host (Ledger Word JsVal) where
  mem _ := 0
  gettimeofday n := ⟨0, Int64.ofNat n⟩
  readFileContent _ := .error (-1)
  call w _ _ _ _ :=
    match c with
    | .normal v => .returns v w 0
    | .abrupt e => .throws e w 0
  compile w _ _ _ _ := .returns .undefined w 0
  jsonEncode w _ _ := .returns none w 0
  jsonDecode w _ _ := .returns .null w 0
  readThrough w _ _ _ := .returns none w 0
  writeThrough _ _ _ _ _ := none
  errorObject w _ _ := .returns .undefined w 0
  safeToString w _ _ := some ([], w, 0)
  native w free _ _ args := goFuncBridge (takes params) keep w free args
  address _ _ := 4096
  createInstance w _ _ _ := .returns none w 0
  mallocs _ := true

/-- Object 1 is a function of a script, and object 2 the native function. -/
def keepingFrame (values : List JsVal) : Ctx (Ledger Word JsVal) where
  stack := values.reverse
  reserve := values.length + 64
  world := ⟨adderWorld.objects, 3, 0, []⟩

section Keeping

variable (params : List GoType) (c : Completion)

theorem keepingHost_plain : PlainHandles (keepingHost params c) :=
  ⟨fun _ _ _ => rfl, fun _ _ _ _ => rfl⟩

theorem keepingHost_accounts : ScriptsAccount (keepingHost params c) id where
  call w _ _ _ _ := by cases c <;> exact fun _ balanced => balanced
  compile w _ _ _ _ := fun _ balanced => balanced
  jsonEncode w _ _ := fun _ balanced => balanced
  jsonDecode w _ _ := fun _ balanced => balanced
  readThrough w _ _ _ := fun _ balanced => balanced
  errorObject w _ _ := fun _ balanced => balanced
  safeToString w _ _ _ _ _ converted := by
    cases converted
    exact fun _ balanced => balanced
  createInstance w _ _ _ := fun _ balanced => balanced

theorem keep_accounts {given : Ledger Word JsVal} {argv : List GoArg}
    {w : World (Ledger Word JsVal)} {pending : Ledger Word JsVal}
    (keys : given.keys.Perm (handles argv)) (balanced : Balanced id (given ++ pending) w) :
    Balanced id pending { w with heap :=
      ((handles argv).filterMap fun h => (w.saved h).map fun v => (h, v)) ++ w.heap } := by
  have found : ∀ entry ∈ given, (w.saved entry.1).map (fun v => (entry.1, v)) = some entry := by
    rintro ⟨h, v⟩ member
    rw [(balanced.lists.exact h v).mpr (by simp [member])]
    rfl
  have same : (given.keys.filterMap fun h => (w.saved h).map fun v => (h, v)) = given := by
    rw [Ledger.keys, List.filterMap_map]
    calc given.filterMap _ = given.filterMap some := List.filterMap_congr found
      _ = given := List.filterMap_some
  have kept := keys.filterMap fun h => (w.saved h).map fun v => (h, v)
  rw [same] at kept
  refine ⟨balanced.allocated, balanced.lists.perm ?_⟩
  have moved : (given ++ pending ++ w.heap).Perm (pending ++ given ++ w.heap) :=
    List.perm_append_comm.append_right w.heap
  rw [List.append_assoc pending] at moved
  exact moved.trans ((kept.append_right w.heap).append_left pending)

theorem keepingHost_serves (nativeFunc udd : Word) :
    GoServes (keepingHost params c) id (takes params) keep nativeFunc udd where
  native _ _ _ := rfl
  accounts _ _ _ := fun _ _ keys balanced => keep_accounts keys balanced

theorem keepingFrame_balanced (values : List JsVal) : Balanced id [] (keepingFrame values).world :=
  ⟨show (3 : Nat) ≠ 0 by decide, Lists.empty⟩

end Keeping

def anyText (params : List GoType) (c : Completion) : GoBytes (keepingHost params c).mem :=
  ⟨16, [0, 0], rfl, by decide, fun _ => by decide⟩

theorem not_balanced_of_saved {w : World (Ledger Word JsVal)} (nothing : w.heap = []) {h : Word}
    {v : JsVal} (here : w.saved h = some v) : ¬ Balanced id [] w := by
  intro balanced
  have listed := (balanced.lists.exact h v).mp here
  rw [List.nil_append, id, nothing] at listed
  cases listed

/-- `f(fn, "x")` saves the function, and `"x"` is no value for the second parameter of `f`. A
function that is thrown is saved, and what the caller gets is an error. -/
theorem handles_lost :
    (∃ s, nativeFuncBridge (keepingHost [.ecmaObjectPtr, .int .int] (.normal .undefined)) (.object 2)
        (keepingFrame [.object 1, .string (ascii "x")]) = .ok 0 s ∧
      s.world.saved 0 = some (.object 1) ∧ ¬ Balanced id [] s.world) ∧
    ∃ s, JSEnv.eval (keepingHost [] (.abrupt (.object 1))) (anyText _ _) (keepingFrame []) =
        .ok (.nil, some (.code (-1))) s ∧
      s.world.saved 0 = some (.object 1) ∧ ¬ Settles id [] .nil s.world := by
  refine ⟨⟨_, rfl, rfl, ?_⟩, _, rfl, rfl, ?_⟩
  · exact not_balanced_of_saved (h := 0) rfl rfl
  · rw [settles_none rfl]
    exact not_balanced_of_saved (h := 0) rfl rfl

/-- `f(fn, "x")` for a function of a script and a string, and a script that completes with a
function. -/
theorem no_handle_lost_kept :
    (∃ s, nativeFuncBridge (keepingHost [.ecmaObjectPtr, .string] (.normal (.object 1))) (.object 2)
        (keepingFrame [.object 1, .string (ascii "x")]) = .ok 0 s ∧
      s.world.heap = [(0, .object 1)] ∧ Balanced id [] s.world) ∧
    ∃ s, JSEnv.eval (keepingHost [.ecmaObjectPtr, .string] (.normal (.object 1))) (anyText _ _)
        (keepingFrame []) = .ok (.ecmaObject 0, none) s ∧
      Settles id [] (.ecmaObject 0) s.world := by
  obtain ⟨argument, result⟩ := no_handle_lost_iff
    (keepingHost_plain [.ecmaObjectPtr, .string] (.normal (.object 1)))
    (keepingHost_accounts [.ecmaObjectPtr, .string] (.normal (.object 1)))
    (bareRuntime fun _ => 0)
  refine ⟨⟨_, rfl, rfl, ?_⟩, _, rfl, ?_⟩
  · have balanced := argument (takes [.ecmaObjectPtr, .string]) keep
      [.object 1, .string (ascii "x")] (keepingFrame [.object 1, .string (ascii "x")])
      (.object 2) [] rfl ?_ (keepingFrame_balanced _) ?_
    · refine balanced.mpr fun nativeFunc udd ctx found _ _ => ?_
      cases found
      refine ⟨fun m within _ => ?_, rfl, fun i within => ?_⟩
      · match m, within with
        | 0, _ => exact ⟨by decide, rfl⟩
        | 1, _ => trivial
      · match i, within with
        | 0, _ => exact ⟨_, rfl, rfl⟩
        | 1, _ => exact ⟨_, rfl, rfl⟩
    · intro nativeFunc udd ctx found
      refine ⟨keepingHost_serves _ _ nativeFunc udd, fun i within _ function => ?_⟩
      cases found
      match i, within with
      | 0, _ => rfl
      | 1, _ => exact function.elim
    · intro s impossible
      cases impossible
  · have settles := result (.eval (anyText _ _)) () (keepingFrame []) _ _ _ [] ?_
      (keepingFrame_balanced _) rfl
    · refine settles.mpr fun e t leaves => ?_
      have evaluated := evaluate_iff_leaves.mpr ⟨_, leaves, rfl⟩
      cases evaluated
    · intro c t leaves _
      have evaluated := evaluate_iff_leaves.mpr ⟨c, leaves, rfl⟩
      cases c with
      | normal v =>
        cases evaluated
        rfl
      | abrupt e => cases evaluated

end DukBridge
