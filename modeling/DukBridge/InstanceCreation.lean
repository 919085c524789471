import DukBridge.ArgumentStack
import DukBridge.GoAttrs
import DukBridge.GoCalls
import DukBridge.ModuleLoaders
import DukBridge.NativeModules
import DukBridge.WorldFrames

/-!
# Objects made for struct arguments

`parseArg` draws the keys of a struct when it encodes it; `go_createEcmascriptObject` makes the
object when C pushes the argument. A call that returns after its pushes has made an object for
each of its structs.
-/
namespace DukBridge

open Effect Rendezvous

variable {H L S σ : Type}

/-! ### go_createEcmascriptObject -/

/-- The heap, with the objects made for structs, the last one first. -/
structure Traced (H : Type) where
  heap : H
  made : List NativeObj

namespace World

def bare (w : World (Traced H)) : World H := ⟨w.objects, w.nextId, w.reads, w.heap.heap⟩

def traced (w : World H) (made : List NativeObj) : World (Traced H) :=
  ⟨w.objects, w.nextId, w.reads, ⟨w.heap, made⟩⟩

end World

def Ctx.bare (ctx : Ctx (Traced H)) : Ctx H := ⟨ctx.stack, ctx.reserve, ctx.world.bare⟩

def Ctx.traced (ctx : Ctx H) : Ctx (Traced H) := ⟨ctx.stack, ctx.reserve, ctx.world.traced []⟩

def Outcome.traced {α : Type} (made : List NativeObj) : Outcome H α → Outcome (Traced H) α
  | .returns a w reserved => .returns a (w.traced made) reserved
  | .throws e w reserved => .throws e (w.traced made) reserved
  | .never => .never

/-- What all environments share: Duktape with its surroundings, `encoding/json`, and the addresses
and functions Go hands to C. -/
structure GoBridge (H S : Type) where
  host : Host H
  fns : LoaderFns H
  marshal : GoVal host.mem S → Option (GoBytes host.mem)
  createEcmascriptObject : Word
  getMethodsList : Word
  getAttrsList : Word
  finalizeModule : Word
  addressed : createEcmascriptObject ≠ 0

namespace GoBridge

variable (b : GoBridge H S) (firstLoaderKey : LoaderKeyMap) (env : Word)

/-- `go_createEcmascriptObject` with the module key `udd`. Nothing protects the pushes of arguments,
so an error in it is fatal. -/
def createInstance (w : World (Traced H)) (free : Nat) (udd : Word) :
    Outcome (Traced H) (Option JsVal) :=
  match goCreateEcmascriptObject firstLoaderKey env udd with
  | none => .returns none w 0
  | some obj =>
    match jsCreateEcmascriptObject b.host b.fns obj.udd obj.modHandle b.getMethodsList
        b.getAttrsList b.finalizeModule ⟨[], free, w.bare⟩ with
    | .ok rc ctx =>
      if rc = 0 then
        .returns (some (ctx.get 0)) (ctx.world.traced (obj :: w.heap.made)) (ctx.reserve - free)
      else .returns none (ctx.world.traced w.heap.made) (ctx.reserve - free)
    | .error _ _ => .never

/-- The host as one environment meets it. -/
def inEnv : Host (Traced H) where
  mem := b.host.mem
  gettimeofday := b.host.gettimeofday
  readFileContent := b.host.readFileContent
  call w free this func args := (b.host.call w.bare free this func args).traced w.heap.made
  compile w free mode src filename :=
    (b.host.compile w.bare free mode src filename).traced w.heap.made
  jsonEncode w free v := (b.host.jsonEncode w.bare free v).traced w.heap.made
  jsonDecode w free text := (b.host.jsonDecode w.bare free text).traced w.heap.made
  readThrough w free target key := (b.host.readThrough w.bare free target key).traced w.heap.made
  writeThrough w free id key v :=
    (b.host.writeThrough w.bare free id key v).map (·.traced w.heap.made)
  errorObject w free message := (b.host.errorObject w.bare free message).traced w.heap.made
  safeToString w free v := (b.host.safeToString w.bare free v).map fun (text, w', reserved) =>
    (text, w'.traced w.heap.made, reserved)
  native w free nativeFunc udd args :=
    (b.host.native w.bare free nativeFunc udd args).traced w.heap.made
  address w v := b.host.address w.bare v
  createInstance w free _ udd := b.createInstance firstLoaderKey env w free udd
  mallocs := b.host.mallocs

/-- `createMethodKeys` on the pool; a panic would end the program. -/
def runtime [DecidableEq L] [DecidableEq S] [GoStructs S] :
    GoRuntime b.host.mem S (V2KPool (PoolVal L S) Nat) where
  marshal := b.marshal
  createMethodKeys s pool :=
    match runAlone V2KPool.protocol pool (createMethodKeys s s : KeyProg L S _).run with
    | some (.ok (modKey, _), pool') => (modKey.toUInt64, pool')
    | _ => (0, pool)
  createEcmascriptObject := b.createEcmascriptObject

end GoBridge

/-- `js_create_ecmascript_object` has no way to fail but an error. -/
theorem jsCreateEcmascriptObject_ok {host : Host H} {fns : LoaderFns H}
    {udd modHandle getMethodsList getAttrsList finalizer : Word} {ctx ctx' : Ctx H} {rc : Int32}
    (returned : jsCreateEcmascriptObject host fns udd modHandle getMethodsList getAttrsList
      finalizer ctx = .ok rc ctx') : rc = 0 := by
  obtain ⟨init, mid, initialized, rest⟩ := bind_eq_ok.mp returned
  -- there is no load_module that could refuse
  simp only [initNativeObj, ne_eq, not_true_eq_false, if_false] at initialized
  obtain ⟨_, _, _, ok⟩ := bind_eq_ok.mp initialized
  cases ok
  cases rest
  rfl

/-! ### Structs among the arguments -/

def GoVal.struct? {mem : Memory} : GoVal mem S → Option S
  | .structPtr s => some s
  | _ => none

def structs {mem : Memory} (args : List (GoVal mem S)) : List S := args.filterMap GoVal.struct?

/-- The keys of these structs, drawn one after the other. -/
def drawKeys {mem : Memory} (go : GoRuntime mem S σ) : List S → σ → List Word × σ
  | [], st => ([], st)
  | s :: rest, st =>
    let (modKey, st') := go.createMethodKeys s st
    let (modKeys, st'') := drawKeys go rest st'
    (modKey :: modKeys, st'')

/-- The module keys C is handed for instances. -/
def CArg.instance? : CArg → Option Word
  | .mobject objUdd _ => some objUdd
  | _ => Option.none

section Encoding

variable {mem : Memory} (go : GoRuntime mem S σ)

theorem payload_instance (out : ParsedArg) (other : out.argType ≠ .mobject) :
    out.payload.instance? = none := by
  obtain ⟨argType, val, p, pLen⟩ := out
  cases argType with
  | mobject => exact absurd rfl other
  | _ => rfl

theorem parseArg_noStruct {arg : GoVal mem S} (noStruct : arg.struct? = none) (out : ParsedArg)
    (st : σ) : ((parseArg go arg out).run st).2 = st ∧
      ((parseArg go arg out).run st).1.payload.instance? = none := by
  have kind := parseArg_structPtr go arg out st
  constructor
  · cases arg with
    | structPtr s => cases noStruct
    | _ => rfl
  · apply payload_instance
    rw [ne_eq, kind]
    cases arg with
    | structPtr s => cases noStruct
    | _ => exact Bool.false_ne_true

theorem parsedArgs_instances (args : List (GoVal mem S)) (out : ParsedArg) (st : σ) :
    ((parsedArgs go args out st).map ParsedArg.payload).filterMap CArg.instance? =
      (drawKeys go (structs args) st).1 := by
  induction args generalizing out st with
  | nil => rfl
  | cons arg rest ih =>
    cases kind : arg.struct? with
    | some s =>
      cases arg with
      | structPtr s' =>
        cases kind
        rw [parsedArgs, List.map_cons, List.filterMap_cons]
        exact congrArg _ (ih _ _)
      | _ => cases kind
    | none =>
      obtain ⟨same, noInstance⟩ := parseArg_noStruct go kind out st
      have others := ih ((parseArg go arg out).run st).1 ((parseArg go arg out).run st).2
      rw [parsedArgs, List.map_cons, List.filterMap_cons, noInstance, structs, List.filterMap_cons,
        kind]
      exact others.trans (by rw [same]; rfl)

theorem parseArgsFrom_state (args : List (GoVal mem S)) (loop : ParseLoop) (st : σ) :
    ((parseArgsFrom go args loop).run st).2 = (drawKeys go (structs args) st).2 := by
  induction args generalizing loop st with
  | nil => rfl
  | cons arg rest ih =>
    cases kind : arg.struct? with
    | some s =>
      cases arg with
      | structPtr s' =>
        cases kind
        exact ih _ _
      | _ => cases kind
    | none =>
      obtain ⟨same, _⟩ := parseArg_noStruct go kind loop.out st
      have others := ih (loop.store ((parseArg go arg loop.out).run st).1)
        ((parseArg go arg loop.out).run st).2
      rw [structs, List.filterMap_cons, kind]
      exact Eq.trans others (by rw [same]; rfl)

theorem callArgs_state {host : Host H} (go : GoRuntime host.mem S σ)
    (args : Option (List (GoVal host.mem S))) (st : σ) :
    ((callArgs host go args).run st).2 = (drawKeys go (structs (args.getD [])) st).2 := by
  cases args with
  | none => rfl
  | some args => exact parseArgsFrom_state go args _ st

theorem payloads_created (args : List (GoVal mem S)) (out : ParsedArg) (st : σ) :
    ∀ arg ∈ (parsedArgs go args out st).map ParsedArg.payload, ∀ udd create,
      arg = .mobject udd create → create = go.createEcmascriptObject := by
  induction args generalizing out st with
  | nil => simp [parsedArgs]
  | cons arg rest ih =>
    rw [parsedArgs, List.map_cons, List.forall_mem_cons]
    refine ⟨?_, ih _ _⟩
    intro udd create same
    cases kind : arg.struct? with
    | some s =>
      cases arg with
      | structPtr s' =>
        cases same
        rfl
      | _ => cases kind
    | none =>
      have noInstance := (parseArg_noStruct go kind out st).2
      rw [same] at noInstance
      cases noInstance

end Encoding

/-! ### What a call makes -/

/-- No object for a struct has been made in between. -/
def SameMade (w w' : World (Traced H)) : Prop := w'.heap.made = w.heap.made

theorem traced_within {α : Type} (outcome : Outcome H α) (w : World (Traced H)) :
    (outcome.traced w.heap.made).Within SameMade w := by
  cases outcome with
  | never => exact trivial
  | _ => exact rfl

section Creation

variable (b : GoBridge H S) (firstLoaderKey : LoaderKeyMap) (env : Word)

theorem inEnv_respects : (b.inEnv firstLoaderKey env).Respects SameMade where
  refl _ := rfl
  trans one two := two.trans one
  clock _ := rfl
  allocation _ _ := rfl
  call _ _ _ _ _ := traced_within _ _
  compile _ _ _ _ _ := traced_within _ _
  jsonEncode _ _ _ := traced_within _ _
  jsonDecode _ _ _ := traced_within _ _
  readThrough _ _ _ _ := traced_within _ _
  errorObject _ _ _ := traced_within _ _
  safeToString w free v s w' reserved converted := by
    obtain ⟨⟨text, w'', reserved'⟩, _, same⟩ := Option.map_eq_some_iff.mp converted
    cases same
    rfl

theorem within_saveTopObject_inEnv :
    Within SameMade (saveTopObject (b.inEnv firstLoaderKey env)) := by
  apply within_saveTopObject (inEnv_respects b firstLoaderKey env)
  intro key v
  apply within_writeProp (inEnv_respects b firstLoaderKey env)
  · exact fun w id key slot => rfl
  · intro w free id key v outcome taken
    obtain ⟨outcome', _, same⟩ := Option.map_eq_some_iff.mp taken
    cases same
    exact traced_within _ _

theorem within_callFunc_inEnv (argc : Nat) (callFuncRes : Bool) :
    Within SameMade (callFunc (b.inEnv firstLoaderKey env) argc callFuncRes) := by
  have respects := inEnv_respects b firstLoaderKey env
  apply within_bind respects (within_pcall respects argc)
  intro rc
  have delivers : Within SameMade (deliver (b.inEnv firstLoaderKey env) callFuncRes) := by
    refine .ite ?_ (within_pure respects _)
    refine within_bind respects (fun s => ?_) fun _ => within_pure respects _
    apply callResultCallback_within respects
    intro id _ _
    exact within_saveFunction respects (within_saveTopObject_inEnv b firstLoaderKey env) _ s
  apply within_bind respects delivers
  intro delivered
  exact within_andThen respects (within_popN respects 1) (within_pure respects _)

variable {b firstLoaderKey env} {loaderKey : Int64}

/-- The object `go_createEcmascriptObject` makes for the module key `udd`. -/
def instanceOf (env : Word) (loaderKey : Int64) (udd : Word) : NativeObj :=
  ⟨env, loaderKey.toUInt64, [], udd⟩

theorem createInstance_of_ok (found : firstLoaderKey env = some loaderKey) {w : World (Traced H)}
    {free : Nat} {udd : Word} {ctx : Ctx H}
    (made : jsCreateEcmascriptObject b.host b.fns loaderKey.toUInt64 udd b.getMethodsList
      b.getAttrsList b.finalizeModule ⟨[], free, w.bare⟩ = .ok 0 ctx) :
    b.createInstance firstLoaderKey env w free udd = .returns (some (ctx.get 0))
      (ctx.world.traced (instanceOf env loaderKey udd :: w.heap.made)) (ctx.reserve - free) := by
  simp only [GoBridge.createInstance, goCreateEcmascriptObject, found, Option.map_some, made, if_true]
  rfl

theorem createInstance_returns (found : firstLoaderKey env = some loaderKey)
    {w w' : World (Traced H)} {free reserved : Nat} {udd : Word} {v : Option JsVal}
    (outcome : b.createInstance firstLoaderKey env w free udd = .returns v w' reserved) :
    w'.heap.made = instanceOf env loaderKey udd :: w.heap.made := by
  simp only [GoBridge.createInstance, goCreateEcmascriptObject, found, Option.map_some] at outcome
  split at outcome
  · next rc ctx ran =>
    rw [if_pos (jsCreateEcmascriptObject_ok ran)] at outcome
    cases outcome
    rfl
  · cases outcome

theorem made_pushArg (found : firstLoaderKey env = some loaderKey) {arg : CArg}
    (created : ∀ udd create, arg = .mobject udd create → create ≠ 0) {ctx ctx' : Ctx (Traced H)}
    {u : Unit} (returned : pushArg (b.inEnv firstLoaderKey env) arg ctx = .ok u ctx') :
    ctx'.world.heap.made =
      (arg.instance?.map (instanceOf env loaderKey)).toList ++ ctx.world.heap.made := by
  cases kind : arg.instance? with
  | some udd' =>
    cases arg with
    | mobject udd create =>
      cases kind
      obtain ⟨v, w, reserved, outcome, _, rfl⟩ := by
        simpa only [created _ create rfl, if_false] using pushInstance_eq_ok.mp returned
      exact createInstance_returns found outcome
    | _ => cases kind
  | none =>
    have noInstance : ∀ udd create, arg = .mobject udd create →
        Within SameMade (pushInstance (b.inEnv firstLoaderKey env) create udd) := by
      intro udd create same
      rw [same] at kind
      cases kind
    exact (within_pushArg (inEnv_respects b firstLoaderKey env) arg noInstance).of_ok returned

theorem made_pushAll (found : firstLoaderKey env = some loaderKey) {args : List CArg}
    (created : ∀ arg ∈ args, ∀ udd create, arg = .mobject udd create → create ≠ 0)
    {ctx ctx' : Ctx (Traced H)} {u : Unit}
    (returned : pushAll (b.inEnv firstLoaderKey env) args ctx = .ok u ctx') :
    ctx'.world.heap.made =
      ((args.filterMap CArg.instance?).map (instanceOf env loaderKey)).reverse ++
        ctx.world.heap.made := by
  -- over the arguments; an object is made for each instance among them
  induction args generalizing ctx with
  | nil =>
    cases returned
    rfl
  | cons arg rest ih =>
    obtain ⟨_, mid, first, others⟩ := bind_eq_ok.mp returned
    rw [List.forall_mem_cons] at created
    rw [ih created.2 others, made_pushArg found created.1 first, List.filterMap_cons]
    cases arg.instance? <;> simp

/-- The loop does not get past an error value. -/
theorem noErrors_of_pushArgs {host : Host H} {outs : List ParsedArg} {argv : List Word}
    {i argc n : Nat} {ctx ctx' : Ctx H}
    (returned : pushArgs host argv (outs.map (fun out => out.argType.code) ++ [0]) i argc ctx =
      .ok n ctx') : ∀ out ∈ outs, out.argType ≠ .error := by
  induction outs generalizing i argc ctx with
  | nil => simp
  | cons out rest ih =>
    rw [List.map_cons, List.cons_append, pushArgs, if_neg (ArgFormat.code_ne_zero _)] at returned
    obtain ⟨_, mid, pushed, others⟩ := bind_eq_ok.mp returned
    rw [List.forall_mem_cons]
    refine ⟨?_, ih others⟩
    intro error
    rw [readArg, ArgFormat.ofCode_code, error] at pushed
    cases pushed

variable (go : GoRuntime b.host.mem S σ)

theorem made_pushArgs (found : firstLoaderKey env = some loaderKey)
    (addressed : go.createEcmascriptObject ≠ 0) (args : List (GoVal b.host.mem S)) (st : σ)
    {ctx ctx' : Ctx (Traced H)} {n : Nat}
    (returned : pushArgs (b.inEnv firstLoaderKey env) ((parseArgs go args).run st).1.2.2
      ((parseArgs go args).run st).1.2.1 0 0 ctx = .ok n ctx') :
    ctx'.world.heap.made =
      ((drawKeys go (structs args) st).1.map (instanceOf env loaderKey)).reverse ++
        ctx.world.heap.made := by
  have codes := returned
  rw [parseArgs_eq] at codes
  have noErrors := (outputs_error go args st).mp (noErrors_of_pushArgs codes)
  have pushes := @pushArgs_parseArgs _ (b.inEnv firstLoaderKey env) _ _ go args noErrors st
  obtain ⟨_, mid, pushed, same⟩ := bind_eq_ok.mp ((congrFun pushes ctx).symm.trans returned)
  cases same
  have created : ∀ arg ∈ (outputs go args st).map ParsedArg.payload, ∀ udd create,
      arg = .mobject udd create → create ≠ 0 := by
    intro arg member udd create same
    rw [payloads_created go args _ st arg member udd create same]
    exact addressed
  have made := made_pushAll found created pushed
  rwa [outputs, parsedArgs_instances] at made

theorem made_call (found : firstLoaderKey env = some loaderKey)
    (addressed : go.createEcmascriptObject ≠ 0) (args : Option (List (GoVal b.host.mem S)))
    (st : σ) {callFuncRes : Bool} {ctx ctx' : Ctx (Traced H)} {r : Returned}
    (returned : pushArgsAndCallFunc (b.inEnv firstLoaderKey env) callFuncRes
      ((callArgs (b.inEnv firstLoaderKey env) go args).run st).1.1
      ((callArgs (b.inEnv firstLoaderKey env) go args).run st).1.2 ctx = .ok r ctx') :
    ctx'.world.heap.made =
      ((drawKeys go (structs (args.getD [])) st).1.map (instanceOf env loaderKey)).reverse ++
        ctx.world.heap.made := by
  cases args with
  | none => exact (within_callFunc_inEnv b firstLoaderKey env 0 callFuncRes).of_ok returned
  | some args =>
    obtain ⟨argc, mid, pushed, called⟩ := bind_eq_ok.mp returned
    rw [(within_callFunc_inEnv b firstLoaderKey env argc callFuncRes).of_ok called]
    exact made_pushArgs go found addressed args st pushed

end Creation

end DukBridge
