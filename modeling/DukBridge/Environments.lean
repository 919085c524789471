import DukBridge.HostWrites
import DukBridge.ModHomeLiteral
import DukBridge.ModuleRuns

/-!
# The making of an environment

`js_create_env` sets up printing, the console, the module loading framework, three functions for
`Duktape.modSearch` and that search itself, in this order. The scripts that it runs itself are
given by what they do; the one with the search is up to the engine.
-/
namespace DukBridge

open Effect

/-- The C functions an environment starts with, besides `require`. -/
inductive Builtin where
  | print
  | alert
  | consoleAssert
  | consoleLog
  | consoleTrace
  | consoleInfo
  | consoleWarn
  | consoleError
  | consoleDir
  | readFile
  | loadNativeModule
  | loadAndInitDll
deriving DecidableEq

/-- What a function object runs, with its `nargs` and its magic. -/
structure BuiltinFunc where
  fn : Builtin
  nargs : Int32
  magic : UInt32
deriving DecidableEq

/-- The heap, with what its function objects run. -/
structure BuiltinHeap (H : Type) where
  funcs : Nat → Option BuiltinFunc
  rest : H

/-- The heap of an environment. -/
abbrev EnvHeap (H : Type) := ModuleHeap (BuiltinHeap H)

variable {H : Type}

/-! ### Functions -/

def setFunc (w : World (EnvHeap H)) (id : Nat) (func : Option BuiltinFunc) : World (EnvHeap H) :=
  { w with heap.rest.funcs := Function.update w.heap.rest.funcs id func }

/-- `duk_push_c_function` -/
def pushBuiltin (fn : Builtin) (nargs : Int32) : Duk (EnvHeap H) Unit := do
  let id := (← get).world.nextId
  pushNew .plain none
  modify fun ctx => { ctx with world := setFunc ctx.world id (some ⟨fn, nargs, 0⟩) }

def withMagic (w : World (EnvHeap H)) (id : Nat) (magic : UInt32) : World (EnvHeap H) :=
  setFunc w id ((w.heap.rest.funcs id).map fun func => { func with magic })

/-- `duk_set_magic(ctx, -1, magic)` -/
def setMagic (magic : UInt32) : Duk (EnvHeap H) Unit := do
  match ← getAt 0 with
  | .object id => modify fun ctx => { ctx with world := withMagic ctx.world id magic }
  | _ => raise .typeError

/-- `duk_def_prop(ctx, -3, ...)` -/
def defPropUnder (d : DefProp) : Duk H Unit := do
  let ctx ← get
  defProp (ctx.height - 3) d

/-- A new Ecmascript function, without its properties. -/
def pushScriptFunction : Duk H Unit :=
  pushNew { ObjShape.plain with ecmascriptFunction := true } none

/-! ### print and alert -/

/-- `DUK_DEFPROP_HAVE_VALUE | DUK_DEFPROP_SET_WRITABLE | DUK_DEFPROP_SET_CONFIGURABLE` -/
def DefProp.ordinary : DefProp := ⟨some true, some true, false⟩

/-- `[ obj ]` stays, with `obj[name]` defined. -/
def defFunction (name : Bytes) (fn : Builtin) : Duk (EnvHeap H) Unit := do
  pushBytes name
  pushBuiltin fn varargs
  defPropUnder .ordinary

def dukPrintAlertInit : Duk (EnvHeap H) Unit := do
  pushGlobalObject
  defFunction (ascii "print") .print
  defFunction (ascii "alert") .alert
  pop

/-! ### The console -/

section Console

def consoleProxyWrapper : UInt32 := 1

def consoleStdoutOnly : UInt32 := 4

def consoleStderrOnly : UInt32 := 8

/-- These levels go to `out` unless the flags name a stream. -/
def defaultStream (flags out : UInt32) : UInt32 :=
  if flags &&& consoleStdoutOnly = 0 ∧ flags &&& consoleStderrOnly = 0 then flags ||| out else flags

def consoleRegVarargFunc (host : Host (EnvHeap H)) (fn : Builtin) (name : Bytes) (flags : UInt32) :
    Duk (EnvHeap H) Unit := do
  pushBuiltin fn varargs
  pushBytes (ascii "name")
  pushBytes name
  -- stack traces show the name
  defPropUnder { DefProp.haveValue with force := true }
  setMagic flags
  putPropString host 1 name

variable (host : Host (EnvHeap H))

/-- `(function (E) { return function format(v) { ... }; })(Duktape.enc)` -/
def evalFormat : Duk (EnvHeap H) Unit := do
  requireRoom 1
  let (duktape, _) ← readProp host (.object globalId) (ascii "Duktape")
  let _ ← readProp host duktape (ascii "enc")
  pushScriptFunction

/-- The script that wraps the console in a Proxy. -/
def proxyScript : Bytes :=
  ascii "(function()\x7bvar D=function()\x7b\x7d;console=new Proxy(console,\x7bget:function(t,k)\x7b" ++
  ascii "var v=t[k];return typeof v==='function'?v:D;\x7d\x7d);\x7d)();"

def dukConsoleInit (flags : UInt32) : Duk (EnvHeap H) Unit := do
  let flags := if flags &&& consoleStdoutOnly ≠ 0 ∧ flags &&& consoleStderrOnly ≠ 0 then
    flags &&& ~~~ consoleStdoutOnly else flags
  pushObject
  evalFormat host
  putPropString host 1 (ascii "format")
  let out := defaultStream flags consoleStdoutOnly
  consoleRegVarargFunc host .consoleAssert (ascii "assert") out
  consoleRegVarargFunc host .consoleLog (ascii "log") out
  consoleRegVarargFunc host .consoleLog (ascii "debug") out
  consoleRegVarargFunc host .consoleTrace (ascii "trace") out
  consoleRegVarargFunc host .consoleInfo (ascii "info") out
  let err := defaultStream flags consoleStderrOnly
  consoleRegVarargFunc host .consoleWarn (ascii "warn") err
  consoleRegVarargFunc host .consoleError (ascii "error") err
  consoleRegVarargFunc host .consoleError (ascii "exception") err
  consoleRegVarargFunc host .consoleDir (ascii "dir") err
  putGlobalString host (ascii "console")
  -- the Proxy answers with a function whatever name is looked up
  if err &&& consoleProxyWrapper ≠ 0 then
    let _ ← pevalLstring host proxyScript
    pop

end Console

/-! ### The module loading framework -/

section Module

variable (host : Host (EnvHeap H))

/-- `Object.defineProperty` -/
def defineProperty (target : JsVal) (key : Bytes) (v : JsVal) (d : DefProp) :
    Duk H Unit := do
  let ctx ← get
  match target with
  | .object id =>
    match (ctx.world.objects id).defines key v d with
    | some new => set { ctx with world := ctx.world.setOwn id key (some new) }
    | none => raise .typeError
  | _ => raise .typeError

/-- `Object.create(null)` -/
def createNull : Duk H JsVal := do
  let ctx ← get
  set { ctx with world := ctx.world.withNew .plain none }
  return .object ctx.world.nextId

/-- The function of the script in `duk_module_duktape_init`, called with `req`; its `this` is the
global object. -/
def registerRequire (req : JsVal) : Duk (EnvHeap H) Unit := do
  defineProperty req (ascii "name") (.string (ascii "require")) .haveValue
  defineProperty (.object globalId) (ascii "require") req .ordinary
  let (duktape, _) ← readProp host (.object globalId) (ascii "Duktape")
  -- no prototype, so that an id such as `toString` is not taken for one that is loaded
  let modLoaded ← createNull
  defineProperty duktape (ascii "modLoaded") modLoaded .ordinary

def dukModuleDuktapeInit : Duk (EnvHeap H) Unit := do
  -- what is stashed is not looked up again when it is modified
  let _ ← getGlobalString host (ascii "Duktape")
  let duktape ← getAt 0
  modify fun ctx => { ctx with world.heap.stashedDuktape := duktape }
  pop
  -- [ func, require ]
  pushScriptFunction
  pushRequire
  registerRequire host (← getAt 0)
  popN 2

end Module

/-! ### The search -/

section Search

variable (host : Host (EnvHeap H))

/-- `[ global ]` stays, with `global[func_name]` set. -/
def setGlobalFunction (funcName : Bytes) (func : Builtin) (nargs : Int32) :
    Duk (EnvHeap H) Unit := do
  pushBytes funcName
  pushBuiltin func nargs
  let _ ← putProp host

def initGlobalFuncs : Duk (EnvHeap H) Unit := do
  pushGlobalObject
  setGlobalFunction host (ascii "readFile") .readFile 1
  setGlobalFunction host (ascii "loadNativeModule") .loadNativeModule 2
  setGlobalFunction host (ascii "loadAndInitDll") .loadAndInitDll 2
  pop

/-- `duk_peval` -/
def peval : Duk (EnvHeap H) Int32 := do
  match ← getAt 0 with
  | .string src =>
    pop
    pevalLstring host (some src)
  | _ => raise .typeError

/-- The directory is that of the executable where no path is given, and there is none if the
memory for it cannot be had. -/
def setModSearch (exeDir : Option Bytes) (modPath : Option Bytes) : Duk (EnvHeap H) Unit := do
  match modPath.or exeDir with
  | none => return
  | some path =>
    match pushModSearch path with
    | none => raise .rangeError
    | some src =>
      pushBytes src
      let ret ← peval host
      -- what goes wrong is printed, and the environment is made all the same
      if ret ≠ 0 then
        let _ ← safeToString host
      pop

def jsCreateEnv (exeDir modPath : Option Bytes) : Duk (EnvHeap H) Unit := do
  dukPrintAlertInit
  dukConsoleInit host 0
  dukModuleDuktapeInit host
  initGlobalFuncs host
  setModSearch host exeDir modPath

end Search

/-! ### A heap that no script has run in -/

section Fresh

variable (duktape : Nat) (rest : H)

/-- The global object has `Duktape`, which is as the engine made it. -/
structure Fresh (w : World (EnvHeap H)) : Prop where
  global : ∃ wr c, (w.objects globalId).own (ascii "Duktape") =
    some (.data (.object duktape) wr c)
  enc : ∃ v wr c, (w.objects duktape).own (ascii "enc") = some (.data v wr c)
  absent : (w.objects duktape).own (ascii "modLoaded") = none
  extensible : (w.objects duktape).extensible = true
  apart : duktape ≠ globalId
  globalOld : globalId < w.nextId
  duktapeOld : duktape < w.nextId
  rest : w.heap.rest.rest = rest

/-- The heap is still fresh, and nothing more has been stashed. -/
def StillFresh (w w' : World (EnvHeap H)) : Prop :=
  Fresh duktape rest w' ∧ w'.heap.stashedDuktape = w.heap.stashedDuktape

/-- In a fresh heap only one property has a setter. -/
def PlainWrites (host : Host (EnvHeap H)) : Prop :=
  ∀ w free id key v, w.heap.rest.rest = rest → key ≠ ascii "__proto__" →
    host.writeThrough w free id key v = none

/-- A property the making of `Duktape` has nothing to do with. -/
def Spare (id : Nat) (key : Bytes) : Prop :=
  id = globalId ∧ key ≠ ascii "Duktape" ∨ id ≠ globalId ∧ id ≠ duktape

variable {duktape rest} {w w₀ : World (EnvHeap H)} {host : Host (EnvHeap H)} {k l : Option JsVal}
  {known : List (Option JsVal)}

theorem Fresh.allocation (fresh : Fresh duktape rest w) (o : ObjectRec) :
    Fresh duktape rest { w.setObject w.nextId o with nextId := w.nextId + 1 } := by
  have same : ∀ id < w.nextId, (w.setObject w.nextId o).objects id = w.objects id := by
    intro id old
    simp [World.setObject, Nat.ne_of_lt old]
  constructor
  · simpa only [same _ fresh.globalOld] using fresh.global
  · simpa only [same _ fresh.duktapeOld] using fresh.enc
  · simpa only [same _ fresh.duktapeOld] using fresh.absent
  · simpa only [same _ fresh.duktapeOld] using fresh.extensible
  · exact fresh.apart
  · exact Nat.lt_succ_of_lt fresh.globalOld
  · exact Nat.lt_succ_of_lt fresh.duktapeOld
  · exact fresh.rest

theorem Fresh.setOwn (fresh : Fresh duktape rest w) {id : Nat} {key : Bytes}
    (spare : Spare duktape id key) (slot : Option PropSlot) :
    Fresh duktape rest (w.setOwn id key slot) := by
  have notDuktape : id ≠ duktape := by
    rcases spare with ⟨rfl, _⟩ | ⟨_, other⟩
    · exact fresh.apart.symm
    · exact other
  have same := objects_setOwn_of_ne notDuktape.symm w key slot
  refine ⟨?_, ?_, ?_, ?_, fresh.apart, fresh.globalOld, fresh.duktapeOld, fresh.rest⟩
  -- only what is written to the global object could take `Duktape` from it
  · rcases spare with ⟨rfl, other⟩ | ⟨notGlobal, _⟩
    · rw [own_setOwn_self, Function.update_of_ne other.symm]
      exact fresh.global
    · rw [objects_setOwn_of_ne notGlobal.symm]
      exact fresh.global
  · rw [same]
    exact fresh.enc
  · rw [same]
    exact fresh.absent
  · rw [same]
    exact fresh.extensible

theorem Fresh.of_heap {w' : World (EnvHeap H)} (fresh : Fresh duktape rest w)
    (objects : w'.objects = w.objects) (nextId : w'.nextId = w.nextId)
    (same : w'.heap.rest.rest = w.heap.rest.rest) : Fresh duktape rest w' := by
  refine ⟨?_, ?_, ?_, ?_, fresh.apart, ?_, ?_, same.trans fresh.rest⟩
  · rw [objects]
    exact fresh.global
  · rw [objects]
    exact fresh.enc
  · rw [objects]
    exact fresh.absent
  · rw [objects]
    exact fresh.extensible
  · rw [nextId]
    exact fresh.globalOld
  · rw [nextId]
    exact fresh.duktapeOld

/-- What is made in a fresh heap is neither of the two objects. -/
theorem New.spare {id : Nat} (new : New (StillFresh duktape rest) w₀ id) (key : Bytes) :
    Spare duktape id key := by
  obtain ⟨w, ⟨fresh, _⟩, rfl⟩ := new
  exact .inr ⟨fresh.globalOld.ne', fresh.duktapeOld.ne'⟩

theorem stillFresh_allocates (w : World (EnvHeap H)) (o : ObjectRec) :
    From (StillFresh duktape rest) w₀ w
      { w.setObject w.nextId o with nextId := w.nextId + 1 } :=
  fun ⟨fresh, stash⟩ => ⟨fresh.allocation o, stash⟩

theorem stillFresh_setFunc (w : World (EnvHeap H)) (id : Nat) (func : Option BuiltinFunc) :
    From (StillFresh duktape rest) w₀ w (setFunc w id func) :=
  fun ⟨fresh, stash⟩ => ⟨fresh.of_heap rfl rfl rfl, stash⟩

theorem stillFresh_setOwn {id : Nat} {key : Bytes} (spare : Spare duktape id key)
    (w : World (EnvHeap H)) (slot : Option PropSlot) :
    From (StillFresh duktape rest) w₀ w (w.setOwn id key slot) :=
  fun ⟨fresh, stash⟩ => ⟨fresh.setOwn spare slot, stash⟩

theorem stillFresh_mayWrite (plain : PlainWrites rest host) {id : Nat} {key : Bytes}
    (spare : Spare duktape id key) (ordinary : key ≠ ascii "__proto__") :
    MayWrite host (StillFresh duktape rest) w₀ id key := by
  intro v
  apply within_writePropTo fun _ reached => reached
  · exact stillFresh_setOwn spare
  · intro w free outcome taken
    -- there is no setter while the heap is fresh
    have none : Fresh duktape rest w → False := fun fresh => by
      rw [plain w free id key v fresh.rest ordinary] at taken
      cases taken
    cases outcome with
    | never => trivial
    | _ => exact fun reached => (none reached.1).elim

end Fresh

/-! ### Steps of the making -/

section Steps

variable {R : World (EnvHeap H) → World (EnvHeap H) → Prop} {w₀ : World (EnvHeap H)}
  {host : Host (EnvHeap H)} {k l : Option JsVal} {known : List (Option JsVal)}

theorem over_world {f : World (EnvHeap H) → World (EnvHeap H)} (moves : ∀ w, From R w₀ w (f w)) :
    Turns R w₀ known (modify fun ctx => { ctx with world := f ctx.world }) known :=
  fun ctx here => here.of_stack rfl (moves ctx.world here.within)

/-- A new function object, with what it runs noted in the heap. -/
theorem over_pushMarked (allocates : ∀ w o, From R w₀ w
      { w.setObject w.nextId o with nextId := w.nextId + 1 })
    {mark : World (EnvHeap H) → Nat → World (EnvHeap H)}
    (marks : ∀ w id, From R w₀ w (mark w id)) :
    Meets (Over R w₀ known) (do
        let id := (← get).world.nextId
        pushNew .plain none
        modify fun ctx => { ctx with world := mark ctx.world id })
      (fun _ ctx => ∃ id, New R w₀ id ∧ Over R w₀ (some (.object id) :: known) ctx)
      (OnWorld fun _ => R w₀) := by
  refine .get_bind fun ctx here => ?_
  have pushes : Meets (· = ctx) (pushNew .plain none)
      (fun _ ctx => ∃ id, New R w₀ id ∧ Over R w₀ (some (.object id) :: known) ctx)
      (OnWorld fun _ => R w₀) := by
    rintro _ rfl
    exact over_pushNew allocates .plain none _ here
  apply pushes.bind
  intro _
  refine .exists fun id => .assume fun new => ?_
  exact (over_world fun w => marks w _).mono (fun _ here => here) fun _ _ there => ⟨id, new, there⟩

theorem over_pushBuiltin (allocates : ∀ w o, From R w₀ w
      { w.setObject w.nextId o with nextId := w.nextId + 1 })
    (marks : ∀ w id func, From R w₀ w (setFunc w id func)) (fn : Builtin) (nargs : Int32) :
    Meets (Over R w₀ known) (pushBuiltin fn nargs)
      (fun _ ctx => ∃ id, New R w₀ id ∧ Over R w₀ (some (.object id) :: known) ctx)
      (OnWorld fun _ => R w₀) :=
  over_pushMarked allocates fun w id => marks w id (some ⟨fn, nargs, 0⟩)

theorem over_setMagic (marks : ∀ w id func, From R w₀ w (setFunc w id func)) (magic : UInt32) :
    Turns R w₀ known (setMagic magic) known := by
  apply (over_getAt 0).bind
  intro v
  cases v with
  | object id =>
    have moves : ∀ w, From R w₀ w (withMagic w id magic) := fun w => marks w id _
    exact over_world moves
  | _ => exact over_raise

theorem slot_of_get {ctx : Ctx H} {i id : Nat} (is : ctx.get i = .object id) :
    slot (ctx.height - (i + 1)) ctx = .ok (.object id) ctx := by
  -- under the stack there is `undefined` only
  have tall : i < ctx.stack.length := by
    by_contra short
    rw [Ctx.get, List.getD_eq_default _ _ (Nat.le_of_not_lt short)] at is
    cases is
  -- slots are counted from the bottom, and the stack from its top
  have same : ctx.stack.reverse.getD (ctx.height - (i + 1)) .undefined = .object id := by
    rw [← is, Ctx.get, Ctx.height, List.getD_eq_getElem?_getD, List.getD_eq_getElem?_getD,
      List.getElem?_reverse (by omega)]
    congr 2
    omega
  exact congrArg (EStateM.Result.ok · ctx) same

theorem over_defPropUnder {d : DefProp} {id : Nat} {key : Bytes}
    (defines : ∀ w slot, From R w₀ w (w.setOwn id key slot)) :
    Turns R w₀ (k :: some (.string key) :: some (.object id) :: known) (defPropUnder d)
      (some (.object id) :: known) := by
  refine .get_bind fun ctx here => ?_
  rintro s rfl
  -- [ object, key, value ]
  have found : slot (s.height - 3) s = .ok (.object id) s :=
    slot_of_get (here.slots 2 (.object id) rfl)
  have name : s.get 1 = .string key := here.slots 1 _ rfl
  rw [defProp, bind_ok found, bind_ok (getAt_run 1), name, bind_ok (getAt_run 0),
    bind_ok (get_run s)]
  cases new : (s.world.objects id).defines key (s.get 0) d with
  | none =>
    simp only [new]
    exact here.within
  | some slot =>
    simp only [new]
    have there : Over R w₀ (k :: some (.string key) :: some (.object id) :: known)
        { s with world := s.world.setOwn id key (some slot) } :=
      here.of_stack rfl (defines s.world (some slot) here.within)
    exact over_popN 2 _ there

theorem over_putGlobalString {key : Bytes} (takes : MayWrite host R w₀ globalId key) :
    Turns R w₀ (k :: known) (putGlobalString host key) known := by
  apply (over_requireRoom 3).bind
  intro _
  refine .get_bind fun ctx here => ?_
  cases stack : ctx.stack with
  | nil =>
    rintro s rfl
    exact here.within
  | cons v rest =>
    -- what lies under the value is not moved
    have writes : Meets (· = ctx) (writeProp host (.object globalId) key v)
        (fun _ => Over R w₀ []) (OnWorld fun _ => R w₀) := by
      rintro _ rfl
      exact over_writeProp takes v _ ⟨nofun, here.within⟩
    apply writes.bind
    intro _ t there
    refine ⟨fun i u is => ?_, there.within⟩
    have above := here.slots (i + 1) u is
    rwa [Ctx.get, stack] at above

end Steps

/-! ### Setting up printing and the console -/

section Fresh

variable {duktape : Nat} {rest : H} {w₀ : World (EnvHeap H)} {host : Host (EnvHeap H)}
  {known : List (Option JsVal)}

theorem readProp_duktape {ctx : Ctx (EnvHeap H)} (fresh : Fresh duktape rest ctx.world) :
    readProp host (.object globalId) (ascii "Duktape") ctx = .ok (.object duktape, true) ctx := by
  obtain ⟨wr, c, own⟩ := fresh.global
  exact Reads.own own

theorem over_evalFormat : Turns (StillFresh duktape rest) w₀ known (evalFormat host)
    (none :: known) := by
  apply (over_requireRoom 1).bind
  intro _ ctx here
  have fresh := here.within.1
  -- both are own properties, so that no script runs where they are read
  obtain ⟨v, wr, c, own⟩ := fresh.enc
  have enc : readProp host (.object duktape) (ascii "enc") ctx = .ok (v, true) ctx := Reads.own own
  rw [bind_ok (readProp_duktape fresh)]
  dsimp only
  rw [bind_ok enc]
  have pushes : Meets (Over (StillFresh duktape rest) w₀ known) pushScriptFunction
      (fun _ ctx => ∃ id, New (StillFresh duktape rest) w₀ id ∧
        Over (StillFresh duktape rest) w₀ (some (.object id) :: known) ctx)
      (OnWorld fun _ => StillFresh duktape rest w₀) := over_pushNew stillFresh_allocates _ none
  exact pushes.mono (fun _ here => here) (fun _ _ ⟨_, _, there⟩ => there.forget) ctx here

theorem over_consoleRegVarargFunc (plain : PlainWrites rest host) {console : Nat}
    (new : New (StillFresh duktape rest) w₀ console) (fn : Builtin) {name : Bytes}
    (ordinary : name ≠ ascii "__proto__") (flags : UInt32) :
    Turns (StillFresh duktape rest) w₀ (some (.object console) :: known)
      (consoleRegVarargFunc host fn name flags) (some (.object console) :: known) := by
  apply (over_pushBuiltin stillFresh_allocates stillFresh_setFunc fn varargs).bind
  intro _
  refine .exists fun func => .assume fun newFunc => ?_
  -- [ console, func ], and `func` gets its name
  apply (over_pushName _).bind
  intro _
  apply (over_pushBytes name).bind
  intro _
  apply (over_defPropUnder (stillFresh_setOwn (newFunc.spare _))).bind
  intro _
  -- [ console, func ] again
  apply (over_setMagic stillFresh_setFunc flags).bind
  intro _
  exact over_putPropString (i := 1) rfl (stillFresh_mayWrite plain (new.spare name) ordinary)

/-- A function of the global object. -/
theorem over_defFunction {name : Bytes} (other : name ≠ ascii "Duktape") (fn : Builtin) :
    Turns (StillFresh duktape rest) w₀ (some (.object globalId) :: known) (defFunction name fn)
      (some (.object globalId) :: known) := by
  apply (over_pushName name).bind
  intro _
  apply (over_pushBuiltin stillFresh_allocates stillFresh_setFunc fn varargs).bind
  intro _
  refine .exists fun func => .assume fun _ => ?_
  exact over_defPropUnder (stillFresh_setOwn (.inl ⟨rfl, other⟩))

theorem over_dukPrintAlertInit :
    Turns (StillFresh duktape rest) w₀ known dukPrintAlertInit known := by
  apply over_pushGlobal.bind
  intro _
  apply (over_defFunction (by decide) .print).bind
  intro _
  apply (over_defFunction (by decide) .alert).bind
  intro _
  exact over_pop

theorem over_dukConsoleInit (plain : PlainWrites rest host) :
    Turns (StillFresh duktape rest) w₀ known (dukConsoleInit host 0) known := by
  have reg : ∀ console, New (StillFresh duktape rest) w₀ console → ∀ fn name flags,
      name ≠ ascii "__proto__" →
      Turns (StillFresh duktape rest) w₀ (some (.object console) :: known)
        (consoleRegVarargFunc host fn name flags) (some (.object console) :: known) :=
    fun console new fn name flags ordinary =>
      over_consoleRegVarargFunc plain new fn ordinary flags
  apply over_pushNew_bind stillFresh_allocates
  intro console new
  apply over_evalFormat.bind
  intro _
  -- [ console, format ]
  apply (over_putPropString (i := 1) rfl
    (stillFresh_mayWrite plain (new.spare _) (by decide))).bind
  intro _
  -- the nine functions of the console
  iterate 9
    apply (reg console new _ _ _ (by decide)).bind
    intro _
  have put : MayWrite host (StillFresh duktape rest) w₀ globalId (ascii "console") :=
    stillFresh_mayWrite plain (.inl ⟨rfl, by decide⟩) (by decide)
  apply (over_putGlobalString put).bind
  intro _
  -- no flag asks for the Proxy
  exact .ite (fun asked => absurd rfl asked) fun _ => .pure fun ctx here => here

/-! ### Setting up the framework -/

theorem over_defineProperty {id : Nat} {key : Bytes} (spare : Spare duktape id key) (v : JsVal)
    (d : DefProp) : Turns (StillFresh duktape rest) w₀ known
      (defineProperty (.object id) key v d) known := by
  refine .get_bind fun ctx here => ?_
  rintro s rfl
  dsimp only
  cases new : (s.world.objects id).defines key v d with
  | none => exact here.within
  | some slot => exact here.of_stack rfl (stillFresh_setOwn spare s.world _ here.within)

theorem over_pushRequire : Meets (Over (StillFresh duktape rest) w₀ known) pushRequire
    (fun _ ctx => ∃ id, New (StillFresh duktape rest) w₀ id ∧
      Over (StillFresh duktape rest) w₀ (some (.object id) :: known) ctx)
    (OnWorld fun _ => StillFresh duktape rest w₀) := by
  have marks : ∀ w id, From (StillFresh duktape rest) w₀ w (markRequire w id) :=
    fun w id ⟨fresh, stash⟩ => ⟨fresh.of_heap rfl rfl rfl, stash⟩
  exact over_pushMarked stillFresh_allocates marks

/-- The framework is there, and nothing is loaded yet. -/
structure Ready (duktape cache : Nat) (w : World (EnvHeap H)) : Prop where
  framework : Framework duktape cache w
  notGlobal : cache ≠ globalId
  empty : ∀ id, loaded cache w id = none

theorem ready_of_fresh {w : World (EnvHeap H)} (fresh : Fresh duktape rest w)
    (stash : w.heap.stashedDuktape = .object duktape) :
    Ready duktape w.nextId ((w.withNew .plain none).setOwn duktape (ascii "modLoaded")
      (some (.data (.object w.nextId) true true))) := by
  have apart : w.nextId ≠ duktape := fresh.duktapeOld.ne'
  have own : ∀ key, (((w.withNew .plain none).setOwn duktape (ascii "modLoaded")
      (some (.data (.object w.nextId) true true))).objects w.nextId).own key = none := by
    intro key
    rw [objects_setOwn_of_ne apart, withNew_objects_self]
  refine ⟨⟨stash, ⟨true, true, ?_⟩, apart, ?_, ?_, fun id => .inl (own id)⟩,
    fresh.globalOld.ne', fun id => ?_⟩
  · rw [own_setOwn_self, Function.update_self]
  · exact Nat.lt_succ_self w.nextId
  · exact Nat.lt_succ_of_lt fresh.duktapeOld
  · rw [loaded, own]

theorem meets_registerRequire (stash : w₀.heap.stashedDuktape = .object duktape) {req : Nat}
    (new : New (StillFresh duktape rest) w₀ req) :
    Meets (Over (StillFresh duktape rest) w₀ known) (registerRequire host (.object req))
      (fun _ ctx => ∃ cache, Ready duktape cache ctx.world)
      (OnWorld fun _ => StillFresh duktape rest w₀) := by
  apply (over_defineProperty (new.spare _) _ _).bind
  intro _
  apply (over_defineProperty (.inl ⟨rfl, by decide⟩) _ _).bind
  intro _ ctx here
  obtain ⟨fresh, kept⟩ := here.within
  -- the table of modules is new, and `Duktape` is what it was before
  have own : ((ctx.world.withNew .plain none).objects duktape) = ctx.world.objects duktape :=
    withNew_objects_old fresh.duktapeOld _ _
  have absent : ((ctx.world.withNew .plain none).objects duktape).own (ascii "modLoaded") = none := by
    rw [own]
    exact fresh.absent
  have extensible : ((ctx.world.withNew .plain none).objects duktape).extensible = true := by
    rw [own]
    exact fresh.extensible
  have defines : ((ctx.world.withNew .plain none).objects duktape).defines (ascii "modLoaded")
      (.object ctx.world.nextId) .ordinary = some (.data (.object ctx.world.nextId) true true) :=
    defines_new .ordinary absent extensible
  rw [bind_ok (readProp_duktape fresh)]
  dsimp only
  rw [createNull, bind_assoc, bind_ok (get_run ctx), bind_assoc, bind_ok (set_run ctx _)]
  rw [pure_bind, defineProperty, bind_ok (get_run _)]
  simp only [defines]
  exact ⟨ctx.world.nextId, ready_of_fresh fresh (kept.trans stash)⟩

theorem dukModuleDuktapeInit_ready {ctx ctx' : Ctx (EnvHeap H)}
    (fresh : Fresh duktape rest ctx.world)
    (returned : dukModuleDuktapeInit host ctx = .ok () ctx') :
    ∃ cache, Ready duktape cache ctx'.world := by
  obtain ⟨wr, c, own⟩ := fresh.global
  obtain ⟨found, s, looked, registering⟩ := bind_eq_ok.mp returned
  have pushed : s = ctx.pushed (.object duktape) := by
    rw [getGlobalString_data own] at looked
    split at looked
    · cases looked
      rfl
    · cases looked
  rw [bind_ok (getAt_run 0), pushed] at registering
  -- the steps after the stashing start from here
  let stashed : World (EnvHeap H) :=
    { ctx.world with heap.stashedDuktape := .object duktape }
  have stash : stashed.heap.stashedDuktape = .object duktape := rfl
  have start : Over (StillFresh duktape rest) stashed []
      { ctx.pushed (.object duktape) with world := stashed } :=
    ⟨nofun, fresh.of_heap rfl rfl rfl, rfl⟩
  have registers : Meets (Over (StillFresh duktape rest) stashed []) (do
      pop
      pushScriptFunction
      pushRequire
      registerRequire host (← getAt 0)
      popN 2) (fun _ ctx => ∃ cache, Ready duktape cache ctx.world) fun _ _ => True := by
    apply (over_popN 1).anyError.bind
    intro _
    apply (over_pushNew stillFresh_allocates _ none).anyError.bind
    intro _
    refine .exists fun func => .assume fun _ => ?_
    apply over_pushRequire.anyError.bind
    intro _
    refine .exists fun req => .assume fun new => ?_
    apply over_getAt_bind (i := 0) rfl
    apply (meets_registerRequire stash new).anyError.bind
    intro _ ctx ready
    rw [popN_run]
    by_cases enough : 2 ≤ ctx.height
    · rw [if_pos enough]
      exact ready
    · rw [if_neg enough]
      trivial
  exact registers.of_ok start registering

end Fresh

/-! ### Functions for the search, and the search -/

section Search

variable {host : Host (EnvHeap H)} {R : World (EnvHeap H) → World (EnvHeap H) → Prop}
  (admits : host.Admits R)
include admits

theorem within_initGlobalFuncs (marks : ∀ w id func, R w (setFunc w id func)) :
    Within R (initGlobalFuncs host) := by
  refine within_of_turns admits [] fun w₀ => ?_
  have sets : ∀ name func nargs, Turns R w₀ [some (.object globalId)]
      (setGlobalFunction host name func nargs) [some (.object globalId)] := by
    intro name func nargs
    apply (over_pushBytes name).bind
    intro _
    have from_here : ∀ w id func, From R w₀ w (setFunc w id func) :=
      fun w id func reached => admits.trans reached (marks w id func)
    apply (over_pushBuiltin admits.allocates from_here func nargs).bind
    intro _
    refine .exists fun id => .assume fun _ => ?_
    exact (over_putProp (admits.takes (.inl rfl))).bind fun _ => .pure fun ctx here => here
  apply over_pushGlobal.bind
  intro _
  apply (sets _ _ _).bind
  intro _
  apply (sets _ _ _).bind
  intro _
  apply (sets _ _ _).bind
  intro _
  exact over_pop

theorem within_setModSearch (exeDir modPath : Option Bytes) :
    Within R (setModSearch host exeDir modPath) := by
  have respects := admits.toRespects
  rw [setModSearch]
  -- the text of the search stays unread, as it is long
  obtain ⟨source, same⟩ : ∃ source, source = pushModSearch := ⟨_, rfl⟩
  rw [← same]
  cases modPath.or exeDir with
  | none => exact within_pure respects ()
  | some path =>
    dsimp only
    cases source path with
    | none => exact within_raise respects _
    | some src =>
      have evaluates : Within R (peval host) := by
        apply within_bind respects (within_getAt respects 0)
        intro v
        cases v with
        | string src =>
          exact within_andThen respects (within_popN respects 1) (within_pevalLstring respects (some src))
        | _ => exact within_raise respects _
      apply within_andThen respects (within_pushBytes respects src)
      apply within_bind respects evaluates
      intro ret
      refine .ite ?_ (within_popN respects 1)
      exact within_andThen respects (within_safeToString respects) (within_popN respects 1)

end Search

/-! ### Environments and the calls made in them -/

section Runs

variable {duktape cache : Nat} {rest : H}

/-- What `require` relies on, of setters and of instances that the host makes as well. -/
structure EnvironmentHost (duktape cache : Nat) (host : Host (EnvHeap H)) : Prop
    extends CacheHost duktape cache host where
  createInstance : ∀ w free create udd,
    (host.createInstance w free create udd).Within (Grows duktape cache) w
  writeThrough : ∀ w free id key v outcome, host.writeThrough w free id key v = some outcome →
    outcome.Within (Grows duktape cache) w

variable {host : Host (EnvHeap H)}

theorem admits_grows (hosts : EnvironmentHost duktape cache host) (notGlobal : cache ≠ globalId)
    (apart : duktape ≠ globalId) : host.Admits (Grows duktape cache) where
  toRespects := hosts.respects
  createInstance := hosts.createInstance
  writeThrough := hosts.writeThrough
  global w key slot := grows_setOwn notGlobal.symm fun same => absurd same.symm apart
  made {w₀ w w'} key slot first next := by
    intro framework
    -- both objects were there before
    have there := (first framework).1
    have written : Grows duktape cache w' (w'.setOwn w.nextId key slot) :=
      grows_setOwn there.cacheOld.ne' fun same => absurd same there.duktapeOld.ne'
    exact GrowsBut.trans next written framework

theorem grows_setFunc (w : World (EnvHeap H)) (id : Nat) (func : Option BuiltinFunc) :
    Grows duktape cache w (setFunc w id func) :=
  grows_of_untouched rfl rfl rfl (Nat.le_refl _)

/-- What `js_create_env` does before any script can run. -/
def madeModules (host : Host (EnvHeap H)) : Duk (EnvHeap H) Unit := do
  dukPrintAlertInit
  dukConsoleInit host 0
  dukModuleDuktapeInit host

theorem jsCreateEnv_framework {exeDir modPath : Option Bytes} {start env : Ctx (EnvHeap H)}
    (fresh : Fresh duktape rest start.world) (plain : PlainWrites rest host)
    (created : jsCreateEnv host exeDir modPath start = .ok () env) :
    ∃ cache made, madeModules host start = .ok () made ∧ Ready duktape cache made.world ∧
      (EnvironmentHost duktape cache host → Framework duktape cache env.world) := by
  -- the five parts return one after the other
  obtain ⟨_, printing, printed, later⟩ := bind_eq_ok.mp created
  obtain ⟨_, console, consoled, later⟩ := bind_eq_ok.mp later
  obtain ⟨_, modules, registered, later⟩ := bind_eq_ok.mp later
  have start' : Over (StillFresh duktape rest) start.world [] start := ⟨nofun, fresh, rfl⟩
  have prints := over_dukPrintAlertInit.of_ok start' printed
  have consoles := (over_dukConsoleInit plain).of_ok prints consoled
  obtain ⟨cache, ready⟩ := dukModuleDuktapeInit_ready consoles.within.1 registered
  have made : madeModules host start = .ok () modules := by
    rw [madeModules, bind_ok printed, bind_ok consoled, registered]
  refine ⟨cache, modules, made, ready, fun hosts => ?_⟩
  -- the search is a script, so the heap is fresh no longer, but the framework stays
  have admits := admits_grows hosts ready.notGlobal fresh.apart
  obtain ⟨_, funcs, global, search⟩ := bind_eq_ok.mp later
  have first := (within_initGlobalFuncs admits grows_setFunc).of_ok global
  have next := (within_setModSearch admits exeDir modPath).of_ok search
  exact (GrowsBut.trans first next ready.framework).1

/-- In an environment, whatever the host calls in whichever order, the framework stays set up and
what is loaded once is served from then on. -/
theorem environment_keeps_modules (garbage : World (EnvHeap H) → Vector UInt8 moduleIdLimit)
    {exeDir modPath : Option Bytes} {start env : Ctx (EnvHeap H)}
    (fresh : Fresh duktape rest start.world) (plain : PlainWrites rest host)
    (hosts : ∀ cache made, madeModules host start = .ok () made → Ready duktape cache made.world →
      EnvironmentHost duktape cache host)
    (created : jsCreateEnv host exeDir modPath start = .ok () env)
    (calls : List (HostCall × Ctx (EnvHeap H))) (run : HostRun host env calls) :
    ∃ cache, (∀ s ∈ env :: calls.map Prod.snd, Framework duktape cache s.world) ∧
      (env :: calls.map Prod.snd).Pairwise fun s t => ∀ id found,
        loaded cache s.world id.bytes = some found →
          Serves duktape cache host garbage id found t.world := by
  obtain ⟨cache, made, initialized, ready, framework⟩ := jsCreateEnv_framework fresh plain created
  have keeps := hosts cache made initialized ready
  have admits := admits_grows keeps ready.notGlobal fresh.apart
  have moves := run.pairwise admits
  have frameworks : ∀ s ∈ env :: calls.map Prod.snd, Framework duktape cache s.world := by
    intro s member
    rcases List.mem_cons.mp member with rfl | later
    · exact framework keeps
    · exact ((List.pairwise_cons.mp moves).1 s later (framework keeps)).1
  refine ⟨cache, frameworks, ?_⟩
  -- an entry stays in the cache, and what is in the cache is served
  refine moves.imp_of_mem ?_
  intro s t here there grows id found entry
  have kept := (grows (frameworks s here)).2 id.bytes found not_false entry
  exact serves_of_entry keeps.toCacheHost (frameworks t there) kept

/-- A heap with nothing but the global object and `Duktape`. -/
def freshWorld : World (EnvHeap Unit) where
  objects
    | 0 => ⟨.plain, fun key => if key = ascii "Duktape" then some (.data (.object 1) true true)
        else none, true, none⟩
    | 1 => ⟨.plain, fun key => if key = ascii "enc" then some (.data (.lightfunc 1) true true)
        else none, true, none⟩
    | _ => ⟨.plain, fun _ => none, true, none⟩
  nextId := 2
  reads := 0
  heap := ⟨fun _ => false, .undefined, fun _ => none, ()⟩

theorem freshWorld_fresh : Fresh 1 () freshWorld where
  global := ⟨true, true, rfl⟩
  enc := ⟨.lightfunc 1, true, true, rfl⟩
  absent := rfl
  extensible := rfl
  apart := by decide
  globalOld := by decide
  duktapeOld := by decide
  rest := rfl

def freshStart : Ctx (EnvHeap Unit) := ⟨[], 110, freshWorld⟩

/-- A host for which every text makes `Duktape.modSearch` a function that finds each module without
a text, and whose script functions are `require` functions. The string `a` is stored at 8. -/
def searchingHost : Host (EnvHeap Unit) :=
  { bareHost with
    mem := fun a => if a = 8 then 97 else 0
    compile := fun w _ _ _ _ => .returns (.lightfunc 2) w 0
    call := fun w _ _ func args =>
      match func with
      | .lightfunc 2 => .returns .undefined
          (w.setOwn 1 (ascii "modSearch") (some (.data (.lightfunc 3) true true))) 0
      | .object f =>
        if w.heap.isRequire f then
          callRequire bareHost (fun _ => Vector.replicate _ 0) w f (args.getD 0 .undefined)
        else .returns .undefined w 0
      | _ => .returns .undefined w 0 }

theorem searchingHost_environmentHost {cache : Nat} (apart : cache ≠ 1) :
    EnvironmentHost 1 cache searchingHost where
  respects :=
    { (bareHost_cacheHost 1 cache).respects with
      compile := fun w _ _ _ _ => GrowsBut.refl w
      call := fun w _ _ func _ => by
        rw [searchingHost]
        dsimp only
        split
        · exact grows_setOwn apart.symm fun _ => by decide
        · split
          · exact callRequire_within (bareHost_cacheHost 1 cache)
          · exact GrowsBut.refl w
        · exact GrowsBut.refl w }
  noPrototype _ _ _ := rfl
  noSetter _ _ _ _ := rfl
  hidden := by
    rintro w src filename func w₁ v w₂ _ ⟨_, compiled⟩ ⟨_, called⟩ same
    obtain ⟨_, _, compiled⟩ | ⟨failed, _⟩ := compiled
    · cases compiled
      obtain ⟨_, _, called⟩ | ⟨failed, _⟩ := called
      · rw [same] at called
        cases called
      · cases failed
    · cases failed
  createInstance w _ _ _ := GrowsBut.refl w
  writeThrough _ _ _ _ _ _ taken := by cases taken

/-- A call of `require` with the argument `a`. -/
def requireA : HostCall := .callRegisteredFunc (ascii "require") true (some (ascii "S")) [1, 8]

/-- The global `require` is overwritten. -/
def overwriteRequire : HostCall := .registerVar (ascii "require") .bool 1 0

/-- In the environment for `/home` a module is required, and it is served even after `require` has
been overwritten. -/
theorem environment_keeps_modules_test : ∃ env required last cache found,
    jsCreateEnv searchingHost none (some (ascii "/home")) freshStart = .ok () env ∧
    HostRun searchingHost env [(requireA, required), (overwriteRequire, last)] ∧
    loaded cache env.world moduleA.bytes = none ∧
    loaded cache required.world moduleA.bytes = some found ∧
    Framework 1 cache last.world ∧
    Serves 1 cache searchingHost (fun _ => Vector.replicate _ 0) moduleA found last.world := by
  -- the table of modules is object 17
  have runs : returnsIn (fun env =>
      (env.world.objects 1).own (ascii "modLoaded") = some (.data (.object 17) true true) ∧
        loaded 17 env.world moduleA.bytes = none ∧
        returnsIn (fun required => (loaded 17 required.world moduleA.bytes).isSome ∧
          returnsIn (fun _ => true) (overwriteRequire.run searchingHost) required)
        (requireA.run searchingHost) env)
      (jsCreateEnv searchingHost none (some (ascii "/home"))) freshStart = true := by decide +kernel
  obtain ⟨_, env, created, runs⟩ := returnsIn_eq_true.mp runs
  obtain ⟨table, absent, runs⟩ := of_decide_eq_true runs
  obtain ⟨_, required, requires, runs⟩ := returnsIn_eq_true.mp runs
  obtain ⟨entered, runs⟩ := of_decide_eq_true runs
  obtain ⟨_, last, overwrites, _⟩ := returnsIn_eq_true.mp runs
  obtain ⟨found, entry⟩ := Option.isSome_iff_exists.mp entered
  have run : HostRun searchingHost env [(requireA, required), (overwriteRequire, last)] :=
    ⟨requires, overwrites, trivial⟩
  obtain ⟨cache, frameworks, serves⟩ := environment_keeps_modules (fun _ => Vector.replicate _ 0)
    freshWorld_fresh (fun _ _ _ _ _ _ _ => rfl)
    (fun cache _ _ ready => searchingHost_environmentHost ready.framework.apart) created _ run
  obtain ⟨_, _, own⟩ := (frameworks env List.mem_cons_self).modLoaded
  rw [table] at own
  cases own
  refine ⟨env, required, last, 17, found, created, run, absent, entry, ?_, ?_⟩
  · exact frameworks last (by simp)
  · have later := (List.pairwise_cons.mp (List.pairwise_cons.mp serves).2).1 last (by simp)
    exact later moduleA found entry

end Runs

end DukBridge
