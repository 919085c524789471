import DukBridge.GoCalls

/-!
# Functions bound on the global object

A Go program binds functions to global names and takes the names back. The status of an
operation goes through Duktape's boolean, C's zero and Go's error.
-/
namespace DukBridge

open Effect

variable {H : Type} (host : Host H)

namespace JSEnv

def registerCodeFunc (jsCode : GoBytes host.mem) (funcName : Bytes) : Duk H (Option GoErr) := do
  return fromErrorCode (← jsRegisterCodeFunc host (scriptBytes host jsCode) (cString funcName))

def registerFileFunc (scriptFile funcName : Bytes) : Duk H (Option GoErr) := do
  return fromErrorCode (← jsRegisterFileFunc host (cString scriptFile) (cString funcName))

def unregisterFunc (funcName : Bytes) : Duk H (Option GoErr) := do
  return fromErrorCode (← jsUnregisterFunc (cString funcName))

end JSEnv

variable {host} {ctx ctx' : Ctx H}

/-! ### Unregistering a native function -/

/-- What a global of this name holds, if there is one. A property of its own can be deleted. -/
inductive Binding (host : Host H) (w : World H) (name : Bytes) : Option JsVal → Prop where
  | absent (own : (w.objects globalId).own name = none)
      (nowhere : ∀ free, host.readThrough w free (.object globalId) name = .returns none w 0) :
      Binding host w name none
  | own {v writable} (own : (w.objects globalId).own name = some (.data v writable true)) :
      Binding host w name (some v)
  /-- A prototype of the global object has it. -/
  | inherited {v} (own : (w.objects globalId).own name = none)
      (found : ∀ free, host.readThrough w free (.object globalId) name = .returns (some v) w 0) :
      Binding host w name (some v)

/-- A function that `make_func_bridge` has made. -/
def IsBridge (w : World H) (v : JsVal) : Prop :=
  ∃ id nargs nativeFunc writable configurable, v = .object id ∧
    (w.objects id).native = some (.nativeFuncBridge, nargs) ∧
    (w.objects id).own nativeFuncKey = some (.data nativeFunc writable configurable)

/-- Scripts cannot name a hidden property, so that a read of one runs none of their code. -/
def HiddenReads (host : Host H) : Prop :=
  ∀ w target, ∃ found, ∀ free, host.readThrough w free target nativeFuncKey = .returns found w 0

/-- The hidden property of a native function is found on the value or on a prototype of it. -/
def Marked (host : Host H) (w : World H) (v : JsVal) : Prop :=
  ∃ nativeFunc, ∀ ctx : Ctx H, ctx.world = w → Reads host ctx v nativeFuncKey (some nativeFunc)

theorem Binding.reads {name : Bytes} {held : Option JsVal} (binding : Binding host ctx.world name held) :
    Reads host ctx (.object globalId) name held := by
  cases binding with
  | absent own nowhere => exact Reads.inherited own (nowhere _)
  | own own => exact Reads.own own
  | inherited own found => exact Reads.inherited own (found _)

theorem IsBridge.marked {w : World H} {v : JsVal} (bridge : IsBridge w v) : Marked host w v := by
  obtain ⟨id, nargs, nativeFunc, writable, configurable, rfl, _, own⟩ := bridge
  refine ⟨nativeFunc, fun ctx world => ?_⟩
  subst world
  exact Reads.own own

/-- The probe of a value that is neither undefined nor null comes back. -/
theorem probe_answers (hidden : HiddenReads host) {v : JsVal} (undefined : v ≠ .undefined)
    (null : v ≠ .null) (w : World H) :
    Marked host w v ∨ ∀ ctx : Ctx H, ctx.world = w → Reads host ctx v nativeFuncKey none := by
  obtain ⟨found, answers⟩ := hidden w v
  by_cases own : ∃ id p writable configurable, v = .object id ∧
      (w.objects id).own nativeFuncKey = some (.data p writable configurable)
  · obtain ⟨id, p, writable, configurable, rfl, slot⟩ := own
    refine .inl ⟨p, fun ctx world => ?_⟩
    subst world
    exact Reads.own slot
  · -- without such a property of its own, the value's prototypes decide
    have through : ∀ ctx : Ctx H, ctx.world = w → Reads host ctx v nativeFuncKey found := by
      rintro ctx rfl
      apply Reads.through undefined null _ (answers _)
      intro id p _ _ same slot
      exact own ⟨id, p, _, _, same, slot⟩
    cases found with
    | none => exact .inr through
    | some p => exact .inl ⟨p, through⟩

theorem probe_throws {v : JsVal} (nullish : v = .undefined ∨ v = .null) :
    readProp host v nativeFuncKey ctx = .error (.thrown .typeError) ctx := by
  rcases nullish with rfl | rfl <;> rfl

section Exits

variable {name : Bytes} {code : Int32}

theorem pushGlobalObject_eq_ok {u : Unit} : pushGlobalObject ctx = .ok u ctx' ↔
    ctx.height + 1 ≤ ctx.reserve ∧ ctx' = ctx.pushed (.object globalId) := push_eq_ok

/-- Below all three exits: the global object, and what is under the name. -/
theorem unregister_absent (absent : Binding host ctx.world name none) :
    jsUnregisterNativeFunc host name ctx = .ok code ctx' ↔
      ctx.height + 3 ≤ ctx.reserve ∧ code = -1 ∧ ctx' = ctx := by
  have missing : ∀ {found after}, getPropString host 0 name (ctx.pushed (.object globalId)) =
      .ok found after ↔ ctx.height + 3 ≤ ctx.reserve ∧ found = false ∧
        after = (ctx.pushed (.object globalId)).pushed .undefined :=
    getPropString_missing_eq_ok (Binding.reads absent)
  rw [jsUnregisterNativeFunc]
  constructor
  · intro returned
    obtain ⟨_, a, global, rest⟩ := bind_eq_ok.mp returned
    obtain ⟨_, rfl⟩ := pushGlobalObject_eq_ok.mp global
    obtain ⟨found, b, looked, rest⟩ := bind_eq_ok.mp rest
    obtain ⟨room, rfl, rfl⟩ := missing.mp looked
    cases rest
    exact ⟨room, rfl, rfl⟩
  · rintro ⟨room, rfl, rfl⟩
    have global : pushGlobalObject ctx' = .ok () (ctx'.pushed (.object globalId)) :=
      pushGlobalObject_eq_ok.mpr ⟨by omega, rfl⟩
    rw [bind_ok global, bind_ok (missing.mpr ⟨room, rfl, rfl⟩)]
    rfl

/-- What follows the first look-up, which has found `v`. -/
theorem unregister_found {v : JsVal} (held : Binding host ctx.world name (some v)) :
    jsUnregisterNativeFunc host name ctx = .ok code ctx' ↔
      ctx.height + 4 ≤ ctx.reserve ∧ (do
        if !(← getPropString host 0 nativeFuncKey) then
          popN 3
          return -2
        popN 2
        let _ ← delPropString name
        pop
        return 0 : Duk H Int32) ((ctx.pushed (.object globalId)).pushed v) = .ok code ctx' := by
  have found : ∀ {has after}, getPropString host 0 name (ctx.pushed (.object globalId)) =
      .ok has after ↔ ctx.height + 4 ≤ ctx.reserve ∧ has = true ∧
        after = (ctx.pushed (.object globalId)).pushed v :=
    getPropString_found_eq_ok (Binding.reads held)
  rw [jsUnregisterNativeFunc]
  constructor
  · intro returned
    obtain ⟨_, a, global, rest⟩ := bind_eq_ok.mp returned
    obtain ⟨_, rfl⟩ := pushGlobalObject_eq_ok.mp global
    obtain ⟨has, b, looked, rest⟩ := bind_eq_ok.mp rest
    obtain ⟨room, rfl, rfl⟩ := found.mp looked
    exact ⟨room, rest⟩
  · rintro ⟨room, rest⟩
    have global : pushGlobalObject ctx = .ok () (ctx.pushed (.object globalId)) :=
      pushGlobalObject_eq_ok.mpr ⟨by omega, rfl⟩
    rw [bind_ok global, bind_ok (found.mpr ⟨room, rfl, rfl⟩)]
    exact rest

theorem unregister_nullish {v : JsVal} (held : Binding host ctx.world name (some v))
    (nullish : v = .undefined ∨ v = .null) :
    jsUnregisterNativeFunc host name ctx ≠ .ok code ctx' := by
  intro returned
  obtain ⟨_, rest⟩ := (unregister_found held).mp returned
  obtain ⟨_, _, probed, _⟩ := bind_eq_ok.mp rest
  obtain ⟨_, a, room, probed⟩ := bind_eq_ok.mp probed
  obtain ⟨_, rfl⟩ := requireRoom_eq_ok.mp room
  rw [bind_ok (getAt_run 0)] at probed
  obtain ⟨_, _, read, _⟩ := bind_eq_ok.mp probed
  have throws : readProp host v nativeFuncKey ((ctx.pushed (.object globalId)).pushed v) = _ :=
    probe_throws nullish
  cases throws.symm.trans read

theorem unregister_unmarked {v : JsVal} (held : Binding host ctx.world name (some v))
    (unmarked : ∀ ctx' : Ctx H, ctx'.world = ctx.world → Reads host ctx' v nativeFuncKey none) :
    jsUnregisterNativeFunc host name ctx = .ok code ctx' ↔
      ctx.height + 4 ≤ ctx.reserve ∧ code = -2 ∧ ctx' = ctx := by
  have missing : ∀ {found after}, getPropString host 0 nativeFuncKey
      ((ctx.pushed (.object globalId)).pushed v) = .ok found after ↔
      ctx.height + 4 ≤ ctx.reserve ∧ found = false ∧
        after = ((ctx.pushed (.object globalId)).pushed v).pushed .undefined :=
    getPropString_missing_eq_ok (unmarked _ rfl)
  rw [unregister_found held]
  constructor
  · rintro ⟨room, rest⟩
    obtain ⟨found, b, probed, rest⟩ := bind_eq_ok.mp rest
    obtain ⟨_, rfl, rfl⟩ := missing.mp probed
    cases rest
    exact ⟨room, rfl, rfl⟩
  · rintro ⟨room, rfl, rfl⟩
    refine ⟨room, ?_⟩
    rw [bind_ok (missing.mpr ⟨room, rfl, rfl⟩)]
    rfl

theorem unregister_marked {v : JsVal} (held : Binding host ctx.world name (some v))
    (marked : Marked host ctx.world v) :
    jsUnregisterNativeFunc host name ctx = .ok code ctx' ↔
      ctx.height + 5 ≤ ctx.reserve ∧ ctx.global.deletes name = true ∧ code = 0 ∧
        ctx' = { ctx with world := ctx.world.setOwn globalId name none } := by
  obtain ⟨nativeFunc, reads⟩ := marked
  have found : ∀ {has after}, getPropString host 0 nativeFuncKey
      ((ctx.pushed (.object globalId)).pushed v) = .ok has after ↔
      ctx.height + 5 ≤ ctx.reserve ∧ has = true ∧
        after = ((ctx.pushed (.object globalId)).pushed v).pushed nativeFunc :=
    getPropString_found_eq_ok (reads _ rfl)
  have deleted : ∀ {done after}, delPropString name (ctx.pushed (.object globalId)) =
      .ok done after ↔ ctx.height + 4 ≤ ctx.reserve ∧ ctx.global.deletes name = true ∧
        done = true ∧ after = { ctx.pushed (.object globalId) with
          world := ctx.world.setOwn globalId name none } :=
    delPropString_eq_ok rfl
  rw [unregister_found held]
  constructor
  · rintro ⟨_, rest⟩
    obtain ⟨has, b, probed, rest⟩ := bind_eq_ok.mp rest
    obtain ⟨room, rfl, rfl⟩ := found.mp probed
    -- the bridge's pointer leaves the stack before the name is deleted
    obtain ⟨_, c, popped, rest⟩ := bind_eq_ok.mp rest
    obtain ⟨_, rfl⟩ := popN_eq_ok.mp popped
    obtain ⟨done, d, removed, rest⟩ := bind_eq_ok.mp rest
    obtain ⟨_, deletes, rfl, rfl⟩ := deleted.mp removed
    cases rest
    exact ⟨room, deletes, rfl, rfl⟩
  · rintro ⟨room, deletes, rfl, rfl⟩
    refine ⟨by omega, ?_⟩
    rw [bind_ok (found.mpr ⟨room, rfl, rfl⟩)]
    refine bind_eq_ok.mpr ⟨(), ctx.pushed (.object globalId), popN_eq_ok.mpr ⟨?_, rfl⟩, ?_⟩
    · simp only [Ctx.pushed_height]
      omega
    · exact bind_eq_ok.mpr ⟨true, _, deleted.mpr ⟨by omega, deletes, rfl, rfl⟩, rfl⟩

end Exits

variable (host) in
/-- The operation as it is documented: 0 for a native function, whose property goes, -1 for no
property and -2 for any other value. Nothing else changes, and nothing is raised. -/
def UnregistersNative (ctx : Ctx H) (name : Bytes) (held : Option JsVal) : Prop :=
  ∃ code after, jsUnregisterNativeFunc host name ctx = .ok code after ∧ after.stack = ctx.stack ∧
    (held = none → code = -1 ∧ after.world = ctx.world) ∧
    ∀ v, held = some v →
      (IsBridge ctx.world v → code = 0 ∧ (ctx.global.own name).isSome = true ∧
        after.world = ctx.world.setOwn globalId name none) ∧
      (¬ IsBridge ctx.world v → code = -2 ∧ after.world = ctx.world)

/-- The value can be probed, and the probe tells what it is; a native function is a property of
the global object itself. -/
structure ProbedRight (host : Host H) (w : World H) (name : Bytes) (v : JsVal) : Prop where
  notUndefined : v ≠ .undefined
  notNull : v ≠ .null
  marked : Marked host w v → IsBridge w v
  own : IsBridge w v → ((w.objects globalId).own name).isSome = true

/-- The slots the operation comes to need. -/
def HasSlots (ctx : Ctx H) : Option JsVal → Prop
  | none => ctx.height + 3 ≤ ctx.reserve
  | some v => ctx.height + 4 ≤ ctx.reserve ∧
    (IsBridge ctx.world v → ctx.height + 5 ≤ ctx.reserve)

theorem Binding.deletes {w : World H} {name : Bytes} {held : Option JsVal}
    (binding : Binding host w name held) : (w.objects globalId).deletes name = true := by
  cases binding with
  | absent own | inherited own => rw [ObjectRec.deletes, own]
  | own own =>
    rw [ObjectRec.deletes, own]
    rfl

/-- A value cannot be found marked and unmarked at once. -/
theorem not_marked {v : JsVal} (unmarked : ∀ ctx' : Ctx H, ctx'.world = ctx.world →
    Reads host ctx' v nativeFuncKey none) : ¬ Marked host ctx.world v := by
  rintro ⟨nativeFunc, reads⟩
  have some : readProp host v nativeFuncKey ctx = .ok (nativeFunc, true) ctx := reads ctx rfl
  have none : readProp host v nativeFuncKey ctx = .ok (.undefined, false) ctx := unmarked ctx rfl
  cases some.symm.trans none

/-- For every name and every value that its global may hold, `js_unregister_native_func` does what
it is documented to do exactly when there is room on the stack and the probe is right about the
value. -/
theorem unregistersNative_iff (hidden : HiddenReads host) (ctx : Ctx H) (name : Bytes)
    (held : Option JsVal) (binding : Binding host ctx.world name held) :
    UnregistersNative host ctx name held ↔
      HasSlots ctx held ∧ ∀ v, held = some v → ProbedRight host ctx.world name v := by
  cases held with
  | none =>
    constructor
    · rintro ⟨code, after, returned, _⟩
      obtain ⟨room, _⟩ := (unregister_absent binding).mp returned
      exact ⟨room, fun v impossible => by cases impossible⟩
    · rintro ⟨room, _⟩
      exact ⟨-1, ctx, (unregister_absent binding).mpr ⟨room, rfl, rfl⟩, rfl, fun _ => ⟨rfl, rfl⟩,
        fun v impossible => by cases impossible⟩
  | some v =>
    by_cases nullish : v = .undefined ∨ v = .null
    · refine iff_of_false ?_ ?_
      · rintro ⟨code, after, returned, _⟩
        exact unregister_nullish binding nullish returned
      · rintro ⟨_, probed⟩
        rcases nullish with undefined | null
        · exact (probed v rfl).notUndefined undefined
        · exact (probed v rfl).notNull null
    · have undefined : v ≠ .undefined := fun same => nullish (.inl same)
      have null : v ≠ .null := fun same => nullish (.inr same)
      rcases probe_answers hidden undefined null ctx.world with marked | unmarked
      · constructor
        · rintro ⟨code, after, returned, _, _, outcome⟩
          obtain ⟨room, _, rfl, rfl⟩ := (unregister_marked binding marked).mp returned
          obtain ⟨bridge, other⟩ := outcome v rfl
          -- 0 is the answer for a native function only
          have isBridge : IsBridge ctx.world v := by
            by_contra notBridge
            exact absurd (other notBridge).1 (by decide)
          refine ⟨⟨by omega, fun _ => room⟩, ?_⟩
          rintro _ ⟨⟩
          exact ⟨undefined, null, fun _ => isBridge, fun _ => (bridge isBridge).2.1⟩
        · rintro ⟨⟨_, room⟩, probed⟩
          have isBridge := (probed v rfl).marked marked
          refine ⟨0, _, (unregister_marked binding marked).mpr
            ⟨room isBridge, binding.deletes, rfl, rfl⟩, rfl, fun impossible => (by cases impossible), ?_⟩
          rintro _ ⟨⟩
          exact ⟨fun _ => ⟨rfl, (probed v rfl).own isBridge, rfl⟩, fun not => absurd isBridge not⟩
      · have notMarked := not_marked unmarked
        have notBridge : ¬ IsBridge ctx.world v := fun bridge => notMarked bridge.marked
        constructor
        · rintro ⟨code, after, returned, _⟩
          obtain ⟨room, _⟩ := (unregister_unmarked binding unmarked).mp returned
          refine ⟨⟨room, fun bridge => absurd bridge notBridge⟩, ?_⟩
          rintro _ ⟨⟩
          exact ⟨undefined, null, fun marked => absurd marked notMarked,
            fun bridge => absurd bridge notBridge⟩
        · rintro ⟨⟨room, _⟩, _⟩
          refine ⟨-2, ctx, (unregister_unmarked binding unmarked).mpr ⟨room, rfl, rfl⟩, rfl,
            fun impossible => (by cases impossible), ?_⟩
          rintro _ ⟨⟩
          exact ⟨fun bridge => absurd bridge notBridge, fun _ => ⟨rfl, rfl⟩⟩

theorem stillHost_hidden : HiddenReads stillHost := fun _ _ => ⟨none, fun _ => rfl⟩

theorem unregistersNative_iff_absent : UnregistersNative stillHost freshEnvironment (ascii "f") none :=
  (unregistersNative_iff stillHost_hidden freshEnvironment (ascii "f") none
    (.absent rfl fun _ => rfl)).mpr ⟨show 0 + 3 ≤ 110 by decide, fun v impossible => by cases impossible⟩

/-- A script has run `var f`. -/
def undefinedGlobal : Ctx Unit :=
  { freshEnvironment with
    world := freshEnvironment.world.setOwn globalId (ascii "f") (some (.data .undefined true true)) }

/-- The probe of undefined throws. -/
theorem undefined_global_throws :
    Binding stillHost undefinedGlobal.world (ascii "f") (some .undefined) ∧
    undefinedGlobal.height + 110 = undefinedGlobal.reserve ∧
    (∃ ctx', jsUnregisterNativeFunc stillHost (ascii "f") undefinedGlobal =
      .error (.thrown .typeError) ctx') ∧
    ¬ UnregistersNative stillHost undefinedGlobal (ascii "f") (some .undefined) := by
  refine ⟨.own rfl, rfl, ⟨_, rfl⟩, ?_⟩
  rintro ⟨code, after, returned, _⟩
  cases returned

/-! ### Functions written in JavaScript -/

/-- Where the text of a function comes from. -/
inductive FunctionSource (mem : Memory) where
  | code (jsCode : GoBytes mem)
  | file (scriptFile : Bytes)

def FunctionSource.register (host : Host H) (source : FunctionSource host.mem) (funcName : Bytes) :
    Duk H (Option GoErr) :=
  match source with
  | .code jsCode => JSEnv.registerCodeFunc host jsCode funcName
  | .file scriptFile => JSEnv.registerFileFunc host scriptFile funcName

/-- The text has been compiled to `f`. -/
inductive Compiles (host : Host H) (w : World H) : FunctionSource host.mem → JsVal → World H → Prop
    where
  | code {jsCode free f w' reserved}
      (compiled : host.compile w free .function (scriptBytes host jsCode) none =
        .returns f w' reserved) : Compiles host w (.code jsCode) f w'
  | file {scriptFile src free f w' reserved}
      (readable : host.readFileContent (cString scriptFile) = .ok src)
      (compiled : host.compile w free .function src (some (cString scriptFile)) =
        .returns f w' reserved) : Compiles host w (.file scriptFile) f w'

theorem protect_eq_ok {outcome : Outcome H JsVal} {v : JsVal} :
    outcome.protect ctx = .ok (v, 0) ctx' ↔ ∃ w reserved, outcome = .returns v w reserved ∧
      ctx' = { ctx with world := w, reserve := ctx.reserve + reserved } := by
  cases outcome with
  | returns a w reserved =>
    constructor
    · intro returned
      cases returned
      exact ⟨w, reserved, rfl, rfl⟩
    · rintro ⟨_, _, same, rfl⟩
      cases same
      rfl
  | throws e w reserved =>
    refine iff_of_false (fun returned => ?_) (fun ⟨_, _, same, _⟩ => by cases same)
    have status : ((e, 1) : JsVal × Int32) = (v, 0) := (EStateM.Result.ok.inj returned).1
    exact absurd (congrArg Prod.snd status) (show (1 : Int32) ≠ 0 by decide)
  | never =>
    exact iff_of_false (fun returned => by cases returned) (fun ⟨_, _, same, _⟩ => by cases same)

theorem bindFunction_ok {failed code : Int32} {name : Bytes} {f : JsVal} {below : List JsVal}
    (plain : host.writeThrough ctx.world ctx.free globalId name f = none)
    (stack : ctx.stack = f :: .string name :: .object globalId :: below)
    (returned : bindFunction host failed ctx = .ok code ctx') :
    below.length + 4 ≤ ctx.reserve ∧ ∃ configurable, ctx.global.accepts name = some configurable ∧
      ctx' = ⟨below, ctx.reserve,
        ctx.world.setOwn globalId name (some (.data f true configurable))⟩ := by
  have height : ctx.height = below.length + 3 := by rw [Ctx.height, stack]; rfl
  have target : ctx.get 2 = .object globalId := by rw [Ctx.get, stack]; rfl
  have key : ctx.get 1 = .string name := by rw [Ctx.get, stack]; rfl
  have top : ctx.get 0 = f := by rw [Ctx.get, stack]; rfl
  obtain ⟨_, a, put, rest⟩ := bind_eq_ok.mp returned
  obtain ⟨_, b, room, stored⟩ := bind_eq_ok.mp put
  obtain ⟨enough, rfl⟩ := requireRoom_eq_ok.mp room
  rw [bind_ok (getAt_run 2), bind_ok (getAt_run 1), bind_ok (getAt_run 0), target, key, top] at stored
  obtain ⟨_, wrote, write, cleared⟩ := bind_eq_ok.mp stored
  rw [writeProp_run plain] at write
  refine ⟨by omega, ?_⟩
  cases accepted : (b.world.objects globalId).accepts name with
  | none =>
    simp only [accepted] at write
    cases write
  | some configurable =>
    simp only [accepted] at write
    cases write
    -- the name and the function leave the stack, and then the global object
    obtain ⟨_, c, popped, done⟩ := bind_eq_ok.mp cleared
    obtain ⟨_, rfl⟩ := popN_eq_ok.mp popped
    cases done
    obtain ⟨_, d, last, done⟩ := bind_eq_ok.mp rest
    obtain ⟨_, rfl⟩ := popN_eq_ok.mp last
    cases done
    refine ⟨configurable, accepted, ?_⟩
    simp [stack]

theorem pcompileLstring_ok {mode : CompileMode} {src : Option Bytes}
    (returned : pcompileLstring host mode src ctx = .ok 0 ctx') :
    ∃ f w reserved, host.compile ctx.world ctx.free mode src none = .returns f w reserved ∧
      ctx' = ⟨f :: ctx.stack, ctx.reserve + reserved, w⟩ := by
  obtain ⟨_, a, room, rest⟩ := bind_eq_ok.mp returned
  obtain ⟨_, rfl⟩ := requireRoom_eq_ok.mp room
  rw [bind_ok (get_run a)] at rest
  obtain ⟨⟨f, rc⟩, b, ran, rest⟩ := bind_eq_ok.mp rest
  obtain ⟨_, c, pushed, same⟩ := bind_eq_ok.mp rest
  obtain ⟨_, rfl⟩ := push_eq_ok.mp pushed
  cases same
  obtain ⟨w, reserved, compiled, rfl⟩ := protect_eq_ok.mp ran
  exact ⟨f, w, reserved, compiled, rfl⟩

theorem pcompileLstringFilename_ok {mode : CompileMode} {src : Option Bytes} {filename : Bytes}
    {below : List JsVal}
    (stack : ctx.stack = .string filename :: below)
    (returned : pcompileLstringFilename host mode src ctx = .ok 0 ctx') :
    ∃ f w reserved,
      host.compile ctx.world ctx.free mode src (some filename) = .returns f w reserved ∧
      ctx' = ⟨f :: below, ctx.reserve + reserved, w⟩ := by
  have top : ctx.get 0 = .string filename := by rw [Ctx.get, stack]; rfl
  rw [pcompileLstringFilename, bind_ok (get_run ctx), top] at returned
  obtain ⟨⟨f, rc⟩, b, ran, rest⟩ := bind_eq_ok.mp returned
  cases rest
  obtain ⟨w, reserved, compiled, rfl⟩ := protect_eq_ok.mp ran
  refine ⟨f, w, reserved, compiled, ?_⟩
  rw [stack]
  rfl

theorem fromErrorCode_eq_none {code : Int32} : fromErrorCode code = none ↔ code = 0 := by
  rw [fromErrorCode]
  split <;> simp [*]

/-- The state in which a function has been bound: its text was compiled, and the global has it. -/
structure Bound (host : Host H) (source : FunctionSource host.mem) (funcName : Bytes)
    (ctx ctx' : Ctx H) (f : JsVal) (w : World H) (configurable : Bool) : Prop where
  compiles : Compiles host ctx.world source f w
  accepts : (w.objects globalId).accepts (cString funcName) = some configurable
  stack : ctx'.stack = ctx.stack
  room : ctx'.height + 4 ≤ ctx'.reserve
  world : ctx'.world =
    w.setOwn globalId (cString funcName) (some (.data f true configurable))

/-- In the world that the compiler leaves, no accessor takes the write of the function. -/
def BindsPlainly (host : Host H) (w : World H) (source : FunctionSource host.mem)
    (funcName : Bytes) : Prop :=
  ∀ f w', Compiles host w source f w' →
    ∀ free, host.writeThrough w' free globalId (cString funcName) f = none

/-- `readFileContent` returns 0 only with the content of the file. -/
def ReadsFiles (host : Host H) : Prop := ∀ file, host.readFileContent file ≠ .error 0

theorem FunctionSource.register_ok (files : ReadsFiles host) {source : FunctionSource host.mem}
    {funcName : Bytes} (plain : BindsPlainly host ctx.world source funcName)
    (succeeded : source.register host funcName ctx = .ok none ctx') :
    ∃ f w configurable, Bound host source funcName ctx ctx' f w configurable := by
  cases source with
  | code jsCode =>
    obtain ⟨code, last, ran, same⟩ := bind_eq_ok.mp succeeded
    obtain ⟨status, rfl⟩ := EStateM.Result.ok.inj same
    obtain rfl := fromErrorCode_eq_none.mp status
    obtain ⟨_, a, global, rest⟩ := bind_eq_ok.mp ran
    obtain ⟨_, rfl⟩ := pushGlobalObject_eq_ok.mp global
    obtain ⟨_, b, named, rest⟩ := bind_eq_ok.mp rest
    obtain rfl := pushBytes_ok named
    obtain ⟨rc, c, compiling, rest⟩ := bind_eq_ok.mp rest
    by_cases failed : rc = 0
    · rw [failed] at compiling rest
      obtain ⟨f, w, reserved, compiled, rfl⟩ := pcompileLstring_ok compiling
      obtain ⟨room, configurable, accepted, rfl⟩ :=
        bindFunction_ok (plain _ _ (.code compiled) _) rfl rest
      exact ⟨f, w, configurable, .code compiled, accepted, rfl, room, rfl⟩
    · -- the other exit gives -1
      rw [if_pos failed] at rest
      obtain ⟨_, _, _, rest⟩ := bind_eq_ok.mp rest
      obtain ⟨_, _, _, last⟩ := bind_eq_ok.mp rest
      exact absurd (EStateM.Result.ok.inj last).1 (show (-1 : Int32) ≠ 0 by decide)
  | file scriptFile =>
    obtain ⟨code, last, ran, same⟩ := bind_eq_ok.mp succeeded
    obtain ⟨status, rfl⟩ := EStateM.Result.ok.inj same
    obtain rfl := fromErrorCode_eq_none.mp status
    rw [jsRegisterFileFunc] at ran
    cases readable : host.readFileContent (cString scriptFile) with
    -- the status of a file that is not read is its own, and not 0
    | error ret =>
      simp only [readable] at ran
      cases ran
      exact absurd readable (files _)
    | ok src =>
      simp only [readable] at ran
      obtain ⟨_, a, global, rest⟩ := bind_eq_ok.mp ran
      obtain ⟨_, rfl⟩ := pushGlobalObject_eq_ok.mp global
      obtain ⟨_, b, named, rest⟩ := bind_eq_ok.mp rest
      obtain rfl := pushBytes_ok named
      -- [ global, func_name, file name ]
      obtain ⟨_, c, filed, rest⟩ := bind_eq_ok.mp rest
      obtain rfl := pushBytes_ok filed
      obtain ⟨rc, d, compiling, rest⟩ := bind_eq_ok.mp rest
      by_cases failed : rc = 0
      · rw [failed] at compiling rest
        obtain ⟨f, w, reserved, compiled, rfl⟩ := pcompileLstringFilename_ok rfl compiling
        obtain ⟨room, configurable, accepted, rfl⟩ :=
          bindFunction_ok (plain _ _ (.file readable compiled) _) rfl rest
        exact ⟨f, w, configurable, .file readable compiled, accepted, rfl, room, rfl⟩
      · -- the other exit gives -6
        rw [if_pos failed] at rest
        obtain ⟨_, _, _, rest⟩ := bind_eq_ok.mp rest
        obtain ⟨_, _, _, last⟩ := bind_eq_ok.mp rest
        exact absurd (EStateM.Result.ok.inj last).1 (show (-6 : Int32) ≠ 0 by decide)

/-! ### Registering, calling and unregistering -/

variable {S σ : Type} (go : GoRuntime host.mem S σ)

theorem getGlobalString_stack {key : Bytes} {found : Bool}
    (returned : getGlobalString host key ctx = .ok found ctx') :
    ∃ v, ctx'.stack = v :: ctx.stack := by
  obtain ⟨_, a, room, rest⟩ := bind_eq_ok.mp returned
  obtain ⟨_, rfl⟩ := requireRoom_eq_ok.mp room
  obtain ⟨⟨v, has⟩, b, read, rest⟩ := bind_eq_ok.mp rest
  have stack := keeps_readProp host _ key _ _ _ read
  cases has with
  | false =>
    obtain ⟨_, c, pushed, same⟩ := bind_eq_ok.mp rest
    obtain ⟨_, rfl⟩ := push_eq_ok.mp pushed
    cases same
    exact ⟨v, congrArg (v :: ·) stack⟩
  | true =>
    obtain ⟨_, c, more, rest⟩ := bind_eq_ok.mp rest
    obtain ⟨_, d, pushed, same⟩ := bind_eq_ok.mp rest
    obtain ⟨_, rfl⟩ := push_eq_ok.mp pushed
    cases same
    exact ⟨v, congrArg (v :: ·) ((keeps_requireRoom 4 _ _ _ more).trans stack)⟩

/-- Each argument becomes one value above the others. -/
theorem pushArg_stack {arg : CArg} {u : Unit} (returned : pushArg host arg ctx = .ok u ctx') :
    ∃ v, ctx'.stack = v :: ctx.stack := by
  cases arg with
  | none | bool d | int d | double d =>
    obtain ⟨_, rfl⟩ := push_eq_ok.mp returned
    exact ⟨_, rfl⟩
  | zstring s =>
    obtain ⟨_, pushed⟩ := pushString_eq_ok.mp returned
    split at pushed
    · exact ⟨_, congrArg Ctx.stack pushed⟩
    · exact ⟨_, congrArg Ctx.stack pushed.2⟩
  | lstring l s =>
    obtain ⟨_, _, rfl⟩ := pushLstring_eq_ok.mp returned
    exact ⟨_, rfl⟩
  | error l s => cases returned
  | buffer l s =>
    obtain ⟨_, _, _, _, rfl⟩ := pushNodeBuffer_eq_ok.mp returned
    exact ⟨_, rfl⟩
  | ecmafunc funcIndex =>
    obtain ⟨found, _, loaded, same⟩ := bind_eq_ok.mp returned
    cases same
    exact getGlobalString_stack loaded
  | mobject objUdd create =>
    have pushed := pushInstance_eq_ok.mp returned
    split at pushed
    · exact ⟨_, congrArg Ctx.stack pushed.2⟩
    · obtain ⟨_, _, _, _, _, rfl⟩ := pushed
      exact ⟨_, rfl⟩
  | json l s =>
    obtain ⟨_, _, _, _, _, _, rfl⟩ := pushJson_eq_ok.mp returned
    exact ⟨_, rfl⟩

theorem pushArgs_stack {argv : List Word} {fmt : Bytes} {i argc n : Nat}
    (returned : pushArgs host argv fmt i argc ctx = .ok n ctx') :
    ∃ values, ctx'.stack = values ++ ctx.stack ∧ n = argc + values.length := by
  induction fmt generalizing i argc ctx with
  | nil =>
    cases returned
    exact ⟨[], rfl, rfl⟩
  | cons c fmt ih =>
    rw [pushArgs] at returned
    split at returned
    · -- the NUL
      cases returned
      exact ⟨[], rfl, rfl⟩
    · obtain ⟨_, mid, pushed, rest⟩ := bind_eq_ok.mp returned
      obtain ⟨v, one⟩ := pushArg_stack pushed
      obtain ⟨values, more, count⟩ := ih rest
      refine ⟨values ++ [v], ?_, ?_⟩
      · rw [more, one, List.append_assoc]
        rfl
      · rw [count, List.length_append, List.length_singleton]
        omega

/-- The value on top is the one under the arguments afterwards. -/
theorem pushCallArgs_get {fmt : Option Bytes} {argv : List Word} {argc : Nat}
    (returned : pushCallArgs host fmt argv ctx = .ok argc ctx') : ctx'.get argc = ctx.get 0 := by
  cases fmt with
  | none =>
    cases returned
    rfl
  | some fmt =>
    obtain ⟨values, stack, count⟩ := pushArgs_stack returned
    rw [Ctx.get, Ctx.get, stack, count, Nat.zero_add, List.getD_eq_getElem?_getD,
      List.getElem?_append_right (Nat.le_refl _), Nat.sub_self, List.getD_eq_getElem?_getD]

variable (host) in
/-- A call of the name pushes its arguments above `f` and calls it. -/
def RunsFunction (funcName : Bytes) (ctx : Ctx H) (f : JsVal) : Prop :=
  ∀ fmt argv, jsCallRegisteredFunc host (cString funcName) true fmt argv ctx =
      pushArgsAndCallFunc host true fmt argv (ctx.pushed f) ∧
    ∀ argc pushed, pushCallArgs host fmt argv (ctx.pushed f) = .ok argc pushed →
      pushed.get argc = f

theorem Bound.own {source : FunctionSource host.mem} {funcName : Bytes} {f : JsVal} {w : World H}
    {configurable : Bool} (bound : Bound host source funcName ctx ctx' f w configurable) :
    ctx'.global.own (cString funcName) = some (.data f true configurable) := by
  rw [Ctx.global, bound.world]
  simp [World.setOwn, World.setObject]

theorem Bound.runs {source : FunctionSource host.mem} {funcName : Bytes} {f : JsVal} {w : World H}
    {configurable : Bool} (bound : Bound host source funcName ctx ctx' f w configurable) :
    RunsFunction host funcName ctx' f := by
  intro fmt argv
  have found : getGlobalString host (cString funcName) ctx' = .ok true (ctx'.pushed f) := by
    rw [getGlobalString_data bound.own, if_pos bound.room]
  exact ⟨bind_ok found _, fun argc pushed returned => pushCallArgs_get returned⟩

/-- Unregistering removes a property that can be deleted, and tells Go of an error. -/
theorem unregisterFunc_run {funcName : Bytes} (room : ctx.height + 4 ≤ ctx.reserve)
    (deletes : ctx.global.deletes (cString funcName) = true) :
    JSEnv.unregisterFunc funcName ctx = .ok (some (.code 1))
      { ctx with world := ctx.world.setOwn globalId (cString funcName) none } := by
  have global : pushGlobalObject ctx = .ok () (ctx.pushed (.object globalId)) :=
    pushGlobalObject_eq_ok.mpr ⟨by omega, rfl⟩
  have deleted : delPropString (cString funcName) (ctx.pushed (.object globalId)) = .ok true
      { ctx.pushed (.object globalId) with
        world := ctx.world.setOwn globalId (cString funcName) none } :=
    (delPropString_eq_ok rfl).mpr ⟨room, deletes, rfl, rfl⟩
  rw [JSEnv.unregisterFunc, jsUnregisterFunc]
  refine bind_eq_ok.mpr ⟨1, _, ?_, rfl⟩
  rw [bind_ok global, bind_ok deleted]
  rfl

/-- The status of a removal is Duktape's 1, which is no success for Go. -/
theorem unregisterFunc_result {funcName : Bytes} {err : Option GoErr}
    (returned : JSEnv.unregisterFunc funcName ctx = .ok err ctx') : err = some (.code 1) := by
  obtain ⟨code, last, ran, same⟩ := bind_eq_ok.mp returned
  obtain ⟨_, a, global, rest⟩ := bind_eq_ok.mp ran
  obtain ⟨_, rfl⟩ := pushGlobalObject_eq_ok.mp global
  obtain ⟨done, b, removed, rest⟩ := bind_eq_ok.mp rest
  have global : (ctx.pushed (.object globalId)).get 0 = .object globalId := rfl
  obtain ⟨_, _, rfl, rfl⟩ := (delPropString_eq_ok global).mp removed
  cases rest
  cases same
  rfl

/-- The name has lost its property, and every other global is as it was. -/
structure Removed (funcName : Bytes) (ctx ctx' : Ctx H) : Prop where
  gone : ctx'.global.own (cString funcName) = none
  others : ∀ key, key ≠ cString funcName → ctx'.global.own key = ctx.global.own key

/-- What a Go program is promised for a registered function. -/
structure KeepsPromise (host : Host H) (funcName : Bytes) (ctx : Ctx H) (f : JsVal) : Prop where
  calls : RunsFunction host funcName ctx f
  unregisters : ∃ ctx', JSEnv.unregisterFunc funcName ctx = .ok none ctx' ∧ Removed funcName ctx ctx'
  nilIff : ∀ err ctx', JSEnv.unregisterFunc funcName ctx = .ok err ctx' →
    (err = none ↔ Removed funcName ctx ctx')

/-- Compiling a text does not touch the global object. -/
def CompilesApart (host : Host H) : Prop :=
  ∀ w free mode src file f w' reserved,
    host.compile w free mode src file = .returns f w' reserved →
      w'.objects globalId = w.objects globalId

theorem Compiles.global (apart : CompilesApart host) {source : FunctionSource host.mem} {f : JsVal}
    {w w' : World H} (compiles : Compiles host w source f w') :
    w'.objects globalId = w.objects globalId := by
  cases compiles with
  | code compiled | file _ compiled => exact apart _ _ _ _ _ _ _ _ compiled

/-- The name is free, or its property can be written and deleted. -/
def Bindable (ctx : Ctx H) (name : Bytes) : Prop :=
  ctx.global.own name = none ∨ ∃ v, ctx.global.own name = some (.data v true true)

theorem Bindable.configurable {name : Bytes} (bindable : Bindable ctx name) {configurable : Bool}
    (accepts : ctx.global.accepts name = some configurable) : configurable = true := by
  rw [ObjectRec.accepts] at accepts
  rcases bindable with own | ⟨v, own⟩
  · simp only [own] at accepts
    split at accepts <;> cases accepts
    rfl
  · simp only [own] at accepts
    cases accepts
    rfl

theorem removed_setOwn (funcName : Bytes) : Removed funcName ctx
    { ctx with world := ctx.world.setOwn globalId (cString funcName) none } := by
  constructor
  · simp [Ctx.global, World.setOwn, World.setObject]
  · intro key other
    simp [Ctx.global, World.setOwn, World.setObject, other]

/-- `UnregisterFunc` never returns nil, so that the promise is kept in no state. The rest of it holds
in every environment and for every name and text: once a function is registered, a call of its name
runs it, and unregistering removes it and nothing else. -/
theorem unregister_never_nil (source : FunctionSource host.mem) (funcName : Bytes)
    (ctx ctx' : Ctx H) :
    (∀ f, ¬ KeepsPromise host funcName ctx' f) ∧
    (ReadsFiles host → CompilesApart host → BindsPlainly host ctx.world source funcName →
      Bindable ctx (cString funcName) → source.register host funcName ctx = .ok none ctx' →
      ∃ f w, Compiles host ctx.world source f w ∧ RunsFunction host funcName ctx' f ∧
        ∃ after, JSEnv.unregisterFunc funcName ctx' = .ok (some (.code 1)) after ∧
          Removed funcName ctx' after) := by
  constructor
  · rintro g ⟨_, ⟨after, returned, _⟩, _⟩
    cases unregisterFunc_result returned
  · intro files apart plain bindable succeeded
    obtain ⟨f, w, configurable, bound⟩ := FunctionSource.register_ok files plain succeeded
    have accepts : ctx.global.accepts (cString funcName) = some configurable := by
      rw [Ctx.global, ← bound.compiles.global apart]
      exact bound.accepts
    have deletes : ctx'.global.deletes (cString funcName) = true := by
      rw [ObjectRec.deletes, bound.own]
      exact bindable.configurable accepts
    exact ⟨f, w, bound.compiles, bound.runs, _, unregisterFunc_run bound.room deletes,
      removed_setOwn funcName⟩

/-- A host whose compiler gives object 1. -/
def compilingHost : Host Unit :=
  { stillHost with compile := fun w _ _ _ _ => .returns (.object 1) w 0 }

def emptyText : FunctionSource compilingHost.mem :=
  .code ⟨8, [0], rfl, by decide, fun _ => by decide⟩

theorem unregister_never_nil_f : ∃ ctx' : Ctx Unit,
    emptyText.register compilingHost (ascii "f") freshEnvironment = .ok none ctx' ∧
    RunsFunction compilingHost (ascii "f") ctx' (.object 1) := by
  obtain ⟨ctx', succeeded⟩ : ∃ ctx',
      emptyText.register compilingHost (ascii "f") freshEnvironment = .ok none ctx' := ⟨_, rfl⟩
  have apart : CompilesApart compilingHost := by
    intro w free mode src file f w' reserved compiled
    cases compiled
    rfl
  have files : ReadsFiles compilingHost := fun file impossible => by cases impossible
  obtain ⟨_, kept⟩ := unregister_never_nil emptyText (ascii "f") freshEnvironment ctx'
  obtain ⟨f, w, compiles, runs, _⟩ := kept files apart (fun _ _ _ _ => rfl) (.inl rfl) succeeded
  refine ⟨ctx', succeeded, ?_⟩
  change Compiles compilingHost _ (.code _) f w at compiles
  cases compiles with
  | code compiled =>
    cases compiled
    exact runs

/-- A function is registered and unregistered, and Go gets `error code: 1`. -/
theorem unregistered_with_error : ∃ ctx' after : Ctx Unit,
    emptyText.register compilingHost (ascii "f") freshEnvironment = .ok none ctx' ∧
    JSEnv.unregisterFunc (ascii "f") ctx' = .ok (some (.code 1)) after ∧
    after.global.own (ascii "f") = none ∧
    ∀ f, ¬ KeepsPromise compilingHost (ascii "f") ctx' f := by
  refine ⟨_, _, rfl, rfl, rfl, ?_⟩
  rintro f ⟨_, ⟨after, returned, _⟩, _⟩
  cases returned

end DukBridge
