import DukBridge.ModuleCache

/-!
# Loads

How a call of `require` ends, by what the host answers on the way.
-/
namespace DukBridge

open Effect

variable {H : Type}

/-- A load, from the registration of the module on. -/
structure Load (H : Type) where
  duktape : Nat
  cache : Nat
  host : Host (ModuleHeap H)
  start : World (ModuleHeap H)
  about : Locals
  freshRequire : Nat
  exports : Nat
  module : Nat

def wrapped (src : Bytes) : Bytes := wrapperHead ++ src ++ wrapperTail

namespace Load

variable (load : Load H)

/-- The worlds a load goes through. -/
abbrev Reaches : World (ModuleHeap H) → Prop := Grows load.duktape load.cache load.start

def slots : List JsVal :=
  load.about.loading load.duktape load.cache load.freshRequire load.exports load.module

/-- What `Duktape.modSearch` is called with. -/
def searchArgs : List JsVal :=
  [.string load.about.id.bytes, .object load.freshRequire, .object load.exports,
    .object load.module]

/-! ### The stages of a load

Each is a relation between what the host answered and the world this led to. -/

/-- The search came back. -/
def Searched (rc : Int32) (v : JsVal) (w : World (ModuleHeap H)) : Prop :=
  ∃ func w₁, ReadTo load.host (.object load.duktape) (ascii "modSearch") load.start func w₁ ∧
    Called load.host w₁ .undefined func load.searchArgs rc v w

/-- A property of the module, or a default. -/
def PropOr (key : Bytes) (default : JsVal) (w : World (ModuleHeap H)) (v : JsVal)
    (w' : World (ModuleHeap H)) : Prop :=
  ∃ found read, ReadsAs load.host (.object load.module) key w found read w' ∧
    v = if found then read else default

/-- The search had found text, and the compiler came back. -/
def CompiledTo (rc : Int32) (v : JsVal) (w : World (ModuleHeap H)) : Prop :=
  ∃ src w₁ filename w₂, load.Searched 0 (.string src) w₁ ∧
    load.PropOr (ascii "filename") (.string load.about.id.bytes) w₁ filename w₂ ∧
    Compiled load.host w₂ .eval (wrapped src) filename.getString rc v w

/-- What was compiled has been run. -/
def EvaluatedTo (rc : Int32) (v : JsVal) (w : World (ModuleHeap H)) : Prop :=
  ∃ func w₁, load.CompiledTo 0 func w₁ ∧ Called load.host w₁ .undefined func [] rc v w

/-- The function it evaluated to has its name. -/
def Named (func : JsVal) (w : World (ModuleHeap H)) : Prop :=
  ∃ obj w₁ name w₂ new, func = .object obj ∧ load.EvaluatedTo 0 func w₁ ∧
    load.PropOr (ascii "name") (.string load.about.id.lastComp) w₁ name w₂ ∧
    (w₂.objects obj).defines (ascii "name") name { DefProp.haveValue with force := true } =
      some new ∧ w = w₂.setOwn obj (ascii "name") (some new)

/-- That function has been called with the exports there were. -/
def RanModule (rc : Int32) (v : JsVal) (w : World (ModuleHeap H)) : Prop :=
  ∃ func w₁ current w₂, load.Named func w₁ ∧
    ReadTo load.host (.object load.module) (ascii "exports") w₁ current w₂ ∧
    Called load.host w₂ (.object load.exports) func
      [.object load.freshRequire, current, .object load.module] rc v w

/-! ### The endings -/

/-- The module has set up its exports: there was no text, or the text has been run. -/
inductive Succeeds (w : World (ModuleHeap H)) : Prop where
  | native {v : JsVal} (searched : load.Searched 0 v w) (noText : ∀ src, v ≠ .string src)
  | script {v : JsVal} (ran : load.RanModule 0 v w)

/-- This value was thrown in one of the protected calls. -/
inductive Throws (v : JsVal) (w : World (ModuleHeap H)) : Prop where
  | search {rc : Int32} (failed : rc ≠ 0) (searched : load.Searched rc v w)
  | compile {rc : Int32} (failed : rc ≠ 0) (compiled : load.CompiledTo rc v w)
  | evaluate {rc : Int32} (failed : rc ≠ 0) (evaluated : load.EvaluatedTo rc v w)
  | run {rc : Int32} (failed : rc ≠ 0) (ran : load.RanModule rc v w)

/-- A property is not read to the end. -/
inductive ReadStops (e : Fault) (w' : World (ModuleHeap H)) : Prop where
  | modSearch (failed : ReadFails load.host (.object load.duktape) (ascii "modSearch") load.start
      e w')
  | filename {src : Bytes} {w : World (ModuleHeap H)} (searched : load.Searched 0 (.string src) w)
      (failed : ReadFails load.host (.object load.module) (ascii "filename") w e w')
  | name {v : JsVal} {w : World (ModuleHeap H)} (evaluated : load.EvaluatedTo 0 v w)
      (failed : ReadFails load.host (.object load.module) (ascii "name") w e w')
  | current {func : JsVal} {w : World (ModuleHeap H)} (named : load.Named func w)
      (failed : ReadFails load.host (.object load.module) (ascii "exports") w e w')
  | exports {w : World (ModuleHeap H)} (succeeds : load.Succeeds w)
      (failed : ReadFails load.host (.object load.module) (ascii "exports") w e w')

/-- This error was thrown outside the protected calls. -/
inductive Escapes (w : World (ModuleHeap H)) : DukError → Prop where
  | read {e : DukError} (stops : load.ReadStops (.thrown e) w) : Escapes w e
  | symbol {src : Bytes} (searched : load.Searched 0 (.string src) w) (symbol : isSymbol src = true) :
      Escapes w .typeError
  | long {src : Bytes} (searched : load.Searched 0 (.string src) w)
      (long : maxStringLen < (wrapped src).length) : Escapes w .rangeError
  | wrapper {v name : JsVal} {w₁ : World (ModuleHeap H)} (evaluated : load.EvaluatedTo 0 v w₁)
      (read : load.PropOr (ascii "name") (.string load.about.id.lastComp) w₁ name w)
      (primitive : ∀ obj, v ≠ .object obj) : Escapes w .typeError

/-- The host has not come back. -/
inductive Sticks : Prop where
  | read {w : World (ModuleHeap H)} (stops : load.ReadStops .noReturn w)
  | search {func : JsVal} {w : World (ModuleHeap H)} {free : Nat}
      (read : ReadTo load.host (.object load.duktape) (ascii "modSearch") load.start func w)
      (reached : load.Reaches w)
      (never : load.host.call w free .undefined func load.searchArgs = .never)
  | compile {src : Bytes} {w₁ w : World (ModuleHeap H)} {filename : JsVal} {free : Nat}
      (searched : load.Searched 0 (.string src) w₁)
      (read : load.PropOr (ascii "filename") (.string load.about.id.bytes) w₁ filename w)
      (never : load.host.compile w free .eval (wrapped src) filename.getString = .never)
  | evaluate {func : JsVal} {w : World (ModuleHeap H)} {free : Nat}
      (compiled : load.CompiledTo 0 func w) (reached : load.Reaches w)
      (never : load.host.call w free .undefined func [] = .never)
  | run {func current : JsVal} {w₁ w : World (ModuleHeap H)} {free : Nat} (named : load.Named func w₁)
      (read : ReadTo load.host (.object load.module) (ascii "exports") w₁ current w)
      (reached : load.Reaches w)
      (never : load.host.call w free (.object load.exports) func
        [.object load.freshRequire, current, .object load.module] = .never)

/-- A load that succeeds ends with a read of `module.exports`. -/
def Returns (ctx : Ctx (ModuleHeap H)) : Prop :=
  ∃ w v rest, load.Succeeds w ∧ ctx.stack = v :: rest ∧
    ReadTo load.host (.object load.module) (ascii "exports") w v ctx.world ∧
    load.Reaches ctx.world

/-- One that fails is forgotten, but for an error outside the protected calls. -/
inductive Fails : Fault → World (ModuleHeap H) → Prop where
  | forgotten {v : JsVal} {w w' : World (ModuleHeap H)} (throws : load.Throws v w)
      (reached : load.Reaches w)
      (forgets : w' = w.setOwn load.cache load.about.id.bytes none) : Fails (.thrown (.value v)) w'
  | escaped {e : DukError} {w : World (ModuleHeap H)} (escapes : load.Escapes w e)
      (reached : load.Reaches w) : Fails (.thrown e) w
  | stuck {w : World (ModuleHeap H)} (sticks : load.Sticks) : Fails .noReturn w

/-! ### The triples of the stages -/

variable {load} {w : World (ModuleHeap H)}

theorem slots_fit : load.slots.length + 8 ≤ frameSize := by
  simp [slots, Locals.loading, Locals.unloaded, Locals.resolved, frameSize]

/-- A read outside the protected calls. -/
theorem fails_of_read {e : Fault} {w' : World (ModuleHeap H)} (stops : load.ReadStops e w')
    (reached : load.Reaches w') : load.Fails e w' := by
  cases e with
  | thrown e => exact .escaped (.read stops) reached
  | noReturn => exact .stuck (.read stops)

/-- The error of a protected call is thrown on without the entry. -/
theorem meets_forget {vals : List JsVal} {v : JsVal} {Q : Unit → Ctx (ModuleHeap H) → Prop}
    (framework : Framework load.duktape load.cache load.start) (throws : load.Throws v w)
    (reached : load.Reaches w) (fits : vals.length + 4 ≤ frameSize)
    (resolved : (v :: vals).reverse.getD idxResolvedId .undefined = .string load.about.id.bytes)
    (modLoaded : (.string load.about.id.bytes :: v :: vals).reverse.getD idxModLoaded .undefined =
      .object load.cache) :
    Meets (At (v :: vals) (· = w)) deleteRethrow Q (OnWorld load.Fails) :=
  meets_deleteRethrow fits resolved modLoaded (reached framework).1 (.forgotten throws reached rfl)

section

variable (hosts : CacheHost load.duktape load.cache load.host)
include hosts

theorem meets_callModSearch :
    Meets (At load.slots (· = load.start)) (callModSearch load.host)
      (fun rc ctx => ∃ v, load.Searched rc v ctx.world ∧
        At (v :: .string wrapperHead :: load.slots) load.Reaches ctx) (OnWorld load.Fails) := by
  have fits := load.slots_fit
  apply (meets_pushBytes (by omega) (by decide)).bind
  intro _
  apply bind_step (meets_getPropStringAt hosts.respects (by simp only [List.length_cons]; omega)
    (fun e w' failed => fails_of_read (.modSearch failed)) rfl)
  intro found func w₁ read reached
  apply (meets_dup (by simp only [List.length_cons]; omega)).bind
  intro _
  apply (meets_dup (by simp only [List.length_cons]; omega)).bind
  intro _
  apply (meets_dup (by simp only [List.length_cons]; omega)).bind
  intro _
  apply (meets_dup (by simp only [List.length_cons]; omega)).bind
  intro _
  have never : ∀ free, load.host.call w₁ free .undefined func [.object load.module,
      .object load.exports, .object load.freshRequire, .string load.about.id.bytes].reverse =
        .never → load.Fails .noReturn w₁ :=
    fun free never => .stuck (.search ⟨found, read⟩ reached never)
  refine (meets_pcall hosts.respects rfl (by simp only [List.length_cons]; omega) never).mono
    (fun _ pre => pre) ?_
  rintro rc ctx ⟨v, called, there⟩
  exact ⟨v, ⟨func, w₁, ⟨found, read⟩, called⟩, there.stack, there.room, reached.trans there.world⟩

/-- A property of the module is pushed, or a default in its place. -/
theorem meets_pushModuleProp {vals : List JsVal} {key : Bytes} {i : Nat}
    (reached : load.Reaches w) (fits : vals.length + 3 ≤ frameSize)
    (stops : ∀ e w', ReadFails load.host (.object load.module) key w e w' → load.ReadStops e w')
    (here : vals.getD (vals.length - 1 - idxModule) .undefined = .object load.module) :
    Meets (At vals (· = w)) (pushModuleProp load.host key i)
      (fun _ ctx => ∃ v, load.PropOr key (vals.reverse.getD i .undefined) w v ctx.world ∧
        At (v :: vals) load.Reaches ctx) (OnWorld load.Fails) := by
  apply bind_step (meets_getPropStringAt hosts.respects fits
    (fun e w' failed grows => fails_of_read (stops e w' failed) (reached.trans grows)) here)
  intro found v w' read grows
  cases found with
  | true =>
    refine .pure fun ctx there => ⟨v, ?_, there.stack, there.room, ?_⟩
    · rw [there.world]
      exact ⟨true, v, read, rfl⟩
    · rw [there.world]
      exact reached.trans grows
  | false =>
    apply (meets_popN (Nat.le_add_left 1 _)).bind
    intro _
    refine (meets_dup (by rw [List.drop_one, List.tail_cons]; omega)).mono (fun _ pre => pre) ?_
    intro _ ctx there
    refine ⟨_, ?_, there.stack, there.room, ?_⟩
    · rw [there.world]
      exact ⟨false, v, read, rfl⟩
    · rw [there.world]
      exact reached.trans grows

/-- Text that the search has found is compiled between the two ends of the wrapper. -/
theorem meets_compileModule {src : Bytes} (searched : load.Searched 0 (.string src) w)
    (reached : load.Reaches w) :
    Meets (At (.string src :: .string wrapperHead :: load.slots) (· = w))
      (compileModule load.host)
      (fun rc ctx => ∃ v, load.CompiledTo rc v ctx.world ∧ At (v :: load.slots) load.Reaches ctx)
      (OnWorld load.Fails) := by
  have fits := load.slots_fit
  have ends : isSymbol wrapperHead = false ∧ isSymbol wrapperTail = false := by decide
  apply (meets_pushBytes (by simp only [List.length_cons]; omega) (by decide)).bind
  intro _
  apply (meets_concat3 (by omega) ?_ ?_).bind
  · intro _
    apply bind_step (meets_pushModuleProp hosts reached (by simp only [List.length_cons]; omega)
      (fun _ _ => .filename searched) rfl)
    intro _ filename w₁ read reached'
    refine (meets_pcompile hosts.respects (by omega)
      fun free never => .stuck (.compile searched read never)).mono (fun _ pre => pre) ?_
    rintro rc ctx ⟨v, compiled, there⟩
    exact ⟨v, ⟨src, w, filename, w₁, searched, read, compiled⟩, there.stack, there.room,
      reached'.trans there.world⟩
  · rintro symbol _ rfl
    simp only [ends, Bool.false_eq_true, or_false, false_or] at symbol
    exact .escaped (.symbol searched symbol) reached
  · rintro long _ rfl
    refine .escaped (.long searched ?_) reached
    simp only [wrapped, List.length_append]
    omega

theorem meets_evaluate {func : JsVal} (compiled : load.CompiledTo 0 func w)
    (reached : load.Reaches w) :
    Meets (At (func :: load.slots) (· = w)) (pcall load.host 0)
      (fun rc ctx => ∃ v, load.EvaluatedTo rc v ctx.world ∧ At (v :: load.slots) load.Reaches ctx)
      (OnWorld load.Fails) := by
  have fits := load.slots_fit
  have never : ∀ free, load.host.call w free .undefined func [].reverse = .never →
      load.Fails .noReturn w := fun free never => .stuck (.evaluate compiled reached never)
  refine (meets_pcall hosts.respects rfl (by omega) never).mono (fun _ pre => pre) ?_
  rintro rc ctx ⟨v, called, there⟩
  exact ⟨v, ⟨func, w, compiled, called⟩, there.stack, there.room, reached.trans there.world⟩

/-- The wrapped function is not `modLoaded`. -/
theorem not_cache_of_evaluated (framework : Framework load.duktape load.cache load.start)
    {func : JsVal} (evaluated : load.EvaluatedTo 0 func w) : func ≠ .object load.cache := by
  obtain ⟨evaluator, _, ⟨src, w₁, filename, w₂, searched, ⟨_, _, read, _⟩, compiled⟩, called⟩ :=
    evaluated
  obtain ⟨_, w₀, first, _, searched⟩ := searched
  have reached : load.Reaches w₂ :=
    ((first.within hosts.respects).trans (searched.within (hosts.respects.call _ _ _ _ _))).trans
      (read.within hosts.respects)
  exact hosts.hidden _ _ _ _ _ _ _ (reached framework).1 compiled called

/-- The wrapped function gets its name, whatever it was called before. -/
theorem meets_nameModule {func : JsVal} (apart : func ≠ .object load.cache)
    (evaluated : load.EvaluatedTo 0 func w) (reached : load.Reaches w) :
    Meets (At (func :: load.slots) (· = w)) (nameModule load.host)
      (fun _ ctx => ∃ func, load.Named func ctx.world ∧ At (func :: load.slots) load.Reaches ctx)
      (OnWorld load.Fails) := by
  have fits := load.slots_fit
  apply (meets_pushBytes (by simp only [List.length_cons]; omega) (by decide)).bind
  intro _
  apply bind_step (meets_pushModuleProp hosts reached (by simp only [List.length_cons]; omega)
    (fun _ _ => .name evaluated) rfl)
  intro _ name w₁ read reached'
  by_cases isObject : ∃ obj, func = .object obj
  · obtain ⟨obj, rfl⟩ := isObject
    obtain ⟨wr, c, forced⟩ := defines_forced (w₁.objects obj) (ascii "name") name
    refine (meets_defProp rfl forced).mono (fun _ pre => pre) fun _ ctx there => ?_
    refine ⟨.object obj, ⟨obj, w, name, w₁, _, rfl, evaluated, read, forced, there.world⟩,
      there.stack, there.room, ?_⟩
    rw [there.world]
    exact reached'.trans (grows_setOwn (fun same => apart (congrArg _ same)) fun _ => by decide)
  · refine meets_defProp_fails (fun id same => isObject ⟨id, same⟩) ?_
    rintro _ rfl
    exact .escaped (.wrapper evaluated read fun id same => isObject ⟨id, same⟩) reached'

theorem meets_callModule {func : JsVal} (named : load.Named func w) (reached : load.Reaches w) :
    Meets (At (func :: load.slots) (· = w)) (callModule load.host)
      (fun rc ctx => ∃ v, load.RanModule rc v ctx.world ∧ At (v :: load.slots) load.Reaches ctx)
      (OnWorld load.Fails) := by
  have fits := load.slots_fit
  apply (meets_dup (by simp only [List.length_cons]; omega)).bind
  intro _
  apply (meets_dup (by simp only [List.length_cons]; omega)).bind
  intro _
  apply bind_step (meets_getPropStringAt hosts.respects (by simp only [List.length_cons]; omega)
    (fun e w' failed grows => fails_of_read (.current named failed) (reached.trans grows)) rfl)
  intro found current w₁ read grows
  apply (meets_dup (by simp only [List.length_cons]; omega)).bind
  intro _
  have never : ∀ free, load.host.call w₁ free (.object load.exports) func
      [.object load.module, current, .object load.freshRequire].reverse = .never →
        load.Fails .noReturn w₁ :=
    fun free never => .stuck (.run named ⟨found, read⟩ (reached.trans grows) never)
  refine (meets_pcallMethod hosts.respects rfl (by omega) never).mono (fun _ pre => pre) ?_
  rintro rc ctx ⟨v, called, there⟩
  exact ⟨v, ⟨func, w, current, w₁, named, ⟨found, read⟩, called⟩, there.stack, there.room,
    (reached.trans grows).trans there.world⟩

theorem meets_returnExports {vals : List JsVal} (succeeds : load.Succeeds w)
    (reached : load.Reaches w) (fits : vals.length + 3 ≤ frameSize)
    (here : vals.getD (vals.length - 1 - idxModule) .undefined = .object load.module) :
    Meets (At vals (· = w)) (returnExports load.host) (fun _ => load.Returns)
      (OnWorld load.Fails) := by
  apply bind_step (meets_getPropStringAt hosts.respects fits
    (fun e w' failed grows => fails_of_read (.exports succeeds failed) (reached.trans grows)) here)
  intro found v w₁ read grows
  refine .pure fun ctx there => ⟨w, v, vals, succeeds, there.stack, ?_, ?_⟩
  · rw [there.world]
    exact ⟨found, read⟩
  · rw [there.world]
    exact reached.trans grows

/-- From the registration on, a load ends with the exports or as `Fails` says. -/
theorem meets_loadRegistered (framework : Framework load.duktape load.cache load.start) :
    Meets (At load.slots (· = load.start)) (loadRegistered load.host) (fun _ => load.Returns)
      (OnWorld load.Fails) := by
  have fits := load.slots_fit
  apply bind_step (meets_callModSearch hosts)
  intro rc found w₁ searched reached
  refine Meets.ite (fun failed => meets_forget framework (.search failed searched) reached
    (by simp only [List.length_cons]; omega) rfl rfl) fun ok => ?_
  obtain rfl : rc = 0 := not_not.mp ok
  apply meets_getAt_bind
  cases found with
  | string src =>
    -- where compiling, evaluating or running the text fails, the module is forgotten
    apply bind_step (meets_compileModule hosts searched reached)
    intro rc evaluator w₂ compiled reached
    refine Meets.ite (fun failed => meets_forget framework (.compile failed compiled) reached
      (by omega) rfl rfl) fun ok => ?_
    obtain rfl : rc = 0 := not_not.mp ok
    apply bind_step (meets_evaluate hosts compiled reached)
    intro rc wrapper w₃ evaluated reached
    refine Meets.ite (fun failed => meets_forget framework (.evaluate failed evaluated) reached
      (by omega) rfl rfl) fun ok => ?_
    obtain rfl : rc = 0 := not_not.mp ok
    have apart : wrapper ≠ .object load.cache := not_cache_of_evaluated hosts framework evaluated
    apply bind_step (meets_nameModule hosts apart evaluated reached)
    intro _ func w₄ named reached
    apply bind_step (meets_callModule hosts named reached)
    intro rc result w₅ ran reached
    refine Meets.ite (fun failed => meets_forget framework (.run failed ran) reached (by omega) rfl
      rfl) fun ok => ?_
    obtain rfl : rc = 0 := not_not.mp ok
    exact meets_returnExports hosts (.script ran) reached (by simp only [List.length_cons]; omega)
      rfl
  -- anything but a string stands for a native module, which the search has filled in
  | _ =>
    exact meets_returnExports hosts (.native searched nofun) reached
      (by simp only [List.length_cons]; omega) rfl

end

end Load

/-! ### A call -/

section Call

/-- The load of a module that has no entry. -/
def beginning (duktape cache : Nat) (host : Host (ModuleHeap H)) (w : World (ModuleHeap H))
    (l : Locals) : Load H where
  duktape := duktape
  cache := cache
  host := host
  start := beginLoad cache w l.id.bytes
  about := l
  freshRequire := w.nextId
  exports := w.nextId + 1
  module := w.nextId + 2

variable (duktape cache : Nat) (host : Host (ModuleHeap H)) (w : World (ModuleHeap H)) (func : Nat)
  (v : JsVal)

/-- A call that returns has found the module, or has loaded it. -/
inductive RequireReturns (ctx : Ctx (ModuleHeap H)) : Prop where
  | cached {l : Locals} {w₁ : World (ModuleHeap H)} {found value : JsVal} {rest : List JsVal}
      (resolved : Resolved duktape cache host w func v l w₁)
      (entry : loaded cache w₁ l.id.bytes = some found) (stack : ctx.stack = value :: rest)
      (grows : Grows duktape cache w₁ ctx.world)
      (read : ReadTo host found (ascii "exports") w₁ value ctx.world)
  | loads {l : Locals} {w₁ : World (ModuleHeap H)}
      (resolved : Resolved duktape cache host w func v l w₁)
      (absent : loaded cache w₁ l.id.bytes = none)
      (returns : (beginning duktape cache host w₁ l).Returns ctx)

/-- What goes wrong while there is nothing to load yet, or no longer. -/
inductive FailsEarly : DukError → World (ModuleHeap H) → Prop where
  | noName (other : ∀ reqId, v ≠ .string reqId) : FailsEarly .typeError w
  | requireId {w' : World (ModuleHeap H)} {e : DukError}
      (failed : ReadFails host (.object func) (ascii "id") w (.thrown e) w') : FailsEarly e w'
  | unresolved {reqId : Bytes} {requireId : JsVal} {w' : World (ModuleHeap H)}
      (asked : v = .string reqId) (read : ReadTo host (.object func) (ascii "id") w requireId w')
      (nowhere : resolveId reqId requireId.getString = none) : FailsEarly .typeError w'
  | exports {l : Locals} {w₁ w' : World (ModuleHeap H)} {found : JsVal} {e : DukError}
      (resolved : Resolved duktape cache host w func v l w₁)
      (entry : loaded cache w₁ l.id.bytes = some found)
      (failed : ReadFails host found (ascii "exports") w₁ (.thrown e) w') : FailsEarly e w'
  | closed {l : Locals} {w₁ w' : World (ModuleHeap H)}
      (resolved : Resolved duktape cache host w func v l w₁)
      (absent : loaded cache w₁ l.id.bytes = none)
      (closed : (w₁.objects cache).extensible = false) : FailsEarly .typeError w'

/-- A call that does not return has failed early, or in a load, or the host has not come back. -/
inductive RequireFails : Fault → World (ModuleHeap H) → Prop where
  | early {e : DukError} {w' : World (ModuleHeap H)}
      (fails : FailsEarly duktape cache host w func v e w') (grows : Grows duktape cache w w') :
      RequireFails (.thrown e) w'
  | load {l : Locals} {w₁ w' : World (ModuleHeap H)} {e : Fault}
      (resolved : Resolved duktape cache host w func v l w₁)
      (absent : loaded cache w₁ l.id.bytes = none)
      (fails : (beginning duktape cache host w₁ l).Fails e w') : RequireFails e w'
  | noRequireId {w' : World (ModuleHeap H)}
      (failed : ReadFails host (.object func) (ascii "id") w .noReturn w') : RequireFails .noReturn w'
  | noExports {l : Locals} {w₁ w' : World (ModuleHeap H)} {found : JsVal}
      (resolved : Resolved duktape cache host w func v l w₁)
      (entry : loaded cache w₁ l.id.bytes = some found)
      (failed : ReadFails host found (ascii "exports") w₁ .noReturn w') : RequireFails .noReturn w'

variable {duktape cache host w func v} {l : Locals} {w₁ : World (ModuleHeap H)}
  {garbage : World (ModuleHeap H) → Vector UInt8 moduleIdLimit}

/-- The part of a call that follows a look-up without an answer. -/
theorem meets_load (hosts : CacheHost duktape cache host) (framework : Framework duktape cache w₁)
    (resolved : Resolved duktape cache host w func v l w₁)
    (absent : loaded cache w₁ l.id.bytes = none) :
    Meets (At (l.unloaded duktape cache) (· = w₁)) (do
        pushFreshRequire
        pushModule
        register host
        loadRegistered host)
      (fun _ => RequireReturns duktape cache host w func v)
      (OnWorld (RequireFails duktape cache host w func v)) := by
  have made : Grows duktape cache w₁ (withModule (withRequire w₁ l.id.bytes) l.id.bytes) :=
    (grows_withRequire _).trans (grows_withModule _)
  have framework' := (made framework).1
  have old : (withModule (withRequire w₁ l.id.bytes) l.id.bytes).objects cache =
      w₁.objects cache := by
    rw [withModule_objects_old (Nat.lt_succ_of_lt framework.cacheOld),
      withRequire_objects_old framework.cacheOld]
  have absent' : loaded cache (withModule (withRequire w₁ l.id.bytes) l.id.bytes) l.id.bytes =
      none := by
    rw [loaded, old]
    exact absent
  apply meets_pushFreshRequire.bind
  intro _
  apply meets_pushModule.bind
  intro _
  apply (meets_register hosts framework' absent' fun closed =>
    .early (.closed resolved absent (old ▸ closed)) (resolved.grows.trans made)).bind
  intro _
  have begun : Grows duktape cache w₁ (beginLoad cache w₁ l.id.bytes) := grows_beginLoad absent
  have loads := (beginning duktape cache host w₁ l).meets_loadRegistered hosts (begun framework).1
  intro ctx here
  cases ran : loadRegistered host ctx with
  | ok u ctx' => exact RequireReturns.loads resolved absent (loads.of_ok here ran)
  | error e ctx' => exact RequireFails.load resolved absent (loads.of_error here ran)

/-- The part of a call that follows the resolution. -/
theorem meets_resolved (hosts : CacheHost duktape cache host) (framework : Framework duktape cache w₁)
    (resolved : Resolved duktape cache host w func v l w₁) :
    Meets (At l.resolved (· = w₁)) (do
        if ← lookUpLoaded host then
          let _ ← getPropString host 0 (ascii "exports")
        else
          pushFreshRequire
          pushModule
          register host
          loadRegistered host)
      (fun _ => RequireReturns duktape cache host w func v)
      (OnWorld (RequireFails duktape cache host w func v)) := by
  apply (meets_lookUpLoaded hosts framework).bind
  intro found
  apply Meets.assume
  intro answer
  cases entry : loaded cache w₁ l.id.bytes with
  | some m =>
    rw [entry] at answer
    subst answer
    simp only [Option.isSome_some, if_true]
    -- only the read of the exports can still fail
    have fails : ∀ e w', ReadFails host m (ascii "exports") w₁ e w' → Grows duktape cache w₁ w' →
        RequireFails duktape cache host w func v e w' := by
      intro e w' failed grows
      cases e with
      | thrown e => exact .early (.exports resolved entry failed) (resolved.grows.trans grows)
      | noReturn => exact .noExports resolved entry failed
    apply (meets_getPropString hosts.respects (by simp [Locals.resolved, frameSize]) fails rfl).bind
    intro found
    refine .pure ?_
    rintro ctx ⟨value, read, there⟩
    exact .cached resolved entry there.stack there.world ⟨found, read⟩
  | none =>
    rw [entry] at answer
    subst answer
    simp only [Option.isSome_none, Bool.false_eq_true, if_false]
    exact meets_load hosts framework resolved entry

/-- How a call of `require` ends while the framework is set up. -/
theorem dukRequire_ends (garbage : World (ModuleHeap H) → Vector UInt8 moduleIdLimit) (func : Nat)
    (hosts : CacheHost duktape cache host) (framework : Framework duktape cache w) :
    Meets (At [v] (· = w)) (dukRequire host garbage func)
      (fun _ => RequireReturns duktape cache host w func v)
      (OnWorld (RequireFails duktape cache host w func v)) := by
  have fails : ∀ e w', ReadFails host (.object func) (ascii "id") w e w' →
      Grows duktape cache w w' → RequireFails duktape cache host w func v e w' := by
    intro e w' failed grows
    cases e with
    | thrown e => exact .early (.requireId failed) grows
    | noReturn => exact .noRequireId failed
  apply (meets_resolveRequested hosts (fun other => .early (.noName other) (GrowsBut.refl w)) fails
    fun reqId requireId w' asked read grows nowhere =>
      .early (.unresolved asked read nowhere) grows).bind
  intro _
  apply Meets.exists
  rintro l ctx ⟨resolved, there⟩
  exact meets_resolved hosts (resolved.grows framework).1 resolved ctx
    ⟨there.stack, there.room, rfl⟩

theorem dukRequire_ends_test : RequireReturns 1 2 bareHost bareWorld 3 (.string (ascii "a"))
      (endState (dukRequire bareHost (fun _ => Vector.replicate _ 0) 3 bareFrame)) := by
  have runs : returnsIn (fun _ => true) (dukRequire bareHost (fun _ => Vector.replicate _ 0) 3)
      bareFrame = true := by decide +kernel
  obtain ⟨_, ctx, ran, _⟩ := returnsIn_eq_true.mp runs
  rw [ran]
  exact (dukRequire_ends _ 3 (bareHost_cacheHost 1 2) bareWorld_framework).of_ok bareFrame_fresh ran

theorem Load.Returns.entry {ctx : Ctx (ModuleHeap H)} (framework : Framework duktape cache w₁)
    (absent : loaded cache w₁ l.id.bytes = none)
    (returns : (beginning duktape cache host w₁ l).Returns ctx) :
    loaded cache ctx.world l.id.bytes = some (.object (w₁.nextId + 2)) := by
  have begun : Grows duktape cache w₁ (beginLoad cache w₁ l.id.bytes) := grows_beginLoad absent
  obtain ⟨_, _, _, _, _, _, reached⟩ := returns
  exact (reached (begun framework).1).2 _ _ not_false (loaded_beginLoad _)

theorem RequireReturns.grows {ctx : Ctx (ModuleHeap H)}
    (returned : RequireReturns duktape cache host w func v ctx) :
    Grows duktape cache w ctx.world := by
  cases returned with
  | cached resolved entry stack grows read => exact resolved.grows.trans grows
  | loads resolved absent returns =>
    obtain ⟨_, _, _, _, _, _, reached⟩ := returns
    exact resolved.grows.trans ((grows_beginLoad absent).trans reached)

theorem RequireFails.grows {e : DukError} {w' : World (ModuleHeap H)}
    (failed : RequireFails duktape cache host w func v (.thrown e) w') :
    Grows duktape cache w w' := by
  cases failed with
  | early fails grows => exact grows
  | load resolved absent fails =>
    have begun : Grows duktape cache _ (beginLoad cache _ _) := grows_beginLoad absent
    cases fails with
    | forgotten throws reached forgets =>
      rw [forgets]
      exact resolved.grows.trans (grows_forgotten (begun.trans reached) absent)
    | escaped escapes reached => exact resolved.grows.trans (begun.trans reached)

/-- Whatever a call does, nothing that was loaded before it is lost. -/
theorem dukRequire_grows (garbage : World (ModuleHeap H) → Vector UInt8 moduleIdLimit) (func : Nat)
    (hosts : CacheHost duktape cache host) {ctx : Ctx (ModuleHeap H)}
    (fresh : At [v] (· = w) ctx)
    (back : ∀ ctx', dukRequire host garbage func ctx ≠ .error .noReturn ctx') :
    Grows duktape cache w (endState (dukRequire host garbage func ctx)).world := by
  intro framework
  have ends := dukRequire_ends garbage func hosts framework ctx fresh
  cases ran : dukRequire host garbage func ctx with
  | ok u ctx' =>
    rw [ran] at ends
    exact ends.grows framework
  | error e ctx' =>
    rw [ran] at ends
    cases e with
    | thrown e => exact ends.grows framework
    | noReturn => exact absurd ran (back ctx')

/-- In this world the function of the call resolves the name to the module. -/
def Locals.Names (l : Locals) (host : Host (ModuleHeap H)) (w : World (ModuleHeap H)) : Prop :=
  ∃ requireId : Option JsVal, l.requireId = requireId.getD .undefined ∧
    (∀ ctx : Ctx (ModuleHeap H), ctx.world = w →
      Reads host ctx (.object l.func) (ascii "id") requireId) ∧
    resolveId l.reqId l.requireId.getString = some l.id.place

theorem Locals.Names.resolved {l' : Locals} (names : l.Names host w)
    (resolved : Resolved duktape cache host w l.func (.string l.reqId) l' w₁) :
    l' = l ∧ w₁ = w := by
  obtain ⟨requireId, requires, reads, place⟩ := names
  obtain ⟨same, rfl⟩ := readTo_reads reads resolved.read
  have asked : l'.reqId = l.reqId := (JsVal.string.inj resolved.asked).symm
  have required : l'.requireId = l.requireId := same.trans requires.symm
  have places := resolved.place
  rw [asked, required, place] at places
  have ids : l'.id = l.id := ModuleId.ext (Option.some.inj places).symm
  exact ⟨Locals.ext asked resolved.called required ids, rfl⟩

/-- What such a call can still end with. -/
theorem RequireReturns.of_names {ctx : Ctx (ModuleHeap H)} (names : l.Names host w)
    (returns : RequireReturns duktape cache host w l.func (.string l.reqId) ctx) :
    (∃ found value rest, loaded cache w l.id.bytes = some found ∧ ctx.stack = value :: rest ∧
        ReadTo host found (ascii "exports") w value ctx.world) ∨
      loaded cache w l.id.bytes = none ∧ (beginning duktape cache host w l).Returns ctx := by
  cases returns with
  | cached resolved entry stack grows read =>
    obtain ⟨rfl, rfl⟩ := names.resolved resolved
    exact .inl ⟨_, _, _, entry, stack, read⟩
  | loads resolved absent returns =>
    obtain ⟨rfl, rfl⟩ := names.resolved resolved
    exact .inr ⟨absent, returns⟩

theorem RequireFails.of_names {e : Fault} {w' : World (ModuleHeap H)} (names : l.Names host w)
    (fails : RequireFails duktape cache host w l.func (.string l.reqId) e w') :
    (∃ found, loaded cache w l.id.bytes = some found ∧
        ReadFails host found (ascii "exports") w e w') ∨
      loaded cache w l.id.bytes = none ∧ ((w.objects cache).extensible = false ∨
        (beginning duktape cache host w l).Fails e w') := by
  have ⟨requireId, requires, reads, place⟩ := names
  cases fails with
  | early fails grows =>
    cases fails with
    | noName other => exact absurd rfl (other l.reqId)
    | requireId failed => exact absurd failed (not_readFails_reads reads)
    | unresolved asked read nowhere =>
      obtain ⟨same, _⟩ := readTo_reads reads read
      rw [← JsVal.string.inj asked, same, ← requires, place] at nowhere
      cases nowhere
    | exports resolved entry failed =>
      obtain ⟨rfl, rfl⟩ := names.resolved resolved
      exact .inl ⟨_, entry, failed⟩
    | closed resolved absent closed =>
      obtain ⟨rfl, rfl⟩ := names.resolved resolved
      exact .inr ⟨absent, .inl closed⟩
  | load resolved absent fails =>
    obtain ⟨rfl, rfl⟩ := names.resolved resolved
    exact .inr ⟨absent, .inr fails⟩
  | noRequireId failed => exact absurd failed (not_readFails_reads reads)
  | noExports resolved entry failed =>
    obtain ⟨rfl, rfl⟩ := names.resolved resolved
    exact .inl ⟨_, entry, failed⟩

/-- A module that has an entry is not loaded: the call reads its exports, in the world as it is. -/
theorem meets_dukRequire_found (hosts : CacheHost duktape cache host)
    (framework : Framework duktape cache w) (names : l.Names host w) {found : JsVal}
    (entry : loaded cache w l.id.bytes = some found) :
    Meets (At [.string l.reqId] (· = w)) (dukRequire host garbage l.func)
      (fun _ ctx => ∃ value rest, ctx.stack = value :: rest ∧
        ReadTo host found (ascii "exports") w value ctx.world)
      (OnWorld (ReadFails host found (ascii "exports") w)) := by
  intro ctx here
  have ends := dukRequire_ends garbage l.func hosts framework ctx here
  cases ran : dukRequire host garbage l.func ctx with
  | ok u ctx' =>
    rw [ran] at ends
    rcases ends.of_names names with ⟨found', value, rest, entry', stack, read⟩ | ⟨absent, _⟩
    · obtain rfl : found' = found := Option.some.inj (entry'.symm.trans entry)
      exact ⟨value, rest, stack, read⟩
    · exact nomatch absent.symm.trans entry
  | error e ctx' =>
    rw [ran] at ends
    rcases ends.of_names names with ⟨found', entry', failed⟩ | ⟨absent, _⟩
    · obtain rfl : found' = found := Option.some.inj (entry'.symm.trans entry)
      exact failed
    · exact nomatch absent.symm.trans entry

/-- From this world on, every call that resolves to the module reads the exports of this value. -/
def Serves (duktape cache : Nat) (host : Host (ModuleHeap H))
    (garbage : World (ModuleHeap H) → Vector UInt8 moduleIdLimit) (id : ModuleId) (found : JsVal)
    (w : World (ModuleHeap H)) : Prop :=
  ∀ later, Grows duktape cache w later → ∀ l : Locals, l.id = id → l.Names host later →
    Meets (At [.string l.reqId] (· = later)) (dukRequire host garbage l.func)
      (fun _ ctx => ∃ value rest, ctx.stack = value :: rest ∧
        ReadTo host found (ascii "exports") later value ctx.world)
      (OnWorld (ReadFails host found (ascii "exports") later))

theorem serves_of_entry (hosts : CacheHost duktape cache host) (framework : Framework duktape cache w)
    {id : ModuleId} {found : JsVal} (entry : loaded cache w id.bytes = some found) :
    Serves duktape cache host garbage id found w := by
  rintro later grows l rfl names
  obtain ⟨framework', kept⟩ := grows framework
  exact meets_dukRequire_found hosts framework' names (kept _ _ not_false entry)

/-- Once a call has returned, its module is not loaded again, however far the world moves on. -/
theorem require_once (hosts : CacheHost duktape cache host) (framework : Framework duktape cache w)
    {ctx ctx' : Ctx (ModuleHeap H)} (fresh : At [v] (· = w) ctx)
    (returned : dukRequire host garbage func ctx = .ok () ctx') :
    ∃ l w₁ found, Resolved duktape cache host w func v l w₁ ∧
      Serves duktape cache host garbage l.id found ctx'.world := by
  have ends := (dukRequire_ends garbage func hosts framework).of_ok fresh returned
  have framework' := (ends.grows framework).1
  cases ends with
  | cached resolved entry stack grows read =>
    have kept := (grows (resolved.grows framework).1).2 _ _ not_false entry
    exact ⟨_, _, _, resolved, serves_of_entry hosts framework' kept⟩
  | loads resolved absent returns =>
    have entry := returns.entry (resolved.grows framework).1 absent
    exact ⟨_, _, _, resolved, serves_of_entry hosts framework' entry⟩

theorem require_once_test : ∃ l w₁ found,
    Resolved 1 2 bareHost bareWorld 3 (.string (ascii "a")) l w₁ ∧
      Serves 1 2 bareHost (fun _ => Vector.replicate _ 0) l.id found
        (endState (dukRequire bareHost (fun _ => Vector.replicate _ 0) 3 bareFrame)).world := by
  have runs : returnsIn (fun _ => true) (dukRequire bareHost (fun _ => Vector.replicate _ 0) 3)
      bareFrame = true := by decide +kernel
  obtain ⟨_, ctx, ran, _⟩ := returnsIn_eq_true.mp runs
  rw [ran]
  exact require_once (bareHost_cacheHost 1 2) bareWorld_framework bareFrame_fresh ran

/-- After an error that a protected call caught, the module can be loaded again. After any other
error of its load, the half-made module passes for a loaded one. -/
theorem require_after_error (hosts : CacheHost duktape cache host)
    (framework : Framework duktape cache w) {ctx ctx' : Ctx (ModuleHeap H)} {e : DukError}
    (fresh : At [v] (· = w) ctx)
    (threw : dukRequire host garbage func ctx = .error (.thrown e) ctx') :
    FailsEarly duktape cache host w func v e ctx'.world ∨
      ∃ l w₁, Resolved duktape cache host w func v l w₁ ∧ loaded cache w₁ l.id.bytes = none ∧
        ((∃ x w₂, e = .value x ∧ (beginning duktape cache host w₁ l).Throws x w₂ ∧
            ctx'.world = w₂.setOwn cache l.id.bytes none) ∧ loaded cache ctx'.world l.id.bytes = none ∨
          (beginning duktape cache host w₁ l).Escapes ctx'.world e ∧
            Serves duktape cache host garbage l.id (.object (w₁.nextId + 2)) ctx'.world) := by
  have ends := (dukRequire_ends garbage func hosts framework).of_error fresh threw
  have framework' := (ends.grows framework).1
  cases ends with
  | early fails grows => exact .inl fails
  | load resolved absent fails =>
    refine .inr ⟨_, _, resolved, absent, ?_⟩
    cases fails with
    | forgotten throws reached forgets =>
      refine .inl ⟨⟨_, _, rfl, throws, forgets⟩, ?_⟩
      rw [forgets, loaded]
      simp only [beginning, own_setOwn_self, Function.update_self]
    | escaped escapes reached =>
      have framework₁ := (resolved.grows framework).1
      have begun : Grows duktape cache _ (beginLoad cache _ _) := grows_beginLoad absent
      have entry := (reached (begun framework₁).1).2 _ _ not_false (loaded_beginLoad _)
      exact .inr ⟨escapes, serves_of_entry hosts framework' entry⟩

/-- A host whose search finds a text that closes the wrapper early, so that null is what the text
evaluates to. -/
def hollowHost : Host (ModuleHeap Unit) :=
  { bareHost with
    call := fun w _ _ func _ =>
      .returns (if func = .object 4 then .string (ascii "\x7d); null && (\x7b") else .null) w 0
    compile := fun w _ _ _ _ => .returns (.object 3) w 0 }

theorem hollowHost_cacheHost : CacheHost 1 2 hollowHost where
  respects :=
    { (bareHost_cacheHost 1 2).respects with
      call := fun w _ _ _ _ => GrowsBut.refl w
      compile := fun w _ _ _ _ => GrowsBut.refl w }
  noPrototype _ _ _ := rfl
  noSetter _ _ _ _ := rfl
  hidden := by
    rintro w src filename func w₁ v w₂ _ _ ⟨free, ⟨_, reserved, returned⟩ | ⟨failed, _⟩⟩ same
    · have answer := (Outcome.returns.inj returned).1
      rw [same] at answer
      split at answer <;> cases answer
    · cases failed

theorem require_after_error_test : ∃ ctx : Ctx (ModuleHeap Unit),
    loaded 2 ctx.world (ascii "a") = some (.object 7) ∧
      (FailsEarly 1 2 hollowHost bareWorld 3 (.string (ascii "a")) .typeError ctx.world ∨
        ∃ l w₁, Resolved 1 2 hollowHost bareWorld 3 (.string (ascii "a")) l w₁ ∧
          loaded 2 w₁ l.id.bytes = none ∧
          ((∃ x w₂, DukError.typeError = .value x ∧ (beginning 1 2 hollowHost w₁ l).Throws x w₂ ∧
              ctx.world = w₂.setOwn 2 l.id.bytes none) ∧ loaded 2 ctx.world l.id.bytes = none ∨
            (beginning 1 2 hollowHost w₁ l).Escapes ctx.world .typeError ∧
              Serves 1 2 hollowHost (fun _ => Vector.replicate _ 0) l.id
                (.object (w₁.nextId + 2)) ctx.world)) := by
  have runs : throwsIn (.thrown .typeError)
      (fun ctx => loaded 2 ctx.world (ascii "a") = some (.object 7))
      (dukRequire hollowHost (fun _ => Vector.replicate _ 0) 3) bareFrame = true := by decide +kernel
  obtain ⟨ctx, ran, entry⟩ := throwsIn_eq_true.mp runs
  refine ⟨ctx, decide_eq_true_iff.mp entry, ?_⟩
  exact require_after_error hollowHost_cacheHost bareWorld_framework bareFrame_fresh ran

end Call

end DukBridge
