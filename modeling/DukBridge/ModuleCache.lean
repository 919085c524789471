import DukBridge.FrameTriples

/-!
# The loaded modules

While nothing but `require` writes to `Duktape.modLoaded`, a module that has been entered stays
there, and the one call that may take it out again is the one that entered it.
-/
namespace DukBridge

open Effect

variable {H : Type}

/-! ### The state of the framework -/

section State

variable (duktape cache : Nat) (w w' : World (ModuleHeap H))

/-- The framework as it is set up: the stashed `Duktape` has a `modLoaded` of its own, which is an
ordinary object with ordinary properties. -/
structure Framework : Prop where
  stashed : w.heap.stashedDuktape = .object duktape
  modLoaded : ∃ wr c, (w.objects duktape).own (ascii "modLoaded") =
    some (.data (.object cache) wr c)
  apart : cache ≠ duktape
  cacheOld : cache < w.nextId
  duktapeOld : duktape < w.nextId
  entries : ∀ id, (w.objects cache).own id = none ∨
    ∃ v, (w.objects cache).own id = some (.data v true true)

/-- `Duktape.modLoaded[id]` -/
def loaded (id : Bytes) : Option JsVal :=
  match (w.objects cache).own id with
  | some (.data v _ _) => some v
  | _ => none

/-- The framework stays set up, and nothing that is loaded goes, but for what is spared. -/
def GrowsBut (spared : Bytes → Prop) : Prop :=
  Framework duktape cache w → Framework duktape cache w' ∧
    ∀ id v, ¬ spared id → loaded cache w id = some v → loaded cache w' id = some v

/-- Nothing that is loaded goes. -/
abbrev Grows : Prop := GrowsBut duktape cache w w' fun _ => False

/-- What `require` relies on: nothing else takes a loaded module away, `modLoaded` has neither a
prototype nor setters, and no wrapper evaluates to it. -/
structure CacheHost (host : Host (ModuleHeap H)) : Prop where
  respects : host.Respects (Grows duktape cache)
  noPrototype : ∀ w free id, host.readThrough w free (.object cache) id = .returns none w 0
  noSetter : ∀ w free id v, host.writeThrough w free cache id v = none
  hidden : ∀ w src filename func w₁ v w₂, Framework duktape cache w →
    Compiled host w .eval src filename 0 func w₁ → Called host w₁ .undefined func [] 0 v w₂ →
    v ≠ .object cache

end State

section Growth

variable {duktape cache : Nat} {w w' w'' : World (ModuleHeap H)} {spared : Bytes → Prop}

theorem GrowsBut.refl (w : World (ModuleHeap H)) : GrowsBut duktape cache w w spared :=
  fun framework => ⟨framework, fun _ _ _ entry => entry⟩

theorem GrowsBut.trans (first : GrowsBut duktape cache w w' spared)
    (next : GrowsBut duktape cache w' w'' spared) : GrowsBut duktape cache w w'' spared := by
  intro framework
  obtain ⟨framework', kept⟩ := first framework
  obtain ⟨framework'', kept'⟩ := next framework'
  exact ⟨framework'', fun id v other entry => kept' id v other (kept id v other entry)⟩

theorem Grows.but (grows : Grows duktape cache w w') : GrowsBut duktape cache w w' spared :=
  fun framework =>
    have ⟨framework', kept⟩ := grows framework
    ⟨framework', fun id v _ entry => kept id v not_false entry⟩

/-- What leaves the two objects alone leaves the framework as it was. -/
theorem grows_of_untouched (stash : w'.heap.stashedDuktape = w.heap.stashedDuktape)
    (sameCache : (w'.objects cache).own = (w.objects cache).own)
    (sameDuktape : (w'.objects duktape).own (ascii "modLoaded") =
      (w.objects duktape).own (ascii "modLoaded"))
    (later : w.nextId ≤ w'.nextId) : Grows duktape cache w w' := by
  intro framework
  refine ⟨⟨stash.trans framework.stashed, ?_, framework.apart, ?_, ?_, ?_⟩, fun id v _ entry => ?_⟩
  · rw [sameDuktape]
    exact framework.modLoaded
  · exact Nat.lt_of_lt_of_le framework.cacheOld later
  · exact Nat.lt_of_lt_of_le framework.duktapeOld later
  · rw [sameCache]
    exact framework.entries
  · rwa [loaded, sameCache]

/-- So does what only makes new objects, and works on these. -/
theorem grows_of_old (stash : w'.heap.stashedDuktape = w.heap.stashedDuktape)
    (old : ∀ id < w.nextId, w'.objects id = w.objects id) (later : w.nextId ≤ w'.nextId) :
    Grows duktape cache w w' := by
  intro framework
  have sameCache := congrArg ObjectRec.own (old cache framework.cacheOld)
  have sameDuktape := congrArg ObjectRec.own (old duktape framework.duktapeOld)
  exact grows_of_untouched stash sameCache (congrFun sameDuktape _) later framework

/-- What is not there is not lost. -/
theorem GrowsBut.grows_of_absent {id : Bytes} (but : GrowsBut duktape cache w w' (· = id))
    (absent : loaded cache w id = none) : Grows duktape cache w w' := by
  intro framework
  obtain ⟨framework', kept⟩ := but framework
  refine ⟨framework', fun id' v _ entry => kept id' v ?_ entry⟩
  rintro rfl
  rw [absent] at entry
  cases entry

theorem loaded_eq_none (framework : Framework duktape cache w) {id : Bytes} :
    loaded cache w id = none ↔ (w.objects cache).own id = none := by
  rcases framework.entries id with own | ⟨v, own⟩
  · simp [loaded, own]
  · simp [loaded, own]

/-- An own property of some other object, or of `Duktape` under another name. -/
theorem grows_setOwn {obj : Nat} {key : Bytes} {slot : Option PropSlot}
    (notCache : obj ≠ cache) (other : obj = duktape → key ≠ ascii "modLoaded") :
    Grows duktape cache w (w.setOwn obj key slot) := by
  refine grows_of_untouched rfl ?_ ?_ (Nat.le_refl _)
  · rw [objects_setOwn_of_ne notCache.symm]
  · by_cases same : obj = duktape
    · subst same
      rw [own_setOwn_self, Function.update_of_ne (other rfl).symm]
    · rw [objects_setOwn_of_ne (Ne.symm same)]

/-- The entry of one module is written or taken out. -/
theorem grows_entry {id : Bytes} {slot : Option PropSlot} (plain : slot = none ∨
    ∃ v, slot = some (.data v true true)) :
    GrowsBut duktape cache w (w.setOwn cache id slot) (· = id) := by
  intro framework
  have entries := own_setOwn_self w cache id slot
  refine ⟨⟨framework.stashed, ?_, framework.apart, framework.cacheOld, framework.duktapeOld,
    fun id' => ?_⟩, fun id' v other entry => ?_⟩
  · rw [objects_setOwn_of_ne framework.apart.symm]
    exact framework.modLoaded
  · rw [entries]
    by_cases same : id' = id
    · rw [same, Function.update_self]
      exact plain
    · rw [Function.update_of_ne same]
      exact framework.entries id'
  · rw [loaded, entries, Function.update_of_ne other]
    exact entry

/-- An entry that was not there before is taken out again. -/
theorem grows_forgotten {id : Bytes} (later : Grows duktape cache w w')
    (absent : loaded cache w id = none) : Grows duktape cache w (w'.setOwn cache id none) :=
  GrowsBut.grows_of_absent (later.but.trans (grows_entry (.inl rfl))) absent

theorem loaded_setOwn {id : Bytes} {v : JsVal} {wr c : Bool} :
    loaded cache (w.setOwn cache id (some (.data v wr c))) id = some v := by
  rw [loaded, own_setOwn_self, Function.update_self]

end Growth

/-! ### An engine without scripts -/

section Bare

/-- Nothing is found where no own property is, no function does anything, and nothing compiles. -/
def bareHost : Host (ModuleHeap H) where
  mem _ := 0
  gettimeofday _ := ⟨0, 0⟩
  readFileContent _ := .error (-1)
  call w _ _ _ _ := .returns .undefined w 0
  compile w _ _ _ _ := .throws .undefined w 0
  jsonEncode w _ _ := .returns none w 0
  jsonDecode w _ _ := .returns .null w 0
  readThrough w _ _ _ := .returns none w 0
  writeThrough _ _ _ _ _ := none
  errorObject w _ _ := .returns .undefined w 0
  safeToString w _ _ := some ([], w, 0)
  native w _ _ _ _ := .returns ⟨.none, 0, 0, none⟩ w 0
  address _ _ := 4096
  createInstance w _ _ _ := .returns none w 0
  mallocs _ := true

/-- Object 1 is `Duktape`, object 2 its `modLoaded`, object 3 the `require` of the main program and
object 4 the search. -/
def bareWorld : World (ModuleHeap Unit) where
  objects
    | 1 => ⟨.plain, fun key =>
        if key = ascii "modLoaded" then some (.data (.object 2) true true)
        else if key = ascii "modSearch" then some (.data (.object 4) true true)
        else none, true, none⟩
    | _ => ⟨.plain, fun _ => none, true, none⟩
  nextId := 5
  reads := 0
  heap := ⟨fun id => id = 3, .object 1, ()⟩

theorem bareWorld_framework : Framework 1 2 bareWorld where
  stashed := rfl
  modLoaded := ⟨true, true, rfl⟩
  apart := by decide
  cacheOld := by decide
  duktapeOld := by decide
  entries _ := .inl rfl

def moduleA : ModuleId := ⟨[ascii "a"], ⟨by decide, by decide⟩, by decide, by decide⟩

/-- The frame in which the main program requires the module `a`. -/
def bareFrame : Ctx (ModuleHeap Unit) := ⟨[.string (ascii "a")], frameSize, bareWorld⟩

theorem bareFrame_fresh : At [.string (ascii "a")] (· = bareWorld) bareFrame :=
  ⟨rfl, Nat.le_refl _, rfl⟩

theorem bareHost_cacheHost (duktape cache : Nat) :
    CacheHost duktape cache (bareHost : Host (ModuleHeap H)) where
  respects :=
    { refl := GrowsBut.refl
      trans := GrowsBut.trans
      clock := fun _ => grows_of_untouched rfl rfl rfl (Nat.le_refl _)
      allocation := fun w o => grows_of_old rfl (fun id old => by
        simp [World.setObject, Nat.ne_of_lt old]) (Nat.le_succ _)
      call := fun w _ _ _ _ => GrowsBut.refl w
      compile := fun w _ _ _ _ => GrowsBut.refl w
      jsonEncode := fun w _ _ => GrowsBut.refl w
      jsonDecode := fun w _ _ => GrowsBut.refl w
      readThrough := fun w _ _ _ => GrowsBut.refl w
      errorObject := fun w _ _ => GrowsBut.refl w
      safeToString := fun w _ _ _ w' _ back => by
        cases back
        exact GrowsBut.refl w }
  noPrototype _ _ _ := rfl
  noSetter _ _ _ _ := rfl
  hidden := by
    rintro w src filename func w₁ v w₂ _ ⟨free, ⟨_, _, compiled⟩ | ⟨failed, _⟩⟩ _
    · cases compiled
    · cases failed

end Bare

/-! ### The slots of a call -/

/-- What a call of `require` has resolved. -/
@[ext]
structure Locals where
  reqId : Bytes
  func : Nat
  requireId : JsVal
  id : ModuleId

namespace Locals

variable (l : Locals) (duktape cache : Nat)

def resolved : List JsVal :=
  [.string l.id.lastComp, .string l.id.bytes, l.requireId, .object l.func, .string l.reqId]

/-- The look-up has left `undefined`. -/
def unloaded : List JsVal := .undefined :: .object cache :: .object duktape :: l.resolved

def loading (freshRequire exports module : Nat) : List JsVal :=
  .object module :: .object exports :: .object freshRequire :: l.unloaded duktape cache

end Locals

theorem ModuleId.bytes_short (id : ModuleId) : id.bytes.length ≤ maxStringLen :=
  Nat.le_trans (Nat.le_of_lt id.within) (by decide)

theorem ModuleId.lastComp_short (id : ModuleId) : id.lastComp.length ≤ maxStringLen := by
  refine Nat.le_trans ?_ id.bytes_short
  rw [ModuleId.bytes, id.place_eq, TermPath.path_cons, List.length_append]
  omega

section Stages

variable {duktape cache : Nat} {host : Host (ModuleHeap H)} {w w₀ : World (ModuleHeap H)}
  {garbage : World (ModuleHeap H) → Vector UInt8 moduleIdLimit}
  {F : Fault → World (ModuleHeap H) → Prop} {l : Locals}

/-- The resolver pushes the id of a module and the name at its end, or throws. -/
theorem meets_pushResolved {I : World (ModuleHeap H) → Prop} {reqId : Bytes} {func : Nat}
    {requireId : JsVal} (unresolved : resolveId reqId requireId.getString = none →
      ∀ w, I w → F (.thrown .typeError) w) :
    Meets (At [requireId, .object func, .string reqId] I)
      (pushResolved garbage reqId requireId.getString)
      (fun _ ctx => ∃ id : ModuleId, resolveId reqId requireId.getString = some id.place ∧
        At (Locals.resolved ⟨reqId, func, requireId, id⟩) I ctx) (OnWorld F) := by
  refine .get_bind fun ctx there => ?_
  rw [dukResolveModuleId_eq]
  cases leads : resolveId reqId requireId.getString with
  | none =>
    rintro _ rfl
    exact unresolved leads _ there.world
  | some place =>
    obtain ⟨id, rfl⟩ := moduleId_of_resolveId leads
    rw [ofPlace_place]
    have pushed : Meets (At [requireId, .object func, .string reqId] I)
        (do pushBytes id.bytes; pushBytes id.lastComp)
        (fun _ => At (Locals.resolved ⟨reqId, func, requireId, id⟩) I) (OnWorld F) := by
      apply (meets_pushBytes (by simp [frameSize]) id.bytes_short).bind
      intro _
      exact meets_pushBytes (by simp [frameSize]) id.lastComp_short
    exact pushed.mono (fun s same => same ▸ there) fun _ s post => ⟨id, rfl, post⟩

/-- What a call is about, in a world that the read of its function's id has led to. -/
structure Resolved (duktape cache : Nat) (host : Host (ModuleHeap H)) (w : World (ModuleHeap H))
    (func : Nat) (v : JsVal) (l : Locals) (w₁ : World (ModuleHeap H)) : Prop where
  called : l.func = func
  asked : v = .string l.reqId
  read : ReadTo host (.object func) (ascii "id") w l.requireId w₁
  place : resolveId l.reqId l.requireId.getString = some l.id.place
  grows : Grows duktape cache w w₁

/-- The name is resolved, or the call ends as the read of `require.id` or the resolver does. -/
theorem meets_resolveRequested {v : JsVal} {func : Nat} (hosts : CacheHost duktape cache host)
    (noName : (∀ reqId, v ≠ .string reqId) → F (.thrown .typeError) w)
    (fails : ∀ e w', ReadFails host (.object func) (ascii "id") w e w' → Grows duktape cache w w' →
      F e w')
    (unresolved : ∀ reqId requireId w', v = .string reqId →
      ReadTo host (.object func) (ascii "id") w requireId w' → Grows duktape cache w w' →
      resolveId reqId requireId.getString = none → F (.thrown .typeError) w') :
    Meets (At [v] (· = w)) (resolveRequested host garbage func)
      (fun _ ctx => ∃ l, Resolved duktape cache host w func v l ctx.world ∧
        At l.resolved (Grows duktape cache w) ctx) (OnWorld F) := by
  apply meets_slot_bind
  by_cases named : ∃ reqId, v = .string reqId
  · obtain ⟨reqId, rfl⟩ := named
    apply (meets_push (by simp [frameSize])).bind
    intro _
    apply bind_step (meets_getPropStringAt hosts.respects (by simp [frameSize]) fails rfl)
    intro _ requireId w' read grows
    apply meets_slot_bind
    refine (meets_pushResolved ?_).mono (fun _ pre => pre) ?_
    · rintro nowhere _ rfl
      exact unresolved reqId requireId _ rfl ⟨_, read⟩ grows nowhere
    · rintro _ ctx ⟨id, place, done⟩
      rw [← done.world] at read grows
      exact ⟨⟨reqId, func, requireId, id⟩, ⟨rfl, rfl, ⟨_, read⟩, place, grows⟩, done.stack, done.room,
        grows⟩
  -- `duk_require_string` takes strings only
  · have refused : F (.thrown .typeError) w := noName fun reqId same => named ⟨reqId, same⟩
    have raises : Meets (At [v] (· = w)) (raise .typeError : Duk (ModuleHeap H) Unit)
        (fun _ ctx => ∃ l, Resolved duktape cache host w func v l ctx.world ∧
          At l.resolved (Grows duktape cache w) ctx) (OnWorld F) := by
      refine meets_raise ?_
      rintro _ rfl
      exact refused
    cases v with
    | string reqId => exact absurd ⟨reqId, rfl⟩ named
    | _ => exact raises

/-- The entry of the module is found, or there is none. -/
theorem meets_lookUpLoaded (hosts : CacheHost duktape cache host)
    (framework : Framework duktape cache w) :
    Meets (At l.resolved (· = w)) (lookUpLoaded host)
      (fun found ctx => found = (loaded cache w l.id.bytes).isSome ∧
        At ((loaded cache w l.id.bytes).getD .undefined :: .object cache :: .object duktape ::
          l.resolved) (· = w) ctx) (OnWorld F) := by
  obtain ⟨wr, c, modLoaded⟩ := framework.modLoaded
  apply (meets_requireRoom (by simp [Locals.resolved, frameSize])).bind
  intro _
  refine .get_bind fun ctx there => ?_
  rw [there.world, framework.stashed]
  refine Meets.mono (fun s same => (same ▸ there : At l.resolved (· = w) s)) (fun _ _ post => post) ?_
  apply (meets_push (by simp [Locals.resolved, frameSize])).bind
  intro _
  apply (meets_getPropStringAt_own (by simp [Locals.resolved, frameSize]) rfl modLoaded).bind
  intro _
  apply Meets.assume
  intro _
  apply meets_slot_bind
  apply (meets_dup (by simp [Locals.resolved, frameSize])).bind
  intro _
  have reads : ∀ ctx : Ctx (ModuleHeap H), ctx.world = w →
      Reads host ctx (.object cache) l.id.bytes (loaded cache w l.id.bytes) := by
    rintro ctx rfl
    rcases framework.entries l.id.bytes with own | ⟨v, own⟩
    · rw [(loaded_eq_none framework).mpr own]
      exact .inherited own (hosts.noPrototype _ _ _)
    · have entry : loaded cache ctx.world l.id.bytes = some v := by rw [loaded, own]
      rw [entry]
      exact .own own
  exact meets_getProp (by simp [Locals.resolved, frameSize]) rfl reads

/-- The world with a new `require` for a module. -/
def withRequire (w : World (ModuleHeap H)) (id : Bytes) : World (ModuleHeap H) :=
  ((markRequire (w.withNew .plain none) w.nextId).setOwn w.nextId (ascii "name")
      (some (.data (.string (ascii "require")) false false))).setOwn w.nextId (ascii "id")
    (some (.data (.string id) false true))

/-- The world with the tables of a new module. -/
def withModule (w : World (ModuleHeap H)) (id : Bytes) : World (ModuleHeap H) :=
  (((w.withNew .plain none).withNew .plain none).setOwn (w.nextId + 1) (ascii "exports")
      (some (.data (.object w.nextId) true true))).setOwn (w.nextId + 1) (ascii "id")
    (some (.data (.string id) false false))

theorem withRequire_objects_old {id : Bytes} {obj : Nat} (old : obj < w.nextId) :
    (withRequire w id).objects obj = w.objects obj := by
  have apart := Nat.ne_of_lt old
  rw [withRequire, objects_setOwn_of_ne apart, objects_setOwn_of_ne apart]
  exact withNew_objects_old old _ _

theorem grows_withRequire (id : Bytes) : Grows duktape cache w (withRequire w id) :=
  grows_of_old rfl (fun _ old => withRequire_objects_old old) (Nat.le_succ _)

theorem withModule_objects_old {id : Bytes} {obj : Nat} (old : obj < w.nextId) :
    (withModule w id).objects obj = w.objects obj := by
  have older : obj < (w.withNew .plain none).nextId := Nat.lt_succ_of_lt old
  have apart : obj ≠ w.nextId + 1 := Nat.ne_of_lt older
  rw [withModule, objects_setOwn_of_ne apart, objects_setOwn_of_ne apart,
    withNew_objects_old older, withNew_objects_old old]

theorem grows_withModule (id : Bytes) : Grows duktape cache w (withModule w id) :=
  grows_of_old rfl (fun _ old => withModule_objects_old old) (Nat.le_add_right _ 2)

theorem meets_pushRequire {vals : List JsVal} (fits : vals.length + 1 ≤ frameSize) :
    Meets (At vals (· = w)) pushRequire (fun _ => At (.object w.nextId :: vals)
      (· = markRequire (w.withNew .plain none) w.nextId)) (OnWorld F) := by
  refine .get_bind fun ctx there => ?_
  rw [there.world]
  refine Meets.mono (fun s same => (same ▸ there : At vals (· = w) s)) (fun _ _ post => post) ?_
  apply (meets_pushNew fits).bind
  rintro _ ⟨stack, reserve, w'⟩ here
  obtain rfl := here.world
  exact ⟨here.stack, here.room, rfl⟩

theorem markRequire_objects (w : World (ModuleHeap H)) (id : Nat) :
    (markRequire w id).objects = w.objects := rfl

theorem meets_pushFreshRequire :
    Meets (At (l.unloaded duktape cache) (· = w)) pushFreshRequire
      (fun _ => At (.object w.nextId :: l.unloaded duktape cache) (· = withRequire w l.id.bytes))
      (OnWorld F) := by
  have apart : ascii "id" ≠ ascii "name" := by decide
  apply (meets_pushRequire (by simp [Locals.unloaded, Locals.resolved, frameSize])).bind
  intro _
  apply (meets_pushBytes (by simp [Locals.unloaded, Locals.resolved, frameSize]) (by decide)).bind
  intro _
  apply (meets_pushBytes (by simp [Locals.unloaded, Locals.resolved, frameSize]) (by decide)).bind
  intro _
  apply (meets_defProp rfl (defines_new .haveValue ?_ ?_)).bind
  · intro _
    apply (meets_pushBytes (by simp [Locals.unloaded, Locals.resolved, frameSize])
      (by decide)).bind
    intro _
    apply (meets_dup (by simp [Locals.unloaded, Locals.resolved, frameSize])).bind
    intro _
    refine meets_defProp rfl (defines_new _ ?_ ?_)
    · rw [own_setOwn_self, Function.update_of_ne apart, markRequire_objects, withNew_objects_self]
    · rw [extensible_setOwn, markRequire_objects, withNew_objects_self]
  · rw [markRequire_objects, withNew_objects_self]
  · rw [markRequire_objects, withNew_objects_self]

theorem meets_pushModule {f : Nat} :
    Meets (At (.object f :: l.unloaded duktape cache) (· = w)) pushModule
      (fun _ => At (l.loading duktape cache f w.nextId (w.nextId + 1))
        (· = withModule w l.id.bytes)) (OnWorld F) := by
  have apart : ascii "id" ≠ ascii "exports" := by decide
  have next : (w.withNew .plain none).nextId = w.nextId + 1 := rfl
  have fresh : ((w.withNew .plain none).withNew .plain none).objects (w.nextId + 1) =
      ⟨.plain, fun _ => none, true, none⟩ := withNew_objects_self (w := w.withNew .plain none) _ _
  apply (meets_pushNew (by simp [Locals.unloaded, Locals.resolved, frameSize])).bind
  intro _
  apply (meets_pushNew (by simp [Locals.unloaded, Locals.resolved, frameSize])).bind
  intro _
  apply (meets_pushBytes (by simp [Locals.unloaded, Locals.resolved, frameSize]) (by decide)).bind
  intro _
  apply (meets_dup (by simp [Locals.unloaded, Locals.resolved, frameSize])).bind
  intro _
  apply (meets_defProp rfl (defines_new _ ?_ ?_)).bind
  · intro _
    apply (meets_pushBytes (by simp [Locals.unloaded, Locals.resolved, frameSize])
      (by decide)).bind
    intro _
    apply (meets_dup (by simp [Locals.unloaded, Locals.resolved, frameSize])).bind
    intro _
    refine meets_defProp rfl (defines_new _ ?_ ?_)
    · rw [next, own_setOwn_self, Function.update_of_ne apart, fresh]
    · rw [extensible_setOwn, fresh]
  · exact congrFun (congrArg ObjectRec.own fresh) _
  · exact congrArg ObjectRec.extensible fresh

/-- `Duktape.modLoaded[id] = module` -/
def withEntry (cache : Nat) (w : World (ModuleHeap H)) (id : Bytes) (module : Nat) :
    World (ModuleHeap H) :=
  w.setOwn cache id (some (.data (.object module) true true))

/-- The world of a load from its registration on. -/
def beginLoad (cache : Nat) (w : World (ModuleHeap H)) (id : Bytes) : World (ModuleHeap H) :=
  withEntry cache (withModule (withRequire w id) id) id (w.nextId + 2)

theorem grows_beginLoad {id : Bytes} (absent : loaded cache w id = none) :
    Grows duktape cache w (beginLoad cache w id) := by
  have made : Grows duktape cache w (withModule (withRequire w id) id) :=
    (grows_withRequire id).trans (grows_withModule id)
  exact (made.but.trans (grows_entry (.inr ⟨_, rfl⟩))).grows_of_absent absent

theorem loaded_beginLoad (id : Bytes) :
    loaded cache (beginLoad cache w id) id = some (.object (w.nextId + 2)) := loaded_setOwn

theorem meets_register {f e m : Nat} (hosts : CacheHost duktape cache host)
    (framework : Framework duktape cache w) (absent : loaded cache w l.id.bytes = none)
    (closed : (w.objects cache).extensible = false → F (.thrown .typeError) w) :
    Meets (At (l.loading duktape cache f e m) (· = w)) (register host)
      (fun _ => At (l.loading duktape cache f e m) (· = withEntry cache w l.id.bytes m))
      (OnWorld F) := by
  apply (meets_dup (by simp [Locals.loading, Locals.unloaded, Locals.resolved, frameSize])).bind
  intro _
  apply (meets_dup (by simp [Locals.loading, Locals.unloaded, Locals.resolved, frameSize])).bind
  intro _
  apply (meets_requireRoom (by simp [Locals.loading, Locals.unloaded, Locals.resolved,
    frameSize])).bind
  intro _
  apply meets_slot_bind
  apply meets_getAt_bind
  apply meets_getAt_bind
  have own := (loaded_eq_none framework).mp absent
  have refused : (w.objects cache).accepts l.id.bytes = none → F (.thrown .typeError) w := by
    intro refuses
    simp only [ObjectRec.accepts, own] at refuses
    split at refuses
    · cases refuses
    · next sealed => exact closed (Bool.not_eq_true _ ▸ sealed)
  apply (meets_writeProp (fun _ => hosts.noSetter _ _ _ _) refused).bind
  intro _
  apply Meets.exists
  intro c
  apply Meets.assume
  intro accepts
  -- the entry is a new property
  have configurable : c = true := by
    simp only [ObjectRec.accepts, own] at accepts
    split at accepts
    · exact (Option.some.inj accepts).symm
    · cases accepts
  subst configurable
  exact meets_popN (Nat.le_add_left 2 _)

/-- A failed load is forgotten before its error is thrown on. -/
theorem meets_deleteRethrow {vals : List JsVal} {v : JsVal} {id : Bytes}
    {Q : Unit → Ctx (ModuleHeap H) → Prop} (fits : vals.length + 4 ≤ frameSize)
    (resolved : (v :: vals).reverse.getD idxResolvedId .undefined = .string id)
    (modLoaded : (.string id :: v :: vals).reverse.getD idxModLoaded .undefined = .object cache)
    (framework : Framework duktape cache w)
    (forgets : F (.thrown (.value v)) (w.setOwn cache id none)) :
    Meets (At (v :: vals) (· = w)) deleteRethrow Q (OnWorld F) := by
  have deletes : (w.objects cache).deletes id = true := by
    rcases framework.entries id with own | ⟨v, own⟩
    · rw [ObjectRec.deletes, own]
    · simp only [ObjectRec.deletes, own, PropSlot.configurable]
  apply (meets_dup (by rw [List.length_cons]; omega)).bind
  intro _
  rw [resolved]
  have deleted : Meets (At (.string id :: v :: vals) (· = w)) (delProp idxModLoaded)
      (fun _ => At (v :: vals) (· = w.setOwn cache id none)) (OnWorld F) := by
    apply (meets_requireRoom (by simp only [List.length_cons]; omega)).bind
    intro _
    apply meets_slot_bind
    rw [modLoaded]
    apply meets_getAt_bind
    apply (meets_deleteProp deletes).bind
    intro _
    exact meets_popN (Nat.le_add_left 1 _)
  apply deleted.bind
  intro _
  apply meets_getAt_bind
  refine meets_raise ?_
  rintro _ rfl
  exact forgets

end Stages

end DukBridge
