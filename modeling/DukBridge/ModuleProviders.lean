import DukBridge.ModuleRuns

/-!
# What the search of the bridge provides

With `Duktape.modSearch` as `set_modSearch` makes it, a module that has no entry is a script in a
file, or the value of an init function or a loader of the host, or it is nowhere.
-/
namespace DukBridge

open Effect

variable {H : Type}

/-! ### The search as a function of the host -/

section

variable (host : Host (ModuleHeap H)) (dlopen : Bytes → Option (Dll (ModuleHeap H)))
  (fns : LoaderFns (ModuleHeap H)) (modHome : ModHome)

/-- What a search comes to for its caller. One in which a buffer was too small does not come back. -/
def searchOutcome : EStateM.Result Fault (Ctx H) (Option JsVal) → Outcome H JsVal
  | .ok (some v) ctx => .returns v ctx.world 0
  | .ok none _ => .never
  | .error (.thrown e) ctx =>
    let (v, w') := thrownValue ctx.world e
    .throws v w' 0
  | .error .noReturn _ => .never

/-- A call of the search, in a frame of its own. -/
def runSearch (w : World (ModuleHeap H)) (id : ResolvedId) (module : Nat) :
    Outcome (ModuleHeap H) JsVal :=
  searchOutcome (modSearch host dlopen fns modHome id module ⟨[], frameSize, w⟩)

/-- A native provider has the module: its shared object has an init function, or a loader answers
for it. An id with the suffix of a script is a file or nothing. -/
inductive Provides (ctx : Ctx (ModuleHeap H)) (id : ResolvedId) (mod : JsVal) : Prop where
  | dll {initFn : World (ModuleHeap H) → Nat → Outcome (ModuleHeap H) JsVal}
      {w : World (ModuleHeap H)} (other : id.endsWithJs = false)
      (defined : definedInit dlopen modHome id = some initFn)
      (returned : InitReturns initFn ctx.world mod w)
  | loader {mid : Ctx (ModuleHeap H)} (other : id.endsWithJs = false)
      (undefined : definedInit dlopen modHome id = none)
      (returned : LoadersReturn host fns modHome id ctx mod mid) (found : mod.toBoolean = true)

variable {host dlopen fns modHome} {ctx : Ctx (ModuleHeap H)} {id : ResolvedId} {module : Nat}

/-- A search that does its part ends in one of three ways. -/
theorem searchEnds_of_settles (plain : PlainModules host module)
    (allocated : module < ctx.world.nextId)
    (settles : SearchSettles host dlopen fns modHome id module ctx) :
    SearchEnds host dlopen fns modHome id module ctx
      (modSearch host dlopen fns modHome id module ctx) := by
  obtain ⟨named, settles⟩ := settles
  rw [modSearch_eq named]
  cases content : host.fileText (cString (jsName modHome id)) with
  | ok text =>
    have readable : scriptText host modHome id = some text := by
      rw [scriptText, content]
      rfl
    rw [readable] at settles
    simp only [settles.1, settles.2, if_true, Bool.false_eq_true, if_false]
    exact .script readable
  | error ret =>
    have unreadable : scriptText host modHome id = none := by
      rw [scriptText, content]
      rfl
    rw [unreadable] at settles
    dsimp only [afterScript]
    cases js : id.endsWithJs with
    | true => exact .noScript unreadable js
    | false =>
      have native := settles.resolve_left (by simp [js])
      exact .native unreadable js ((searchNative_ends plain allocated).mpr native)

theorem not_provides_of_nowhere (undefined : definedInit dlopen modHome id = none) {mod : JsVal}
    {mid : Ctx (ModuleHeap H)} (returned : LoadersReturn host fns modHome id ctx mod mid)
    (found : mod.toBoolean = false) (mod' : JsVal) :
    ¬ Provides host dlopen fns modHome ctx id mod' := by
  intro provides
  cases provides with
  | dll _ defined _ => cases undefined.symm.trans defined
  | loader _ _ returned' found' =>
    cases returned.symm.trans returned'
    cases found.symm.trans found'

end

/-! ### A load with this search -/

theorem protected_returns {v₀ v : JsVal} {w₀ w : World H} {reserved : Nat} {rc : Int32} :
    Protected (.returns v₀ w₀ reserved) rc v w ↔ rc = 0 ∧ v = v₀ ∧ w = w₀ := by
  constructor
  · rintro (⟨rfl, _, same⟩ | ⟨_, _, other⟩)
    · cases same
      exact ⟨rfl, rfl, rfl⟩
    · cases other
  · rintro ⟨rfl, rfl, rfl⟩
    exact .inl ⟨rfl, _, rfl⟩

theorem protected_throws {v₀ v : JsVal} {w₀ w : World H} {reserved : Nat} {rc : Int32} :
    Protected (.throws v₀ w₀ reserved) rc v w ↔ rc = 1 ∧ v = v₀ ∧ w = w₀ := by
  constructor
  · rintro (⟨_, _, other⟩ | ⟨rfl, _, same⟩)
    · cases other
    · cases same
      exact ⟨rfl, rfl, rfl⟩
  · rintro ⟨rfl, rfl, rfl⟩
    exact .inr ⟨rfl, _, rfl⟩

namespace Load

variable (load : Load H) (dlopen : Bytes → Option (Dll (ModuleHeap H)))
  (fns : LoaderFns (ModuleHeap H)) (modHome : ModHome)

/-- The frame the search runs in. -/
def searchFrame : Ctx (ModuleHeap H) := ⟨[], frameSize, load.start⟩

/-- `Duktape.modSearch` is the script of `set_modSearch`. -/
structure Searches (search : Nat) : Prop where
  own : ∃ wr c, (load.start.objects load.duktape).own (ascii "modSearch") =
    some (.data (.object search) wr c)
  runs : ∀ free, load.host.call load.start free .undefined (.object search) load.searchArgs =
    runSearch load.host dlopen fns modHome load.start load.about.id.toResolvedId load.module

/-- How the load ends, in a call that comes to it. -/
def Ends : EStateM.Result Fault (Ctx (ModuleHeap H)) Unit → Prop
  | .ok _ ctx => load.Returns ctx
  | .error e ctx => load.Fails e ctx.world

variable {load dlopen fns modHome} {search : Nat} {rc : Int32} {v : JsVal}
  {w w' : World (ModuleHeap H)}

theorem searched_iff (searches : load.Searches dlopen fns modHome search) :
    load.Searched rc v w ↔ Protected (runSearch load.host dlopen fns modHome load.start
      load.about.id.toResolvedId load.module) rc v w := by
  obtain ⟨wr, c, own⟩ := searches.own
  have reads : ∀ ctx : Ctx (ModuleHeap H), ctx.world = load.start →
      Reads load.host ctx (.object load.duktape) (ascii "modSearch") (some (.object search)) := by
    rintro ctx same
    exact .own (same ▸ own)
  constructor
  · rintro ⟨func, w₁, read, free, ends⟩
    obtain ⟨rfl, rfl⟩ := readTo_reads reads read
    rw [← searches.runs free]
    exact ends
  · intro ends
    refine ⟨.object search, load.start, ⟨true, load.searchFrame, load.searchFrame, rfl, rfl,
      reads load.searchFrame rfl⟩, 0, ?_⟩
    rw [searches.runs 0]
    exact ends

/-! Without a text, nothing follows the search but a read of the exports. -/

theorem CompiledTo.searched (compiled : load.CompiledTo rc v w) :
    ∃ src w₁, load.Searched 0 (.string src) w₁ := by
  obtain ⟨src, w₁, _, _, searched, _, _⟩ := compiled
  exact ⟨src, w₁, searched⟩

theorem EvaluatedTo.searched (evaluated : load.EvaluatedTo rc v w) :
    ∃ src w₁, load.Searched 0 (.string src) w₁ := by
  obtain ⟨_, _, compiled, _⟩ := evaluated
  exact compiled.searched

theorem Named.searched (named : load.Named v w) : ∃ src w₁, load.Searched 0 (.string src) w₁ := by
  obtain ⟨_, _, _, _, _, _, evaluated, _⟩ := named
  exact evaluated.searched

theorem RanModule.searched (ran : load.RanModule rc v w) :
    ∃ src w₁, load.Searched 0 (.string src) w₁ := by
  obtain ⟨_, _, _, _, named, _⟩ := ran
  exact named.searched

section

variable (noText : ¬ ∃ src w₁, load.Searched 0 (.string src) w₁)
include noText

theorem Succeeds.of_noText (succeeds : load.Succeeds w) : ∃ v, load.Searched 0 v w := by
  cases succeeds with
  | native searched _ => exact ⟨_, searched⟩
  | script ran => exact absurd ran.searched noText

theorem Throws.of_noText (throws : load.Throws v w) : ∃ rc, rc ≠ 0 ∧ load.Searched rc v w := by
  cases throws with
  | search failed searched => exact ⟨_, failed, searched⟩
  | compile _ compiled => exact absurd compiled.searched noText
  | evaluate _ evaluated => exact absurd evaluated.searched noText
  | run _ ran => exact absurd ran.searched noText

theorem ReadStops.of_noText {e : Fault} (searches : load.Searches dlopen fns modHome search)
    (stops : load.ReadStops e w') : ∃ v w w', load.Searched 0 v w ∧
      ReadFails load.host (.object load.module) (ascii "exports") w e w' := by
  cases stops with
  | modSearch failed =>
    obtain ⟨wr, c, own⟩ := searches.own
    refine absurd failed (not_readFails_reads (r := some (.object search)) fun ctx same => ?_)
    exact .own (same ▸ own)
  | filename searched _ => exact absurd ⟨_, _, searched⟩ noText
  | name evaluated _ => exact absurd evaluated.searched noText
  | current named _ => exact absurd named.searched noText
  | exports succeeds failed =>
    obtain ⟨v, searched⟩ := succeeds.of_noText noText
    exact ⟨v, _, _, searched, failed⟩

theorem Fails.of_noText {e : Fault} (searches : load.Searches dlopen fns modHome search)
    (back : runSearch load.host dlopen fns modHome load.start load.about.id.toResolvedId
      load.module ≠ .never) (fails : load.Fails e w') :
    (∃ rc v w, rc ≠ 0 ∧ load.Searched rc v w ∧ e = .thrown (.value v) ∧
        w' = w.setOwn load.cache load.about.id.bytes none) ∨
      ∃ v w w', load.Searched 0 v w ∧
        ReadFails load.host (.object load.module) (ascii "exports") w e w' := by
  cases fails with
  | forgotten throws _ forgets =>
    obtain ⟨rc, failed, searched⟩ := throws.of_noText noText
    exact .inl ⟨rc, _, _, failed, searched, rfl, forgets⟩
  | escaped escapes _ =>
    cases escapes with
    | read stops => exact .inr (stops.of_noText noText searches)
    | symbol searched _ => exact absurd ⟨_, _, searched⟩ noText
    | long searched _ => exact absurd ⟨_, _, searched⟩ noText
    | wrapper evaluated _ _ => exact absurd evaluated.searched noText
  | stuck sticks =>
    cases sticks with
    | read stops => exact .inr (stops.of_noText noText searches)
    | search read _ never =>
      obtain ⟨wr, c, own⟩ := searches.own
      obtain ⟨rfl, rfl⟩ := readTo_reads (r := some (.object search))
        (fun ctx same => .own (same ▸ own)) read
      exact absurd ((searches.runs _).symm.trans never) back
    | compile searched _ _ => exact absurd ⟨_, _, searched⟩ noText
    | evaluate compiled _ _ => exact absurd compiled.searched noText
    | run named _ _ _ => exact absurd named.searched noText

end

theorem Searched.reached (hosts : CacheHost load.duktape load.cache load.host)
    (searched : load.Searched rc v w) : load.Reaches w := by
  obtain ⟨_, _, read, _, ends⟩ := searched
  exact (read.within hosts.respects).trans (ends.within (hosts.respects.call _ _ _ _ _))

/-- The error object of a search is not `modLoaded`, which has kept the entry. -/
theorem error_ne_cache {mid : World (ModuleHeap H)} {message id : Bytes} {cache duktape m : Nat}
    (framework : Framework duktape cache w) (entry : loaded cache w id = some (.object m))
    (grows : Grows duktape cache w (withError mid (some message))) : mid.nextId ≠ cache := by
  rintro rfl
  -- the only property of an error object is its message, which is a string
  have kept := (grows framework).2 _ _ not_false entry
  rw [loaded, withError, own_setOwn_self, withNew_objects_self] at kept
  by_cases same : id = ascii "message"
  · rw [same, Function.update_self] at kept
    cases kept
  · rw [Function.update_of_ne same] at kept
    cases kept

end Load

theorem withError_shape (w : World H) (message : Bytes) :
    ((withError w (some message)).objects w.nextId).shape.error = true := by
  simp [withError, World.withNew, World.setOwn, World.setObject]

/-! ### The endings -/

section Endings

variable (duktape cache : Nat) (host : Host (ModuleHeap H)) (id : ModuleId)

/-- In this world, every call that resolves to the module returns `m` and does nothing else. -/
def GivesExports (m : JsVal) (w : World (ModuleHeap H)) : Prop :=
  ∀ garbage (l : Locals), l.id = id → l.Names host w → ∀ ctx, At [.string l.reqId] (· = w) ctx →
    ∃ ctx', dukRequire host garbage l.func ctx = .ok () ctx' ∧ ctx'.get 0 = m ∧ ctx'.world = w

variable {duktape cache host id} {w : World (ModuleHeap H)}

theorem gives_of_installed (hosts : CacheHost duktape cache host)
    (framework : Framework duktape cache w) {module : Nat} {m : JsVal}
    (entry : loaded cache w id.bytes = some (.object module)) (installed : Installed module m w) :
    GivesExports host id m w := by
  obtain ⟨c, own⟩ := installed
  have reads : ∀ ctx : Ctx (ModuleHeap H), ctx.world = w →
      Reads host ctx (.object module) (ascii "exports") (some m) := fun ctx same => .own (same ▸ own)
  rintro garbage l rfl names ctx here
  have found : Meets _ (dukRequire host garbage l.func) _ _ :=
    meets_dukRequire_found hosts framework names entry
  have ends := found ctx here
  cases ran : dukRequire host garbage l.func ctx with
  | ok u ctx' =>
    rw [ran] at ends
    obtain ⟨value, rest, stack, read⟩ := ends
    obtain ⟨rfl, same⟩ := readTo_reads reads read
    refine ⟨ctx', rfl, ?_, same⟩
    rw [Ctx.get, stack]
    rfl
  | error e ctx' =>
    rw [ran] at ends
    exact absurd ends (not_readFails_reads reads)

end Endings

section Providers

variable (load : Load H) (dlopen : Bytes → Option (Dll (ModuleHeap H)))
  (fns : LoaderFns (ModuleHeap H)) (modHome : ModHome)

/-- How a call ends that comes to this load. -/
inductive ProvidedEnds : EStateM.Result Fault (Ctx (ModuleHeap H)) Unit → Prop where
  /-- The file is compiled, as it is, between the two ends of the wrapper. -/
  | script {text : Bytes} {result : EStateM.Result Fault (Ctx (ModuleHeap H)) Unit}
      (readable : scriptText load.host modHome load.about.id.toResolvedId = some text)
      (compiles : ∀ rc v w, load.CompiledTo rc v w ↔
        Compiled load.host load.start .eval (wrapped text) (some load.about.id.bytes) rc v w)
      (ends : load.Ends result) : ProvidedEnds result
  /-- The value of the host is the exports of the module, in this call and in those that follow
  until something else is assigned to them. -/
  | native {mod : JsVal} {ctx : Ctx (ModuleHeap H)}
      (unreadable : scriptText load.host modHome load.about.id.toResolvedId = none)
      (provides : Provides load.host dlopen fns modHome load.searchFrame
        load.about.id.toResolvedId mod)
      (top : ctx.get 0 = mod) (installed : Installed load.module mod ctx.world)
      (again : ∀ later mod', Grows load.duktape load.cache ctx.world later →
        Installed load.module mod' later → GivesExports load.host load.about.id mod' later) :
      ProvidedEnds (.ok () ctx)
  /-- The error names the module, which has no entry any more. -/
  | nowhere {err : Nat} {ctx : Ctx (ModuleHeap H)}
      (unreadable : scriptText load.host modHome load.about.id.toResolvedId = none)
      (nowhere : ∀ mod, ¬ Provides load.host dlopen fns modHome load.searchFrame
        load.about.id.toResolvedId mod)
      (isError : (ctx.world.objects err).shape.error = true)
      (message : (ctx.world.objects err).own (ascii "message") =
        some (.data (.string (ascii "module not found: " ++ load.about.id.bytes)) true true))
      (forgotten : loaded load.cache ctx.world load.about.id.bytes = none) :
      ProvidedEnds (.error (.thrown (.value (.object err))) ctx)

variable {load dlopen fns modHome} {search : Nat} {rc : Int32} {v : JsVal}
  {w : World (ModuleHeap H)} {result : EStateM.Result Fault (Ctx (ModuleHeap H)) Unit}

/-- A file is found without a change to the world, and its name stays the id. -/
theorem compiledTo_iff {text : Bytes} (searches : load.Searches dlopen fns modHome search)
    (found : runSearch load.host dlopen fns modHome load.start load.about.id.toResolvedId
      load.module = .returns (.string text) load.start 0)
    (noFilename : ∀ ctx : Ctx (ModuleHeap H), ctx.world = load.start →
      Reads load.host ctx (.object load.module) (ascii "filename") none) :
    load.CompiledTo rc v w ↔
      Compiled load.host load.start .eval (wrapped text) (some load.about.id.bytes) rc v w := by
  have searched : ∀ {rc v w}, load.Searched rc v w ↔ rc = 0 ∧ v = .string text ∧ w = load.start := by
    intro rc v w
    rw [Load.searched_iff searches, found, protected_returns]
  constructor
  · rintro ⟨src, w₁, filename, w₂, searched', ⟨answered, read, reads, name⟩, compiled⟩
    obtain ⟨_, same, rfl⟩ := searched.mp searched'
    -- without a `filename` the file is compiled under the id
    obtain rfl := JsVal.string.inj same
    obtain ⟨ctx, ctx', started, rfl, ran⟩ := reads
    cases ran.symm.trans (noFilename ctx started)
    rw [started] at compiled
    rw [name] at compiled
    exact compiled
  · intro compiled
    refine ⟨text, load.start, .string load.about.id.bytes, load.start,
      searched.mpr ⟨rfl, rfl, rfl⟩, ⟨false, .undefined, ?_, rfl⟩, compiled⟩
    exact ⟨load.searchFrame, load.searchFrame, rfl, rfl, noFilename load.searchFrame rfl⟩

/-- A native module: nothing follows the search but the read of what it has installed. -/
theorem provided_native (hosts : CacheHost load.duktape load.cache load.host)
    (framework : Framework load.duktape load.cache load.start)
    (entry : loaded load.cache load.start load.about.id.bytes = some (.object load.module))
    (searches : load.Searches dlopen fns modHome search)
    (unreadable : scriptText load.host modHome load.about.id.toResolvedId = none) {mod : JsVal}
    (provides : Provides load.host dlopen fns modHome load.searchFrame
      load.about.id.toResolvedId mod)
    (found : runSearch load.host dlopen fns modHome load.start load.about.id.toResolvedId
      load.module = .returns .undefined w 0)
    (installed : Installed load.module mod w) (ends : load.Ends result) :
    ProvidedEnds load dlopen fns modHome result := by
  have searched : ∀ {rc v w'}, load.Searched rc v w' ↔ rc = 0 ∧ v = .undefined ∧ w' = w := by
    intro rc v w'
    rw [Load.searched_iff searches, found, protected_returns]
  have noText : ¬ ∃ src w₁, load.Searched 0 (.string src) w₁ := by
    rintro ⟨src, w₁, text⟩
    cases (searched.mp text).2.1
  have back : runSearch load.host dlopen fns modHome load.start load.about.id.toResolvedId
      load.module ≠ .never := by
    rw [found]
    intro same
    cases same
  have reads : ∀ ctx : Ctx (ModuleHeap H), ctx.world = w →
      Reads load.host ctx (.object load.module) (ascii "exports") (some mod) := by
    obtain ⟨c, own⟩ := installed
    exact fun ctx same => .own (same ▸ own)
  cases result with
  | ok u ctx =>
    obtain ⟨w₁, value, rest, succeeds, stack, read, reached⟩ := ends
    obtain ⟨_, searched'⟩ := succeeds.of_noText noText
    obtain ⟨_, _, rfl⟩ := searched.mp searched'
    obtain ⟨rfl, same⟩ := readTo_reads reads read
    refine .native unreadable provides ?_ (same ▸ installed) fun later mod' grows installed' => ?_
    · rw [Ctx.get, stack]
      rfl
    -- the entry is kept by this load, and by all that happens later
    · have framework' := (reached framework).1
      have entry' := (reached framework).2 _ _ not_false entry
      have kept := (grows framework').2 _ _ not_false entry'
      exact gives_of_installed hosts (grows framework').1 kept installed'
  | error e ctx =>
    -- neither the search nor the read of the exports can fail
    exfalso
    rcases ends.of_noText noText searches back with
      ⟨rc, v, w₁, failed, searched', _⟩ | ⟨v, w₁, w', searched', failed⟩
    · exact failed (searched.mp searched').1
    · obtain ⟨_, _, rfl⟩ := searched.mp searched'
      exact not_readFails_reads reads failed

/-- The module is nowhere: the error of the search is thrown on, once the entry is gone. -/
theorem provided_nowhere (hosts : CacheHost load.duktape load.cache load.host)
    (framework : Framework load.duktape load.cache load.start)
    (entry : loaded load.cache load.start load.about.id.bytes = some (.object load.module))
    (searches : load.Searches dlopen fns modHome search)
    (unreadable : scriptText load.host modHome load.about.id.toResolvedId = none)
    (nowhere : ∀ mod, ¬ Provides load.host dlopen fns modHome load.searchFrame
      load.about.id.toResolvedId mod)
    (threw : runSearch load.host dlopen fns modHome load.start load.about.id.toResolvedId
      load.module = .throws (.object w.nextId)
        (withError w (some (ascii "module not found: " ++ load.about.id.bytes))) 0)
    (ends : load.Ends result) : ProvidedEnds load dlopen fns modHome result := by
  have searched : ∀ {rc v w'}, load.Searched rc v w' ↔ rc = 1 ∧ v = .object w.nextId ∧
      w' = withError w (some (ascii "module not found: " ++ load.about.id.bytes)) := by
    intro rc v w'
    rw [Load.searched_iff searches, threw, protected_throws]
  have noText : ¬ ∃ src w₁, load.Searched 0 (.string src) w₁ := by
    rintro ⟨src, w₁, text⟩
    exact nomatch (searched.mp text).2.1
  cases result with
  | ok u ctx =>
    obtain ⟨w₁, value, rest, succeeds, _⟩ := ends
    obtain ⟨_, searched'⟩ := succeeds.of_noText noText
    exact nomatch (searched.mp searched').1
  | error e ctx =>
    rcases ends.of_noText noText searches (by rw [threw]; exact nofun) with
      ⟨rc, v, w₁, _, searched', rfl, forgets⟩ | ⟨v, w₁, w', searched', _⟩
    -- the entry is deleted, and the error object is not where it was
    · have reached := searched'.reached hosts
      obtain ⟨_, rfl, rfl⟩ := searched.mp searched'
      have apart := Load.error_ne_cache framework entry reached
      refine .nowhere unreadable nowhere ?_ ?_ ?_
      · rw [forgets, objects_setOwn_of_ne apart]
        exact withError_shape w _
      · rw [forgets, objects_setOwn_of_ne apart, withError, own_setOwn_self, Function.update_self]
      · rw [forgets, loaded, own_setOwn_self, Function.update_self]
    · exact nomatch (searched.mp searched').1

/-- The load ends as the search does its part. -/
theorem provided (hosts : CacheHost load.duktape load.cache load.host)
    (framework : Framework load.duktape load.cache load.start)
    (entry : loaded load.cache load.start load.about.id.bytes = some (.object load.module))
    (allocated : load.module < load.start.nextId)
    (searches : load.Searches dlopen fns modHome search)
    (plain : PlainModules load.host load.module)
    (noFilename : ∀ ctx : Ctx (ModuleHeap H), ctx.world = load.start →
      Reads load.host ctx (.object load.module) (ascii "filename") none)
    (settles : SearchSettles load.host dlopen fns modHome load.about.id.toResolvedId load.module
      load.searchFrame)
    (ends : load.Ends result) : ProvidedEnds load dlopen fns modHome result := by
  have searched := searchEnds_of_settles plain allocated settles
  have run : runSearch load.host dlopen fns modHome load.start load.about.id.toResolvedId
      load.module = searchOutcome (modSearch load.host dlopen fns modHome
        load.about.id.toResolvedId load.module load.searchFrame) := rfl
  generalize modSearch load.host dlopen fns modHome load.about.id.toResolvedId load.module
    load.searchFrame = found at searched run
  cases searched with
  | script readable =>
    exact .script readable (fun rc v w => compiledTo_iff searches run noFilename) ends
  | noScript unreadable js =>
    -- an id that ends in `.js` is not looked for anywhere else
    have nowhere : ∀ mod, ¬ Provides load.host dlopen fns modHome load.searchFrame
        load.about.id.toResolvedId mod := by
      intro mod provides
      cases provides with
      | dll other _ _ => cases js.symm.trans other
      | loader other _ _ _ => cases js.symm.trans other
    exact provided_nowhere hosts framework entry searches unreadable nowhere run ends
  | native unreadable other native =>
    cases native with
    | dll defined returned installed _ =>
      exact provided_native hosts framework entry searches unreadable
        (.dll other defined returned) run installed ends
    | loader undefined returned truthy installed _ =>
      exact provided_native hosts framework entry searches unreadable
        (.loader other undefined returned truthy) run installed ends
    | nowhere undefined returned falsy =>
      exact provided_nowhere hosts framework entry searches unreadable
        (not_provides_of_nowhere undefined returned falsy) run ends

end Providers

/-! ### A call -/

section Call

variable {duktape cache search : Nat} {host : Host (ModuleHeap H)} {w : World (ModuleHeap H)}
  {l : Locals} {dlopen : Bytes → Option (Dll (ModuleHeap H))} {fns : LoaderFns (ModuleHeap H)}
  {modHome : ModHome}

theorem beginLoad_module (framework : Framework duktape cache w) (id : Bytes) :
    (beginLoad cache w id).objects (w.nextId + 2) =
      (withModule (withRequire w id) id).objects (w.nextId + 2) := by
  have old := framework.cacheOld
  exact objects_setOwn_of_ne (by omega) _ _ _

/-- A new module has its exports and its id, and no other property. -/
theorem beginLoad_own_none (framework : Framework duktape cache w) {id key : Bytes}
    (notExports : key ≠ ascii "exports") (notId : key ≠ ascii "id") :
    ((beginLoad cache w id).objects (w.nextId + 2)).own key = none := by
  have fresh : ((((withRequire w id).withNew .plain none).withNew .plain none).objects
      (w.nextId + 2)).own = fun _ => none :=
    congrArg ObjectRec.own (withNew_objects_self (w := (withRequire w id).withNew .plain none) _ _)
  rw [beginLoad_module framework, withModule]
  change ((World.setOwn _ (w.nextId + 2) _ _).objects (w.nextId + 2)).own key = none
  rw [own_setOwn_self, Function.update_of_ne notId]
  change ((World.setOwn _ (w.nextId + 2) _ _).objects (w.nextId + 2)).own key = none
  rw [own_setOwn_self, Function.update_of_ne notExports, fresh]

/-- A call for a module that has no entry ends as the files, the shared objects and the loaders
have it. -/
theorem require_provided (garbage : World (ModuleHeap H) → Vector UInt8 moduleIdLimit)
    (hosts : CacheHost duktape cache host) (framework : Framework duktape cache w)
    (extensible : (w.objects cache).extensible = true) (names : l.Names host w)
    (absent : loaded cache w l.id.bytes = none)
    (searches : (beginning duktape cache host w l).Searches dlopen fns modHome search)
    (plain : PlainModules host (w.nextId + 2))
    (noFilename : ∀ w' free,
      host.readThrough w' free (.object (w.nextId + 2)) (ascii "filename") = .returns none w' 0)
    (settles : SearchSettles host dlopen fns modHome l.id.toResolvedId (w.nextId + 2)
      (beginning duktape cache host w l).searchFrame)
    {ctx : Ctx (ModuleHeap H)} (fresh : At [.string l.reqId] (· = w) ctx) :
    ProvidedEnds (beginning duktape cache host w l) dlopen fns modHome
      (dukRequire host garbage l.func ctx) := by
  have ends : (beginning duktape cache host w l).Ends (dukRequire host garbage l.func ctx) := by
    have ends := dukRequire_ends garbage l.func hosts framework ctx fresh
    cases ran : dukRequire host garbage l.func ctx with
    | ok u ctx' =>
      rw [ran] at ends
      rcases ends.of_names names with ⟨_, _, _, entry, _⟩ | ⟨_, returns⟩
      · exact nomatch absent.symm.trans entry
      · exact returns
    | error e ctx' =>
      rw [ran] at ends
      rcases ends.of_names names with ⟨_, entry, _⟩ | ⟨_, closed | fails⟩
      · exact nomatch absent.symm.trans entry
      · exact nomatch extensible.symm.trans closed
      · exact fails
  have begun : Grows duktape cache w (beginLoad cache w l.id.bytes) := grows_beginLoad absent
  refine provided hosts (begun framework).1 (loaded_beginLoad _) (Nat.lt_succ_self _) searches plain
    (fun ctx' started => ?_) settles ends
  refine .inherited ?_ (noFilename _ _)
  rw [started]
  exact beginLoad_own_none framework (by decide) (by decide)

/-- A host without files, shared objects and loaders. -/
def emptyHost : Host (ModuleHeap Unit) :=
  { bareHost with
    call := fun w _ _ func _ =>
      if func = .object 4 then
        .throws (.object w.nextId) (withError w (some (ascii "module not found: " ++ ascii "a"))) 0
      else .returns .undefined w 0 }

theorem emptyHost_cacheHost : CacheHost 1 2 emptyHost where
  respects :=
    { (bareHost_cacheHost 1 2).respects with
      call := fun w _ _ func _ => by
        rw [emptyHost]
        dsimp only
        split
        · exact withError_grows w _
        · exact GrowsBut.refl w }
  noPrototype _ _ _ := rfl
  noSetter _ _ _ _ := rfl
  hidden := by
    rintro w src filename func w₁ v w₂ _ ⟨free, ⟨_, _, compiled⟩ | ⟨failed, _⟩⟩ _
    · cases compiled
    · cases failed

def emptyFns : LoaderFns (ModuleHeap Unit) :=
  ⟨fun _ _ _ _ _ _ => .never, fun _ _ _ _ => return [], fun _ _ _ _ => return []⟩

theorem require_provided_test : ProvidedEnds
    (beginning 1 2 emptyHost bareWorld ⟨ascii "a", 3, .undefined, moduleA⟩) (fun _ => none) emptyFns
    testHome (dukRequire emptyHost (fun _ => Vector.replicate _ 0) 3 bareFrame) := by
  let l : Locals := ⟨ascii "a", 3, .undefined, moduleA⟩
  have names : l.Names emptyHost bareWorld :=
    ⟨none, rfl, fun ctx same => .inherited (same ▸ rfl) rfl, by decide +kernel⟩
  have searches : (beginning 1 2 emptyHost bareWorld l).Searches (fun _ => none) emptyFns testHome
      4 := ⟨⟨true, true, rfl⟩, fun _ => rfl⟩
  exact require_provided (l := l) _ emptyHost_cacheHost bareWorld_framework rfl names rfl searches
    ⟨fun _ _ _ _ => rfl, fun _ _ _ _ => rfl, fun _ _ _ => rfl⟩ (fun _ _ => rfl)
    ⟨rfl, .inr ⟨.undefined, _, rfl, nofun⟩⟩ bareFrame_fresh

end Call

end DukBridge
