import DukBridge.MemberFrames

/-!
# The search for a loader

What `loadNativeModule` does is said of the list of registered loaders: their
`load_module` functions are called in turn until one returns a handle, and that loader's other
callbacks make an object for it.
-/
namespace DukBridge

open Effect

variable {H : Type} {host : Host H} {fns : LoaderFns H} {ctx ctx' : Ctx H} {modHome id : Word}

/-! ### The search over a list -/

/-- A loader without one of these two callbacks is passed over. -/
def LoaderPtrs.Complete (l : LoaderPtrs) : Prop := l.loadModule ≠ 0 ∧ l.getMethodsList ≠ 0

instance (l : LoaderPtrs) : Decidable l.Complete := inferInstanceAs (Decidable (_ ∧ _))

/-- The first loader that returns a handle, with the handle. -/
def selectLoader (fns : LoaderFns H) (modHome id : Word) :
    List ModuleLoader → Duk H (Option (ModuleLoader × Word))
  | [] => return none
  | l :: rest =>
    if l.Complete then do
      let hMod ← callLoadModule fns l.loadModule l.udd modHome id
      if hMod = 0 then selectLoader fns modHome id rest else return some (l, hMod)
    else selectLoader fns modHome id rest

/-- An object for what the selected loader returned, or undefined. -/
def searchLoaders (host : Host H) (fns : LoaderFns H) (modHome id : Word)
    (loaders : List ModuleLoader) : Duk H Unit := do
  match ← selectLoader fns modHome id loaders with
  | some (l, hMod) =>
    buildNativeObj host fns l.udd id hMod l.getMethodsList l.getAttrsList l.finalizer
  | none => pushUndefined

/-- Calls of the `load_module` of loaders with their `udd`, one after the other, with the handles
they returned. Each runs in the world that the one before it left. -/
inductive LoadCalls (fns : LoaderFns H) (modHome id : Word) :
    Ctx H → List (ModuleLoader × Word) → Ctx H → Prop where
  | none {ctx : Ctx H} : LoadCalls fns modHome id ctx [] ctx
  | call {ctx ctx' : Ctx H} {l : ModuleLoader} {hMod w reserved calls}
      (returned : fns.loadModule l.loadModule l.udd modHome id ctx.world ctx.free =
        .returns hMod w reserved)
      (rest : LoadCalls fns modHome id
        { ctx with world := w, reserve := ctx.reserve + reserved } calls ctx') :
      LoadCalls fns modHome id ctx ((l, hMod) :: calls) ctx'

/-- The loaders were called in their order, without gaps among the complete ones, and only the
selected one, the last, returned a handle. -/
structure CallsInOrder (loaders : List ModuleLoader) (calls : List (ModuleLoader × Word))
    (selected : Option (ModuleLoader × Word)) : Prop where
  order : calls.map Prod.fst <+: loaders.filter fun l => l.Complete
  refused : ∃ before, calls = before ++ selected.toList ∧ ∀ call ∈ before, call.2 = 0
  handle : ∀ call ∈ selected, call.2 ≠ 0
  exhausted : selected = none → calls.map Prod.fst = loaders.filter fun l => l.Complete

theorem callLoadModule_eq_ok {loadModule udd hMod : Word} :
    callLoadModule fns loadModule udd modHome id ctx = .ok hMod ctx' ↔ ∃ w reserved,
      fns.loadModule loadModule udd modHome id ctx.world ctx.free = .returns hMod w reserved ∧
        ctx' = { ctx with world := w, reserve := ctx.reserve + reserved } := by
  rw [callLoadModule, bind_run, get_run]
  exact outcome_run_eq_ok

theorem selectLoader_ok {loaders : List ModuleLoader} {selected : Option (ModuleLoader × Word)}
    (returned : selectLoader fns modHome id loaders ctx = .ok selected ctx') :
    ∃ calls, LoadCalls fns modHome id ctx calls ctx' ∧ CallsInOrder loaders calls selected := by
  induction loaders generalizing ctx with
  | nil =>
    cases returned
    exact ⟨[], .none, List.nil_prefix, ⟨[], rfl, by simp⟩, by simp, fun _ => rfl⟩
  | cons l rest ih =>
    rw [selectLoader] at returned
    split at returned
    · next complete =>
      obtain ⟨hMod, mid, called, more⟩ := bind_eq_ok.mp returned
      obtain ⟨w, reserved, loaded, rfl⟩ := callLoadModule_eq_ok.mp called
      split at more
      · next refused =>
        -- one more call in front of those for the rest
        obtain ⟨calls, made, inOrder⟩ := ih more
        obtain ⟨before, split, allRefused⟩ := inOrder.refused
        refine ⟨(l, hMod) :: calls, .call loaded made, ?_, ⟨(l, hMod) :: before, ?_, ?_⟩,
          inOrder.handle, ?_⟩
        · simpa [complete] using inOrder.order
        · rw [split, List.cons_append]
        · simpa [refused] using allRefused
        · intro none
          simpa [complete] using inOrder.exhausted none
      · next accepted =>
        cases more
        refine ⟨[(l, hMod)], .call loaded .none, ?_, ⟨[], rfl, by simp⟩, ?_, ?_⟩
        · simp [complete]
        · simpa using accepted
        · intro absurd
          cases absurd
    · next incomplete =>
      obtain ⟨calls, made, inOrder⟩ := ih returned
      refine ⟨calls, made, ?_, inOrder.refused, inOrder.handle, ?_⟩
      · simpa [incomplete] using inOrder.order
      · intro none
        simpa [incomplete] using inOrder.exhausted none

/-- The calls decide the selection. -/
theorem selectLoader_of_calls {loaders : List ModuleLoader} {calls : List (ModuleLoader × Word)}
    {selected : Option (ModuleLoader × Word)} (made : LoadCalls fns modHome id ctx calls ctx')
    (inOrder : CallsInOrder loaders calls selected) :
    selectLoader fns modHome id loaders ctx = .ok selected ctx' := by
  induction loaders generalizing ctx calls with
  | nil =>
    have noCalls : calls = [] := by simpa using inOrder.order
    subst noCalls
    cases made
    obtain ⟨before, split, _⟩ := inOrder.refused
    have none : selected = none := by
      cases selected <;> simp at split ⊢
    rw [none]
    rfl
  | cons l rest ih =>
    rw [selectLoader]
    by_cases complete : l.Complete
    · rw [if_pos complete]
      cases made with
      | none =>
        -- all complete loaders would have been called
        obtain ⟨before, split, _⟩ := inOrder.refused
        have none : selected = none := by
          cases selected <;> simp at split ⊢
        have all := inOrder.exhausted none
        simp [complete] at all
      | @call _ _ l' hMod w reserved calls returned others =>
        have order : l' = l ∧ calls.map Prod.fst <+: rest.filter fun l => l.Complete := by
          simpa [complete, List.cons_prefix_cons] using inOrder.order
        obtain ⟨rfl, order⟩ := order
        rw [bind_ok (callLoadModule_eq_ok.mpr ⟨w, reserved, returned, rfl⟩)]
        obtain ⟨before, split, refused⟩ := inOrder.refused
        cases before with
        | nil =>
          -- the only call is that of the loader that accepted
          cases selected with
          | none => simp at split
          | some found =>
            simp only [Option.toList_some, List.nil_append, List.cons.injEq] at split
            obtain ⟨rfl, rfl⟩ := split
            cases others
            have accepted := inOrder.handle _ rfl
            simp only [accepted, if_false]
            rfl
        | cons first before =>
          rw [List.cons_append, List.cons.injEq] at split
          obtain ⟨rfl, split⟩ := split
          rw [List.forall_mem_cons] at refused
          have zero : hMod = 0 := refused.1
          rw [if_pos zero]
          refine ih others ⟨order, ⟨before, split, refused.2⟩, inOrder.handle, ?_⟩
          intro none
          simpa [complete] using inOrder.exhausted none
    · rw [if_neg complete]
      refine ih made ⟨?_, inOrder.refused, inOrder.handle, ?_⟩
      · simpa [complete] using inOrder.order
      · intro none
        simpa [complete] using inOrder.exhausted none

/-! ### The search over the slots -/

/-- A `load_module` may add loaders, but it leaves those that are filed as they are. -/
def LoaderFns.SpareLoaders (fns : LoaderFns H) : Prop :=
  ∀ fn udd modHome id w free hMod w' reserved,
    fns.loadModule fn udd modHome id w free = .returns hMod w' reserved →
      ∀ i l, Filed w i l → Filed w' i l

theorem readLoader_run {obj : Nat} {l : ModuleLoader} {rest : List JsVal}
    (stack : ctx.stack = .object obj :: rest) (holds : HoldsLoader (ctx.world.objects obj) l)
    (room : ctx.height + 8 ≤ ctx.reserve) :
    readLoader host ctx = .ok l.toLoaderPtrs { ctx with stack := rest } := by
  obtain ⟨_, reserve, w⟩ := ctx
  cases stack
  simp only [Ctx.height_mk, List.length_cons] at room
  -- six values on top of the loader, each found under its name
  rw [readLoader,
    bind_ok (getPropString_mk rfl holds.modExt (by simp; omega)),
    bind_ok (getPropString_mk rfl holds.loadModule (by simp; omega)),
    bind_ok (getPropString_mk rfl holds.getMethodsList (by simp; omega)),
    bind_ok (getPropString_mk rfl holds.getAttrsList (by simp; omega)),
    bind_ok (getPropString_mk rfl holds.finalizer (by simp; omega)),
    bind_ok (getPropString_mk rfl holds.udd (by simp; omega))]
  have popped : popN 7 (Ctx.mk (.pointer l.udd :: .pointer l.finalizer :: .pointer l.getAttrsList ::
      .pointer l.getMethodsList :: .pointer l.loadModule :: .string l.modExt :: .object obj :: rest)
      reserve w) = .ok () ⟨rest, reserve, w⟩ := by
    rw [popN_run, if_pos (by simp)]
    rfl
  simp only [bind_ok (getAt_run _)]
  exact bind_ok popped _

/-- From slot `i` on the slots hold these loaders. -/
def FiledFrom (w : World H) (i : Nat) (loaders : List ModuleLoader) : Prop :=
  ∀ k l, loaders[k]? = some l → Filed w (i + k) l

theorem tryLoaders_eq (spares : fns.SpareLoaders) {loaders : List ModuleLoader} {i : Nat}
    (filed : FiledFrom ctx.world i loaders) (room : ctx.height + 9 ≤ ctx.reserve) :
    tryLoaders host fns modHome id i loaders.length ctx =
      searchLoaders host fns modHome id loaders ctx := by
  -- over the list; a call of `load_module` in between changes the world, but no slot
  induction loaders generalizing ctx i with
  | nil => rfl
  | cons l rest ih =>
    obtain ⟨obj, c, own, notGlobal, old, holds⟩ := filed 0 l rfl
    have later : FiledFrom ctx.world (i + 1) rest := by
      intro k l' slot
      have := filed (k + 1) l' slot
      rwa [Nat.add_right_comm, Nat.add_assoc]
    have found : getGlobalString host (slotKey (i + 0)) ctx =
        .ok true (ctx.pushed (.object obj)) := by
      rw [getGlobalString_data own, if_pos (by omega)]
    have read : readLoader host (ctx.pushed (.object obj)) = .ok l.toLoaderPtrs ctx :=
      readLoader_run rfl holds (by simp; omega)
    change getGlobalString host (getNativeModNum (UInt64.ofNat i)) ctx = _ at found
    rw [List.length_cons, tryLoaders, bind_ok found]
    simp only [Bool.not_true, Bool.false_eq_true, if_false]
    rw [bind_ok read, searchLoaders, selectLoader]
    by_cases complete : l.Complete
    · obtain ⟨loads, lists⟩ := complete
      rw [if_neg (by simp [loads, lists]), if_pos ⟨loads, lists⟩]
      simp only [initNativeObj, if_pos loads, bind_run]
      cases called : callLoadModule fns l.loadModule l.udd modHome id ctx with
      | error e mid => rfl
      | ok hMod mid =>
        obtain ⟨_, _, got, ran⟩ := bind_eq_ok.mp called
        cases got
        obtain ⟨w, reserved, outcome, rfl⟩ := outcome_run_eq_ok.mp ran
        dsimp only
        by_cases refused : hMod = 0
        · have still : FiledFrom w (i + 1) rest :=
            fun k l' slot => spares _ _ _ _ _ _ _ _ _ outcome _ _ (later k l' slot)
          have more : ctx.height + 9 ≤ ctx.reserve + reserved := by omega
          simp only [refused, if_true]
          exact ih still more
        · simp only [refused, if_false]
          rw [bind_run, pure_run]
          dsimp only
          cases buildNativeObj host fns l.udd id hMod l.getMethodsList l.getAttrsList l.finalizer
            ⟨ctx.stack, ctx.reserve + reserved, w⟩ with
          | ok u built => rfl
          | error e built => rfl
    · rw [if_pos (by simpa [LoaderPtrs.Complete, or_iff_not_imp_left] using complete),
        if_neg complete]
      exact ih later room

/-- A frame of `loadNativeModule`, in a world with the registry of `w`: two strings, and the slots
Duktape reserves for every C function. -/
structure LoadFrame (w : World H) (frame : Ctx H) (modHome id : Bytes) : Prop where
  args : frame.stack = [.string id, .string modHome]
  reserved : frame.height + 64 ≤ frame.reserve
  count : frame.global.own nativeModCountKey = (w.objects globalId).own nativeModCountKey
  slots : ∀ i l, Filed w i l → Filed frame.world i l

def stringAddr (host : Host H) (frame : Ctx H) (s : Bytes) : Word :=
  host.address frame.world (.string s)

theorem getStringAt_run {i : Nat} {s : Bytes} (here : ctx.stack.reverse[i]? = some (.string s)) :
    getStringAt host i ctx = .ok (stringAddr host ctx s) ctx := by
  rw [getStringAt, bind_run, get_run]
  simp only [List.getD_eq_getElem?_getD, here, Option.getD_some]
  rfl

theorem getInt_count {n : Nat} {rest : List JsVal} (stack : ctx.stack = .number (Binary64.ofInt n) :: rest) :
    getInt ctx = .ok (Binary64.ofInt n).toModel.toInt32 ctx := by
  rw [getInt, bind_ok (getAt_run 0)]
  simp only [Ctx.get, stack, List.getD_cons_zero]
  rfl

theorem loadNativeModule_eq {w : World H} {loaders : List ModuleLoader} {modHome id : Bytes}
    (plain : PlainLoaders host w.heap) (registered : Registered w loaders)
    (small : loaders.length ≤ maxProperties) (spares : fns.SpareLoaders)
    (frame : LoadFrame w ctx modHome id) : loadNativeModule host fns ctx =
      searchLoaders host fns (stringAddr host ctx modHome) (stringAddr host ctx id) loaders ctx := by
  have room := frame.reserved
  have first : getStringAt host 0 ctx = .ok (stringAddr host ctx modHome) ctx :=
    getStringAt_run (by rw [frame.args]; rfl)
  have second : getStringAt host 1 ctx = .ok (stringAddr host ctx id) ctx :=
    getStringAt_run (by rw [frame.args]; rfl)
  have global : pushGlobalObject ctx = .ok () (ctx.pushed (.object globalId)) :=
    push_eq_ok.mpr ⟨by omega, rfl⟩
  have emptied : ∀ v, popN 2 ((ctx.pushed (.object globalId)).pushed v) = .ok () ctx := by
    intro v
    rw [popN_run, if_pos (by simp)]
    rfl
  have count := registered.count
  rw [loadNativeModule, bind_ok first, bind_ok second, bind_ok global]
  -- without a count nothing is searched
  cases loaders with
  | nil =>
    have absent : ctx.global.own nativeModCountKey = none := frame.count.trans count
    have read : getPropString host 0 nativeModCountKey (ctx.pushed (.object globalId)) = _ :=
      getPropString_missing (Reads.inherited absent (plain.reads _ _))
    rw [if_pos (by simp; omega)] at read
    rw [bind_ok read]
    exact bind_ok (emptied _) _
  | cons l rest =>
    obtain ⟨configurable, own⟩ := count
    have read : getPropString host 0 nativeModCountKey (ctx.pushed (.object globalId)) = _ :=
      getPropString_found (Reads.own (frame.count.trans own))
    rw [if_pos (by simp; omega)] at read
    rw [bind_ok read]
    have counted : getInt ((ctx.pushed (.object globalId)).pushed
        (.number (Binary64.ofInt (rest.length + 1)))) = .ok _ _ :=
      getInt_count (n := rest.length + 1) rfl
    simp only [Bool.not_true, Bool.false_eq_true, if_false]
    have total : rest.length + 1 ≤ maxProperties + 1 := Nat.le_succ_of_le small
    rw [bind_ok counted, bind_ok (emptied _), toInt32_count total]
    have filed : FiledFrom ctx.world 0 (l :: rest) := by
      intro k l' slot
      rw [Nat.zero_add]
      exact frame.slots k l' (registered.slots k l' slot)
    exact tryLoaders_eq spares filed (by omega)

/-! ### The object of the loader that accepted -/

/-- What `duk_get_string` finds for the module name `id` that a finalizer was given. -/
def unloadName (host : Host H) (w : World H) (id : Word) : Word :=
  if id = 0 then 0
  else host.address w (.string (host.mem.zstring id (maxStringLen + 1)))

/-- A new object on top of the stack; if the loader has a finalizer, the object's finalizer calls it
with the loader's `udd` and the handle. -/
structure MadeFor (host : Host H) (l : ModuleLoader) (id hMod : Word) (before made : Ctx H) :
    Prop where
  stack : made.stack = .object before.world.nextId :: before.stack
  others : ∀ i < before.world.nextId, made.world.objects i = before.world.objects i
  unfinalized : l.finalizer = 0 →
    (made.world.objects before.world.nextId).own finalizerKey = none
  finalized : l.finalizer ≠ 0 → ∃ f,
    Has (made.world.objects before.world.nextId) finalizerKey (.object f) ∧
    (made.world.objects f).native = some (.unloadNativeObj, 0) ∧
    ∀ ctx : Ctx H, ctx.world.objects f = made.world.objects f → ctx.height + 8 ≤ ctx.reserve →
      unloadNativeObj host (.object f) ctx =
        .ok ⟨l.finalizer, l.udd, unloadName host ctx.world id, hMod⟩ ctx

/-- The object gets what the loader's own lists hold for its `udd` and the handle: its methods, and
its attributes if it has a list of these. -/
inductive Initialised (host : Host H) (fns : LoaderFns H) (l : ModuleLoader) (id hMod : Word)
    (before : Ctx H) : Ctx H → Prop where
  | intro {made listed added after : Ctx H} {methods : List ModuleMethod}
      (object : PlainUnloader host before.world.heap → MadeFor host l id hMod before made)
      (methodsList : fns.getMethodsList l.getMethodsList l.udd id hMod made = .ok methods listed)
      (methodsAdded : HiddenWrites host →
        PlainTop host listed (methods.map ModuleMethod.name) → added.stack = listed.stack ∧
          Lands ModuleMethod.name HasMethod methods (listed.get 0) listed.world added.world)
      (noAttrs : l.getAttrsList = 0 → after = added)
      (attrsAdded : l.getAttrsList ≠ 0 → ∃ attrs filled,
        fns.getAttrsList l.getAttrsList l.udd id hMod added = .ok attrs filled ∧
        (DecodesAfresh host → (∀ attr ∈ attrs, attr.fmt ≠ .ecmafunc) →
          PlainTop host filled (attrs.map ModuleAttr.name) → after.stack = filled.stack ∧
            Lands ModuleAttr.name (HasAttr host) attrs (filled.get 0) filled.world after.world)) :
      Initialised host fns l id hMod before after

theorem madeFor_of_ok {l : ModuleLoader} {hMod : Word} {made : Ctx H}
    (plain : PlainUnloader host ctx.world.heap)
    (returned : (do
      pushObject
      if l.finalizer ≠ 0 then
        setUnloader host l.udd id hMod l.finalizer : Duk H Unit) ctx = .ok () made) :
    MadeFor host l id hMod ctx made := by
  obtain ⟨_, obj, pushed, finalizing⟩ := bind_eq_ok.mp returned
  obtain rfl := pushNew_ok pushed
  by_cases none : l.finalizer = 0
  · simp only [none, ne_eq, not_true_eq_false, if_false] at finalizing
    cases finalizing
    constructor
    · rfl
    · intro i old
      simp [World.setObject, Nat.ne_of_lt old]
    · intro
      simp [World.setObject]
    · intro some
      exact absurd none some
  · rw [if_pos none] at finalizing
    have ok := setUnloader_ok (by exact plain) rfl (Nat.lt_succ_self _) finalizing
    obtain ⟨c, c₁, c₂, c₃, c₄, rfl⟩ := setUnloader_inv (by exact plain) rfl finalizing
    obtain ⟨_, finalizes, holds⟩ := ok
    constructor
    · rfl
    · intro i old
      have notFunc : i ≠ ctx.world.nextId + 1 := by omega
      have notObj : i ≠ ctx.world.nextId := by omega
      refine (Function.update_of_ne notObj _ _).trans ?_
      exact (withUnloaderFunc_old (by exact notFunc)).trans (Function.update_of_ne notObj _ _)
    · intro zero
      exact absurd zero none
    · intro
      refine ⟨_, finalizes, ?_, ?_⟩
      · refine setOwn_native ?_ _ _ _
        simp [withUnloaderFunc, World.setOwn, World.setObject]
      · intro later same room
        have held : HoldsUnloader (later.world.objects (ctx.world.nextId + 1))
            ⟨l.finalizer, l.udd, unloadName host later.world id, hMod⟩
            (if id = 0 then Option.none else some (host.mem.zstring id (maxStringLen + 1))) := by
          rw [same]
          exact holds _
        refine unloadNativeObj_run held ?_ room
        rw [unloadName]
        split <;> rfl

theorem initialised_of_ok {l : ModuleLoader} {hMod : Word} (complete : l.Complete)
    (built : buildNativeObj host fns l.udd id hMod l.getMethodsList l.getAttrsList l.finalizer ctx =
      .ok () ctx') : Initialised host fns l id hMod ctx ctx' := by
  have stages : buildNativeObj host fns l.udd id hMod l.getMethodsList l.getAttrsList l.finalizer =
      (do
        pushObject
        if l.finalizer ≠ 0 then
          setUnloader host l.udd id hMod l.finalizer : Duk H Unit) >>= fun _ => (do
        addMethods host (← fns.getMethodsList l.getMethodsList l.udd id hMod)
        if l.getAttrsList ≠ 0 then
          addAttrs host (← fns.getAttrsList l.getAttrsList l.udd id hMod)) := by
    rw [buildNativeObj]
    by_cases none : l.finalizer = 0 <;> simp [none, complete.2]
  rw [stages] at built
  obtain ⟨_, made, object, rest⟩ := bind_eq_ok.mp built
  obtain ⟨methods, listed, methodsList, rest⟩ := bind_eq_ok.mp rest
  obtain ⟨_, added, methodsAdded, rest⟩ := bind_eq_ok.mp rest
  refine .intro (fun plain => madeFor_of_ok plain object) methodsList
    (fun hidden top => addMethods_lands hidden top methodsAdded) ?_ ?_
  · intro none
    simp only [none, ne_eq, not_true_eq_false, if_false] at rest
    cases rest
    rfl
  · intro some
    rw [if_pos some] at rest
    obtain ⟨attrs, filled, attrsList, attrsAdded⟩ := bind_eq_ok.mp rest
    exact ⟨attrs, filled, attrsList,
      fun decodes noFunction top => addAttrs_lands decodes noFunction top attrsAdded⟩

/-- The calls in registration order up to the first handle, and for this handle an object by the
same loader, or undefined where there is none. -/
def SearchedInOrder (host : Host H) (fns : LoaderFns H) (modHome id : Word)
    (loaders : List ModuleLoader) (frame frame' : Ctx H) : Prop :=
  ∃ calls selected mid, LoadCalls fns modHome id frame calls mid ∧
    CallsInOrder loaders calls selected ∧
    match selected with
    | some (l, hMod) => Initialised host fns l id hMod mid frame'
    | none => frame' = mid.pushed .undefined

theorem CallsInOrder.complete {loaders : List ModuleLoader} {calls : List (ModuleLoader × Word)}
    {l : ModuleLoader} {hMod : Word} (inOrder : CallsInOrder loaders calls (some (l, hMod))) :
    l.Complete := by
  obtain ⟨before, rfl, _⟩ := inOrder.refused
  have member : l ∈ loaders.filter fun l => l.Complete :=
    inOrder.order.subset (by simp)
  simpa using (List.mem_filter.mp member).2

theorem searchedInOrder_of_ok {loaders : List ModuleLoader}
    (returned : searchLoaders host fns modHome id loaders ctx = .ok () ctx') :
    SearchedInOrder host fns modHome id loaders ctx ctx' := by
  obtain ⟨selected, mid, chosen, built⟩ := bind_eq_ok.mp returned
  obtain ⟨calls, made, inOrder⟩ := selectLoader_ok chosen
  refine ⟨calls, selected, mid, made, inOrder, ?_⟩
  cases selected with
  | some found => exact initialised_of_ok inOrder.complete built
  | none => exact (push_eq_ok.mp built).2

theorem LoadCalls.room {calls : List (ModuleLoader × Word)}
    (made : LoadCalls fns modHome id ctx calls ctx') :
    ctx'.height = ctx.height ∧ ctx.reserve ≤ ctx'.reserve := by
  induction made with
  | none => exact ⟨rfl, Nat.le_refl _⟩
  | call returned rest ih => exact ⟨ih.1, (Nat.le_add_right _ _).trans ih.2⟩

/-- Any number of loaders is kept in its order. `loadNativeModule` asks them in that order; what it
returns comes from the loader that accepted, and it returns undefined if all of them refuse. -/
theorem loaders_kept_and_searched {loaders : List ModuleLoader}
    (plain : PlainLoaders host ctx.world.heap) (fresh : Registered ctx.world [])
    (run : Registrations host ctx loaders ctx') (spares : fns.SpareLoaders) :
    Registered ctx'.world loaders ∧
      ∀ frame modHome id, LoadFrame ctx'.world frame modHome id →
        (∀ frame', loadNativeModule host fns frame = .ok () frame' →
          SearchedInOrder host fns (stringAddr host frame modHome) (stringAddr host frame id)
            loaders frame frame') ∧
        ∀ calls mid, LoadCalls fns (stringAddr host frame modHome) (stringAddr host frame id) frame
            calls mid → CallsInOrder loaders calls none →
          loadNativeModule host fns frame = .ok () (mid.pushed .undefined) := by
  obtain ⟨registered, small, heap⟩ := registered_run plain fresh run
  refine ⟨registered, ?_⟩
  intro frame modHome id inFrame
  have same := loadNativeModule_eq (heap ▸ plain) registered small spares inFrame
  rw [same]
  refine ⟨fun frame' => searchedInOrder_of_ok, ?_⟩
  intro calls mid made allRefuse
  have room := inFrame.reserved
  obtain ⟨height, reserve⟩ := made.room
  rw [searchLoaders, bind_ok (selectLoader_of_calls made allRefuse)]
  exact push_eq_ok.mpr ⟨by omega, rfl⟩

/-! ### One loader -/

/-- It has no finalizer. -/
def testLoader : ModuleLoader := ⟨⟨1, 2, 3, 4, 0⟩, ascii ".test"⟩

/-- Every module is known, under the handle 7, and has neither methods nor attributes. -/
def testFns : LoaderFns Unit where
  loadModule _ _ _ _ w _ := .returns 7 w 0
  getMethodsList _ _ _ _ := return []
  getAttrsList _ _ _ _ := return []

theorem loaders_kept_and_searched_test : ∃ ctx',
    Registrations stillHost freshEnvironment [testLoader] ctx' ∧ Registered ctx'.world [testLoader] ∧
      ∃ frame frame', LoadFrame ctx'.world frame (ascii "modules/") (ascii "m") ∧
        loadNativeModule stillHost testFns frame = .ok () frame' ∧
        SearchedInOrder stillHost testFns 4096 4096 [testLoader] frame frame' := by
  have plain : PlainLoaders stillHost () :=
    ⟨fun _ _ => rfl, fun _ _ _ => rfl, fun _ _ _ _ => rfl, fun _ _ _ _ _ _ _ => rfl⟩
  have fresh : Registered freshEnvironment.world [] :=
    ⟨rfl, (fun _ _ slot => by cases slot), by decide⟩
  have spares : testFns.SpareLoaders := by
    intro fn udd modHome id w free hMod w' reserved outcome i l filed
    cases outcome
    exact filed
  obtain ⟨ctx', ran⟩ : ∃ ctx', jsAddModuleLoader stillHost 1 (ascii ".test") 2 3 4 0
      freshEnvironment = .ok () ctx' := ⟨_, rfl⟩
  have run : Registrations stillHost freshEnvironment [testLoader] ctx' := by
    refine .add (.start : Registrations stillHost freshEnvironment [] _) ran ?_
    obtain ⟨_, at_0⟩ :=
      jsAddModuleLoader_ok (l := testLoader) plain fresh (Nat.zero_le _) ran
    obtain ⟨c, c', written⟩ := at_0.own
    intro keys distinct own
    -- no property but the count and the slot
    have two : keys ⊆ [nativeModCountKey, slotKey 0] := by
      intro key member
      have held := own key member
      by_contra other
      simp only [List.mem_cons, List.not_mem_nil, or_false, not_or] at other
      rw [Ctx.global, written, List.length_nil, Function.update_of_ne other.2,
        Function.update_of_ne other.1] at held
      cases held
    have length_le := (List.subperm_of_subset distinct two).length_le
    exact Nat.le_trans length_le (by unfold maxProperties; simp)
  have searched := loaders_kept_and_searched plain fresh run spares
  have frame : LoadFrame ctx'.world ⟨[.string (ascii "m"), .string (ascii "modules/")], 66, ctx'.world⟩
      (ascii "modules/") (ascii "m") := ⟨rfl, Nat.le_refl 66, rfl, fun _ _ filed => filed⟩
  obtain ⟨frame', made⟩ : ∃ frame', searchLoaders stillHost testFns 4096 4096 [testLoader]
      ⟨[.string (ascii "m"), .string (ascii "modules/")], 66, ctx'.world⟩ = .ok () frame' := ⟨_, rfl⟩
  have returned := (loadNativeModule_eq plain searched.1 (by unfold maxProperties; simp) spares
    frame).trans made
  exact ⟨ctx', run, searched.1, _, frame', frame, returned, (searched.2 _ _ _ frame).1 _ returned⟩

end DukBridge
