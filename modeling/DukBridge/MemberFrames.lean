import DukBridge.NativeObjects

/-!
# What adding members to an object leaves alone

The members go to the object on top of the stack: no other object that was there before changes,
and of this one nothing but the properties under the names of the members.
-/
namespace DukBridge

open Effect

variable {H : Type} {host : Host H} {ctx ctx' : Ctx H} {w w' w'' : World H}

/-! ### Worlds that differ in one object -/

/-- Of the objects of `w` only `id` has changed, and of its properties only these. -/
structure Touches (id : Nat) (names : List Bytes) (w w' : World H) : Prop where
  grows : w.nextId ≤ w'.nextId
  others : ∀ i < w.nextId, i ≠ id → w'.objects i = w.objects i
  own : ∀ key, key ∉ names → (w'.objects id).own key = (w.objects id).own key

theorem touches_refl (id : Nat) (names : List Bytes) (w : World H) : Touches id names w w :=
  ⟨Nat.le_refl _, fun _ _ _ => rfl, fun _ _ => rfl⟩

theorem Touches.trans {id : Nat} {first second : List Bytes} (one : Touches id first w w')
    (two : Touches id second w' w'') : Touches id (first ++ second) w w'' := by
  constructor
  · exact one.grows.trans two.grows
  · intro i old other
    rw [two.others i (old.trans_le one.grows) other, one.others i old other]
  · intro key fresh
    rw [List.mem_append, not_or] at fresh
    rw [two.own key fresh.2, one.own key fresh.1]

theorem Touches.mono {id : Nat} {names more : List Bytes} (touches : Touches id names w w')
    (sub : ∀ key ∈ names, key ∈ more) : Touches id more w w' :=
  ⟨touches.grows, touches.others, fun key fresh => touches.own key (mt (sub key) fresh)⟩

theorem touches_setOwn (w : World H) (id : Nat) (key : Bytes) (slot : Option PropSlot) :
    Touches id [key] w (w.setOwn id key slot) := by
  constructor
  · exact Nat.le_refl _
  · intro i _ other
    simp [World.setOwn, World.setObject, other]
  · intro other fresh
    rw [List.mem_singleton] at fresh
    simp [World.setOwn, World.setObject, fresh]

theorem Touches.then_setOwn {id : Nat} (touches : Touches id [] w w') (key : Bytes)
    (slot : Option PropSlot) : Touches id [key] w (w'.setOwn id key slot) :=
  touches.trans (touches_setOwn w' id key slot)

/-- Objects made meanwhile are not among those that were there. -/
theorem touches_setOwn_new {id new : Nat} (old : id < w.nextId) (made : w.nextId ≤ new)
    (grown : Touches id [] w w') (key : Bytes) (slot : Option PropSlot) :
    Touches id [] w (w'.setOwn new key slot) := by
  have apart : ∀ i < w.nextId, i ≠ new := by
    intro i before same
    omega
  constructor
  · exact grown.grows
  · intro i before other
    rw [← grown.others i before other]
    simp [World.setOwn, World.setObject, apart i before]
  · intro name fresh
    rw [← grown.own name fresh]
    simp [World.setOwn, World.setObject, apart id old]

theorem touches_allocation {id : Nat} (old : id < w.nextId) (o : ObjectRec) :
    Touches id [] w { w.setObject w.nextId o with nextId := w.nextId + 1 } := by
  have apart : ∀ i < w.nextId, i ≠ w.nextId := fun i before same => by omega
  constructor
  · exact Nat.le_succ _
  · intro i before _
    simp [World.setObject, apart i before]
  · intro name _
    simp [World.setObject, apart id old]

theorem Has.touches {obj id : Nat} {names : List Bytes} {key : Bytes} {v : JsVal}
    (has : Has (w.objects obj) key v) (touches : Touches id names w w') (old : obj < w.nextId)
    (kept : obj = id → key ∉ names) : Has (w'.objects obj) key v := by
  obtain ⟨writable, configurable, own⟩ := has
  refine ⟨writable, configurable, ?_⟩
  by_cases same : obj = id
  · subst same
    rw [touches.own key (kept rfl), own]
  · rw [touches.others obj old same, own]

theorem HasMethod.touches {obj : Nat} {names : List Bytes} {method : ModuleMethod}
    (has : HasMethod w obj method) (touches : Touches obj names w w') (old : obj < w.nextId)
    (kept : method.name ∉ names) : HasMethod w' obj method := by
  obtain ⟨f, notObj, made, property, isMethod⟩ := has
  have same := touches.others f made notObj
  refine ⟨f, notObj, made.trans_le touches.grows, property.touches touches old fun _ => kept, ?_⟩
  constructor
  · rw [same]
    exact isMethod.native
  · rw [same]
    exact isMethod.nativeFunc
  · rw [same]
    exact isMethod.udd

/-! ### Methods -/

/-- A method goes to the object on top of the stack, and there is one. -/
theorem jsAddModuleMethod_touches {method : ModuleMethod} (hidden : HiddenWrites host)
    (plain : ∀ id, ctx.get 0 = .object id → ∀ w free v,
      host.writeThrough w free id method.name v = none)
    (old : ∀ id, ctx.get 0 = .object id → id < ctx.world.nextId)
    (returned : jsAddModuleMethod host method ctx = .ok () ctx') :
    ∃ id, ctx.get 0 = .object id ∧ ctx'.stack = ctx.stack ∧
      Touches id [method.name] ctx.world ctx'.world ∧ HasMethod ctx'.world id method := by
  have named : ∀ id, ctx.get 0 = .object id → PlainNames host ctx.world.heap id [method.name] := by
    intro id top w free v _ name member
    rw [List.mem_singleton.mp member]
    exact plain id top w free v
  obtain ⟨id, rest, c, c', c'', stack, rfl⟩ := jsAddModuleMethod_inv hidden named returned
  have top : ctx.get 0 = .object id := by rw [Ctx.get, stack]; rfl
  have before := old id top
  obtain ⟨_, _, _, has, _⟩ := jsAddModuleMethod_ok hidden (named id top) stack before returned
  refine ⟨id, top, rfl, ?_, has⟩
  -- the function is new, and so are the two writes to it
  apply Touches.then_setOwn
  apply touches_setOwn_new before (Nat.le_refl _)
  apply touches_setOwn_new before (Nat.le_refl _)
  exact touches_allocation before _

/-! ### Attributes -/

/-- Decoding a text makes new objects and changes none. -/
def DecodesAfresh (host : Host H) : Prop :=
  ∀ w free text v w' reserved, host.jsonDecode w free text = .returns v w' reserved →
    w.nextId ≤ w'.nextId ∧ ∀ i < w.nextId, w'.objects i = w.objects i

/-- A value that the switch of `js_add_module_attr` pushes. -/
def IsAttrValue (host : Host H) (attr : ModuleAttr) (v : JsVal) : Prop :=
  ∃ ctx ctx' : Ctx H, pushAttr host attr ctx = .ok () ctx' ∧ ctx'.stack = v :: ctx.stack

def HasAttr (host : Host H) (w : World H) (obj : Nat) (attr : ModuleAttr) : Prop :=
  ∃ v, Has (w.objects obj) attr.name v ∧ IsAttrValue host attr v

/-- One value comes on top, and of the objects there were none has changed. -/
structure PushesOne (ctx ctx' : Ctx H) : Prop where
  stack : ∃ v, ctx'.stack = v :: ctx.stack
  spares : ∀ id < ctx.world.nextId, Touches id [] ctx.world ctx'.world

theorem pushesOne_pushed (ctx : Ctx H) (v : JsVal) : PushesOne ctx (ctx.pushed v) :=
  ⟨⟨v, rfl⟩, fun id _ => touches_refl id [] _⟩

theorem pushesOne_json {addr len : Word} (decodes : DecodesAfresh host)
    (returned : pushJson host addr len ctx = .ok () ctx') : PushesOne ctx ctx' := by
  obtain ⟨_, _, v, w, reserved, decoded, rfl⟩ := pushJson_eq_ok.mp returned
  obtain ⟨grows, same⟩ := decodes _ _ _ _ _ _ decoded
  refine ⟨⟨v, rfl⟩, fun id old => ⟨grows, fun i before _ => same i before, fun key _ => ?_⟩⟩
  rw [same id old]

theorem pushAttr_pushesOne {attr : ModuleAttr} (decodes : DecodesAfresh host)
    (noFunction : attr.fmt ≠ .ecmafunc) (returned : pushAttr host attr ctx = .ok () ctx') :
    PushesOne ctx ctx' := by
  unfold pushAttr at returned
  cases fmt : attr.fmt with
  | ecmafunc => exact absurd fmt noFunction
  | none | bool | int | double =>
    rw [fmt] at returned
    obtain ⟨_, rfl⟩ := push_eq_ok.mp returned
    exact pushesOne_pushed ctx _
  | zstring =>
    rw [fmt] at returned
    obtain rfl := pushString_ok returned
    exact pushesOne_pushed ctx _
  | lstring =>
    rw [fmt] at returned
    obtain ⟨_, _, rfl⟩ := pushLstring_eq_ok.mp returned
    exact pushesOne_pushed ctx _
  | buffer =>
    rw [fmt] at returned
    obtain ⟨_, _, _, _, rfl⟩ := pushNodeBuffer_eq_ok.mp returned
    exact ⟨⟨_, rfl⟩, fun id old => touches_allocation old _⟩
  | jarray | jobject | error | mobject =>
    rw [fmt] at returned
    exact pushesOne_json decodes returned

/-- An attribute goes to the object on top of the stack, and there is one. -/
theorem jsAddModuleAttr_touches {attr : ModuleAttr} (decodes : DecodesAfresh host)
    (noFunction : attr.fmt ≠ .ecmafunc)
    (plain : ∀ id, ctx.get 0 = .object id → ∀ w free v,
      host.writeThrough w free id attr.name v = none)
    (old : ∀ id, ctx.get 0 = .object id → id < ctx.world.nextId)
    (returned : jsAddModuleAttr host attr ctx = .ok () ctx') :
    ∃ id, ctx.get 0 = .object id ∧ ctx'.stack = ctx.stack ∧
      Touches id [attr.name] ctx.world ctx'.world ∧ HasAttr host ctx'.world id attr := by
  obtain ⟨_, mid, pushed, put⟩ := bind_eq_ok.mp returned
  obtain ⟨⟨v, above⟩, spares⟩ := pushAttr_pushesOne decodes noFunction pushed
  have target : mid.get 1 = ctx.get 0 := by simp [Ctx.get, above]
  obtain ⟨_, _, room, writing⟩ := bind_eq_ok.mp put
  obtain ⟨_, held⟩ := requireRoom_eq_ok.mp room
  rw [held, bind_ok (getAt_run 1), bind_ok (getAt_run 0), target] at writing
  obtain ⟨_, _, write, _⟩ := bind_eq_ok.mp writing
  obtain ⟨id, top⟩ := writeProp_object write
  obtain ⟨rest, stack⟩ := stack_of_top top
  rw [stack] at above
  obtain ⟨c, _, rfl⟩ := putPropString_ok above (plain id top _ _ _) put
  refine ⟨id, top, stack.symm, (spares id (old id top)).then_setOwn attr.name _, v,
    has_setOwn_self .., ctx, mid, pushed, ?_⟩
  rw [above, stack]

theorem HasAttr.touches {obj : Nat} {names : List Bytes} {attr : ModuleAttr}
    (has : HasAttr host w obj attr) (touches : Touches obj names w w') (old : obj < w.nextId)
    (kept : attr.name ∉ names) : HasAttr host w' obj attr := by
  obtain ⟨v, property, value⟩ := has
  exact ⟨v, property.touches touches old fun _ => kept, value⟩

/-! ### Lists of members -/

/-- No members are added, or there is an object and all of them are added to it. -/
def Lands {α : Type} (name : α → Bytes) (HasMember : World H → Nat → α → Prop) (members : List α)
    (top : JsVal) (w w' : World H) : Prop :=
  (members = [] ∧ w' = w) ∨ members ≠ [] ∧ ∃ id, top = .object id ∧
    Touches id (members.map name) w w' ∧
      ((members.map name).Nodup → ∀ a ∈ members, HasMember w' id a)

theorem Lands.grows {α : Type} {name : α → Bytes} {HasMember : World H → Nat → α → Prop}
    {members : List α} {top : JsVal} (lands : Lands name HasMember members top w w') :
    w.nextId ≤ w'.nextId := by
  rcases lands with ⟨_, rfl⟩ | ⟨_, _, _, touches, _⟩
  · exact Nat.le_refl _
  · exact touches.grows

/-- The object on top of the stack, if it is one, is not new and takes these properties. -/
structure PlainTop (host : Host H) (ctx : Ctx H) (names : List Bytes) : Prop where
  old : ∀ id, ctx.get 0 = .object id → id < ctx.world.nextId
  plain : ∀ id, ctx.get 0 = .object id → ∀ name ∈ names, ∀ w free v,
    host.writeThrough w free id name v = none

/-- What holds of one member holds of a list that is added one by one. -/
theorem lands_all {α : Type} (name : α → Bytes) {HasMember : World H → Nat → α → Prop}
    {add : α → Duk H Unit} {addAll : List α → Duk H Unit} (nil : addAll [] = pure ())
    (cons : ∀ a rest, addAll (a :: rest) = add a >>= fun _ => addAll rest)
    (persists : ∀ w w' obj names a, HasMember w obj a → Touches obj names w w' →
      obj < w.nextId → name a ∉ names → HasMember w' obj a)
    {members : List α} (one : ∀ a ∈ members, ∀ {ctx ctx' : Ctx H}, PlainTop host ctx [name a] →
      add a ctx = .ok () ctx' → ∃ id, ctx.get 0 = .object id ∧ ctx'.stack = ctx.stack ∧
        Touches id [name a] ctx.world ctx'.world ∧ HasMember ctx'.world id a)
    (top : PlainTop host ctx (members.map name)) (returned : addAll members ctx = .ok () ctx') :
    ctx'.stack = ctx.stack ∧ Lands name HasMember members (ctx.get 0) ctx.world ctx'.world := by
  induction members generalizing ctx with
  | nil =>
    rw [nil] at returned
    cases returned
    exact ⟨rfl, .inl ⟨rfl, rfl⟩⟩
  | cons a rest ih =>
    rw [cons] at returned
    rw [List.forall_mem_cons] at one
    obtain ⟨_, mid, added, others⟩ := bind_eq_ok.mp returned
    obtain ⟨id, here, kept, first, has⟩ :=
      one.1 ⟨top.old, fun id same key member => top.plain id same key (by simp_all)⟩ added
    have same : mid.get 0 = ctx.get 0 := by rw [Ctx.get, kept, Ctx.get]
    have old := (top.old id here).trans_le first.grows
    have later : PlainTop host mid (rest.map name) := by
      constructor
      · intro other own
        rw [same, here, JsVal.object.injEq] at own
        exact own ▸ old
      · intro other own key member
        exact top.plain other (same ▸ own) key (List.mem_cons_of_mem _ member)
    obtain ⟨stack, lands⟩ := ih one.2 later others
    refine ⟨stack.trans kept, .inr ⟨List.cons_ne_nil _ _, id, here, ?_⟩⟩
    rcases lands with ⟨rfl, same⟩ | ⟨_, other, own, touches, all⟩
    · rw [same]
      exact ⟨first, fun _ => by simpa using has⟩
    · rw [same, here, JsVal.object.injEq] at own
      subst own
      refine ⟨first.trans touches, ?_⟩
      intro distinct
      obtain ⟨fresh, distinct⟩ := List.nodup_cons.mp distinct
      -- the later members have other names
      exact List.forall_mem_cons.mpr ⟨persists _ _ _ _ _ has touches old fresh, all distinct⟩

theorem addMethods_lands {methods : List ModuleMethod} (hidden : HiddenWrites host)
    (top : PlainTop host ctx (methods.map ModuleMethod.name))
    (returned : addMethods host methods ctx = .ok () ctx') :
    ctx'.stack = ctx.stack ∧
      Lands ModuleMethod.name HasMethod methods (ctx.get 0) ctx.world ctx'.world := by
  refine lands_all ModuleMethod.name rfl (fun _ _ => rfl)
    (fun _ _ _ _ _ => HasMethod.touches) ?_ top returned
  intro method _ ctx ctx' top added
  exact jsAddModuleMethod_touches hidden (fun id same => top.plain id same _ (by simp)) top.old added

theorem addAttrs_lands {attrs : List ModuleAttr} (decodes : DecodesAfresh host)
    (noFunction : ∀ attr ∈ attrs, attr.fmt ≠ .ecmafunc)
    (top : PlainTop host ctx (attrs.map ModuleAttr.name))
    (returned : addAttrs host attrs ctx = .ok () ctx') :
    ctx'.stack = ctx.stack ∧
      Lands ModuleAttr.name (HasAttr host) attrs (ctx.get 0) ctx.world ctx'.world := by
  refine lands_all ModuleAttr.name rfl (fun _ _ => rfl)
    (fun _ _ _ _ _ => HasAttr.touches) ?_ top returned
  intro attr member ctx ctx' top added
  exact jsAddModuleAttr_touches decodes (noFunction attr member)
    (fun id same => top.plain id same _ (by simp)) top.old added

/-! ### The finalizer -/

/-- The finalizer is the one property of the object that is written. -/
theorem setUnloader_touches {udd id hMod finalizer : Word} {obj : Nat} {rest : List JsVal}
    (plain : PlainUnloader host ctx.world.heap) (stack : ctx.stack = .object obj :: rest)
    (old : obj < ctx.world.nextId)
    (returned : setUnloader host udd id hMod finalizer ctx = .ok () ctx') :
    ctx'.stack = ctx.stack ∧ ctx'.world.heap = ctx.world.heap ∧
      Touches obj [finalizerKey] ctx.world ctx'.world := by
  obtain ⟨c, c₁, c₂, c₃, c₄, rfl⟩ := setUnloader_inv plain stack returned
  refine ⟨rfl, rfl, ?_⟩
  -- the other writes are to the new function
  apply Touches.then_setOwn
  apply touches_setOwn_new old (Nat.le_refl _)
  apply touches_setOwn_new old (Nat.le_refl _)
  apply touches_setOwn_new old (Nat.le_refl _)
  apply touches_setOwn_new old (Nat.le_refl _)
  exact touches_allocation old _

end DukBridge
