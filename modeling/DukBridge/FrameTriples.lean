import DukBridge.ModuleRequire
import DukBridge.WorldFrames

/-!
# Calls of the API in a frame whose slots are known

A C function starts with its arguments and 64 free slots, and what it pushes is known. One triple
for each call says what the slots are afterwards, while the world stays within a relation the host
respects.
-/
namespace DukBridge

open Effect

variable {H α β : Type}

/-- The frame of a C function with one argument. -/
def frameSize : Nat := 65

/-- The slots are these, top first, and the world is one that may be reached. -/
structure At (vals : List JsVal) (I : World H → Prop) (ctx : Ctx H) : Prop where
  stack : ctx.stack = vals
  room : frameSize ≤ ctx.reserve
  world : I ctx.world

/-- What is known after a throw is about the world. -/
abbrev OnWorld (F : Fault → World H → Prop) (e : Fault) (ctx : Ctx H) : Prop := F e ctx.world

variable {vals : List JsVal} {I : World H → Prop} {F : Fault → World H → Prop}

namespace At

variable {ctx : Ctx H}

theorem height (here : At vals I ctx) : ctx.height = vals.length := by
  rw [Ctx.height, here.stack]

theorem get (here : At vals I ctx) (i : Nat) : ctx.get i = vals.getD i .undefined := by
  rw [Ctx.get, here.stack]

theorem fits (here : At vals I ctx) {n : Nat} (fits : vals.length + n ≤ frameSize) :
    ctx.height + n ≤ ctx.reserve := by
  have := here.room
  rw [here.height]
  omega

theorem moved {J : World H → Prop} (here : At vals I ctx) {w : World H} (reached : J w)
    (vals' : List JsVal) (reserved : Nat) : At vals' J ⟨vals', ctx.reserve + reserved, w⟩ where
  stack := rfl
  room := Nat.le_add_right_of_le here.room
  world := reached

end At

/-! ### Slots -/

theorem meets_requireRoom {n : Nat} (fits : vals.length + n ≤ frameSize) :
    Meets (At vals I) (requireRoom n) (fun _ => At vals I) (OnWorld F) := by
  intro ctx here
  rw [requireRoom_run, if_pos (here.fits fits)]
  exact here

theorem meets_push {v : JsVal} (fits : vals.length + 1 ≤ frameSize) :
    Meets (At vals I) (push v) (fun _ => At (v :: vals) I) (OnWorld F) := by
  intro ctx here
  rw [push_run, if_pos (here.fits fits)]
  exact ⟨by rw [Ctx.pushed_stack, here.stack], here.room, here.world⟩

theorem meets_pushBytes {s : Bytes} (fits : vals.length + 1 ≤ frameSize)
    (short : s.length ≤ maxStringLen) :
    Meets (At vals I) (pushBytes s) (fun _ => At (.string s :: vals) I) (OnWorld F) := by
  apply (meets_requireRoom fits).bind
  intro _
  rw [if_pos short]
  exact meets_push fits

theorem meets_slot_bind {i : Nat} {f : JsVal → Duk H α} {Q : α → Ctx H → Prop}
    (rest : Meets (At vals I) (f (vals.reverse.getD i .undefined)) Q (OnWorld F)) :
    Meets (At vals I) (slot i >>= f) Q (OnWorld F) := by
  intro ctx here
  have read : slot i ctx = .ok (vals.reverse.getD i .undefined) ctx := by
    rw [← here.stack]
    rfl
  rw [bind_ok read]
  exact rest ctx here

theorem meets_getAt_bind {i : Nat} {f : JsVal → Duk H α} {Q : α → Ctx H → Prop}
    (rest : Meets (At vals I) (f (vals.getD i .undefined)) Q (OnWorld F)) :
    Meets (At vals I) (getAt i >>= f) Q (OnWorld F) := by
  intro ctx here
  rw [bind_ok (getAt_run i), here.get]
  exact rest ctx here

theorem meets_dup {i : Nat} (fits : vals.length + 1 ≤ frameSize) :
    Meets (At vals I) (dup i) (fun _ => At (vals.reverse.getD i .undefined :: vals) I)
      (OnWorld F) := meets_slot_bind (meets_push fits)

theorem meets_popN {n : Nat} (enough : n ≤ vals.length) :
    Meets (At vals I) (popN n) (fun _ => At (vals.drop n) I) (OnWorld F) := by
  intro ctx here
  rw [popN_run, if_pos (by rw [here.height]; exact enough)]
  exact ⟨by rw [here.stack], here.room, here.world⟩

theorem meets_setAt {i : Nat} {v : JsVal} :
    Meets (At vals I) (setAt i v) (fun _ => At (vals.set i v) I) (OnWorld F) := by
  intro ctx here
  exact ⟨by rw [← here.stack], here.room, here.world⟩

theorem meets_raise {e : DukError} {Q : α → Ctx H → Prop} (post : ∀ w, I w → F (.thrown e) w) :
    Meets (At vals I) (raise e) Q (OnWorld F) := fun ctx here => post ctx.world here.world

/-- A program that leads to a world of its own is followed by one for each such world. -/
theorem bind_step {ι : Type} {P : Ctx H → Prop} {m : Duk H α} {Q : α → ι → World H → Prop}
    {vals' : ι → List JsVal} {J : World H → Prop} {f : α → Duk H β} {S : β → Ctx H → Prop}
    (first : Meets P m (fun a ctx => ∃ i, Q a i ctx.world ∧ At (vals' i) J ctx) (OnWorld F))
    (rest : ∀ a i w, Q a i w → J w → Meets (At (vals' i) (· = w)) (f a) S (OnWorld F)) :
    Meets P (m >>= f) S (OnWorld F) := by
  apply first.bind
  rintro a ctx ⟨i, post, there⟩
  exact rest a i ctx.world post there.world ctx ⟨there.stack, there.room, rfl⟩

/-! ### New objects and their properties -/

section Objects

variable {w : World H}

/-- The world with a new object. -/
def World.withNew (w : World H) (shape : ObjShape) (native : Option (CFunction × Int32)) : World H :=
  { w.setObject w.nextId ⟨shape, fun _ => none, true, native⟩ with nextId := w.nextId + 1 }

theorem withNew_objects_self (shape : ObjShape) (native : Option (CFunction × Int32)) :
    (w.withNew shape native).objects w.nextId = ⟨shape, fun _ => none, true, native⟩ := by
  simp [World.withNew, World.setObject]

theorem withNew_objects_old {id : Nat} (old : id < w.nextId) (shape : ObjShape)
    (native : Option (CFunction × Int32)) : (w.withNew shape native).objects id = w.objects id := by
  simp [World.withNew, World.setObject, Nat.ne_of_lt old]

theorem meets_pushNew {shape : ObjShape} {native : Option (CFunction × Int32)}
    (fits : vals.length + 1 ≤ frameSize) :
    Meets (At vals (· = w)) (pushNew shape native)
      (fun _ => At (.object w.nextId :: vals) (· = w.withNew shape native)) (OnWorld F) := by
  refine .get_bind fun ctx here => ?_
  obtain rfl := here.world
  rintro s rfl
  have pushed : push (.object s.world.nextId) s = .ok () (s.pushed (.object s.world.nextId)) := by
    rw [push_run, if_pos (here.fits fits)]
  rw [bind_ok pushed]
  exact ⟨congrArg (JsVal.object s.world.nextId :: ·) here.stack, here.room, rfl⟩

theorem defines_new {o : ObjectRec} {key : Bytes} {v : JsVal} (d : DefProp) (own : o.own key = none)
    (extensible : o.extensible = true) :
    o.defines key v d = some (.data v (d.writable.getD false) (d.configurable.getD false)) := by
  rw [ObjectRec.defines, own]
  exact if_pos (.inl extensible)

theorem defines_forced (o : ObjectRec) (key : Bytes) (v : JsVal) :
    ∃ wr c, o.defines key v { DefProp.haveValue with force := true } = some (.data v wr c) := by
  rw [ObjectRec.defines]
  cases o.own key with
  | none => exact ⟨_, _, if_pos (.inr rfl)⟩
  | some slot =>
    cases slot with
    | data old wr c => exact ⟨_, _, if_pos (.inr (.inl rfl))⟩
    | accessor c => exact ⟨_, _, if_pos (.inr rfl)⟩

theorem meets_defProp {i id : Nat} {key : Bytes} {v : JsVal} {d : DefProp} {new : PropSlot}
    (target : (v :: .string key :: vals).reverse.getD i .undefined = .object id)
    (defines : (w.objects id).defines key v d = some new) :
    Meets (At (v :: .string key :: vals) (· = w)) (defProp i d)
      (fun _ => At vals (· = w.setOwn id key (some new))) (OnWorld F) := by
  apply meets_slot_bind
  rw [target]
  apply meets_getAt_bind
  apply meets_getAt_bind
  refine .get_bind fun ctx here => ?_
  obtain rfl := here.world
  rintro s rfl
  have there : At (v :: .string key :: vals) (· = s.world.setOwn id key (some new))
      { s with world := s.world.setOwn id key (some new) } := ⟨here.stack, here.room, rfl⟩
  simp only [List.getD_cons_zero, List.getD_cons_succ, defines]
  exact meets_popN (Nat.le_add_left 2 _) _ there

theorem meets_defProp_fails {i : Nat} {v key : JsVal} {d : DefProp} {Q : Unit → Ctx H → Prop}
    (target : ∀ id, (v :: key :: vals).reverse.getD i .undefined ≠ .object id)
    (refused : ∀ w, I w → F (.thrown .typeError) w) :
    Meets (At (v :: key :: vals) I) (defProp i d) Q (OnWorld F) := by
  apply meets_slot_bind
  generalize (v :: key :: vals).reverse.getD i .undefined = found at target
  apply meets_getAt_bind
  apply meets_getAt_bind
  refine .get_bind fun ctx here => ?_
  have raises : Meets (· = ctx) (do raise .typeError; popN 2 : Duk H Unit) Q (OnWorld F) := by
    rintro _ rfl
    exact refused _ here.world
  cases found with
  | object id => exact absurd rfl (target id)
  | _ => exact raises

end Objects

/-! ### The host -/

section Host

variable {R : World H → World H → Prop} {host : Host H} {w : World H}

/-- What a computation of the host leaves of the frame. -/
theorem meets_run {outcome : Outcome H α} {ctx₀ : Ctx H} (here : At vals (· = w) ctx₀)
    (within : outcome.Within R w) (refl : R w w) :
    Meets (· = ctx₀) outcome.run (fun _ => At vals (R w)) (OnWorld fun _ => R w) := by
  rintro ctx rfl
  cases outcome with
  | returns a w' reserved =>
    have moved := here.moved (J := R w) within vals reserved
    exact ⟨here.stack, moved.room, moved.world⟩
  | throws e w' reserved => exact within
  | never => exact here.world ▸ refl

/-- How a protected computation ends, by its status. -/
def Protected (outcome : Outcome H JsVal) (rc : Int32) (v : JsVal) (w : World H) : Prop :=
  (rc = 0 ∧ ∃ reserved, outcome = .returns v w reserved) ∨
    (rc = 1 ∧ ∃ reserved, outcome = .throws v w reserved)

theorem meets_protect {outcome : Outcome H JsVal} {ctx₀ : Ctx H} (here : At vals (· = w) ctx₀)
    (within : outcome.Within R w) (never : outcome = .never → F .noReturn w) :
    Meets (· = ctx₀) outcome.protect (fun r ctx => Protected outcome r.2 r.1 ctx.world ∧
      At vals (R w) ctx) (OnWorld F) := by
  rintro ctx rfl
  cases outcome with
  | returns v w' reserved =>
    have moved := here.moved (J := R w) within vals reserved
    exact ⟨.inl ⟨rfl, reserved, rfl⟩, here.stack, moved.room, moved.world⟩
  | throws v w' reserved =>
    have moved := here.moved (J := R w) within vals reserved
    exact ⟨.inr ⟨rfl, reserved, rfl⟩, here.stack, moved.room, moved.world⟩
  | never => exact here.world ▸ never rfl

/-! ### Properties -/

theorem meets_through {ctx₀ : Ctx H} (respects : host.Respects R) (here : At vals (· = w) ctx₀)
    (target : JsVal) (key : Bytes) :
    Meets (· = ctx₀) (do
        match ← (host.readThrough ctx₀.world ctx₀.free target key).run with
        | some v => return (v, true)
        | none => return (.undefined, false))
      (fun _ => At vals (R w)) (OnWorld fun _ => R w) := by
  have within := respects.readThrough ctx₀.world ctx₀.free target key
  rw [here.world] at within ⊢
  apply (meets_run here within (respects.refl w)).bind
  intro found
  cases found with
  | none => exact .pure fun ctx done => done
  | some v => exact .pure fun ctx done => done

theorem meets_readProp (respects : host.Respects R) (target : JsVal) (key : Bytes) :
    Meets (At vals (· = w)) (readProp host target key) (fun _ => At vals (R w))
      (OnWorld fun _ => R w) := by
  refine .get_bind fun ctx here => ?_
  have through := meets_through respects here target key
  have same : R w ctx.world := here.world ▸ respects.refl w
  cases target with
  | undefined | null =>
    rintro _ rfl
    exact same
  | object id =>
    cases own : (ctx.world.objects id).own key with
    | none =>
      simp only [own]
      exact through
    | some found =>
      cases found with
      | data v w c =>
        simp only [own]
        rintro _ rfl
        exact ⟨here.stack, here.room, same⟩
      | accessor c =>
        simp only [own]
        exact through
  | _ => exact through

/-- A property is read in one world, with what may run for it leading to another. -/
def ReadsAs (host : Host H) (target : JsVal) (key : Bytes) (w : World H) (found : Bool) (v : JsVal)
    (w' : World H) : Prop :=
  ∃ ctx ctx', ctx.world = w ∧ ctx'.world = w' ∧ readProp host target key ctx = .ok (v, found) ctx'

/-- Whether there is such a property is left open. -/
def ReadTo (host : Host H) (target : JsVal) (key : Bytes) (w : World H) (v : JsVal)
    (w' : World H) : Prop :=
  ∃ found, ReadsAs host target key w found v w'

/-- The read ends in this fault. -/
def ReadFails (host : Host H) (target : JsVal) (key : Bytes) (w : World H) (e : Fault)
    (w' : World H) : Prop :=
  ∃ ctx ctx', ctx.world = w ∧ ctx'.world = w' ∧ readProp host target key ctx = .error e ctx'

theorem ReadsAs.within {target v : JsVal} {key : Bytes} {found : Bool} {w' : World H}
    (respects : host.Respects R) (read : ReadsAs host target key w found v w') : R w w' := by
  obtain ⟨ctx, ctx', rfl, rfl, ran⟩ := read
  exact (within_readProp respects target key).of_ok ran

theorem ReadTo.within {target v : JsVal} {key : Bytes} {w' : World H} (respects : host.Respects R)
    (read : ReadTo host target key w v w') : R w w' := by
  obtain ⟨found, read⟩ := read
  exact read.within respects

theorem meets_readProp_to {target : JsVal} {key : Bytes} (respects : host.Respects R)
    (fails : ∀ e w', ReadFails host target key w e w' → R w w' → F e w') :
    Meets (At vals (· = w)) (readProp host target key)
      (fun r ctx => ReadsAs host target key w r.2 r.1 ctx.world ∧ At vals (R w) ctx)
      (OnWorld F) := by
  intro ctx here
  have ends := meets_readProp respects target key ctx here
  cases ran : readProp host target key ctx with
  | ok r ctx' =>
    rw [ran] at ends
    exact ⟨⟨ctx, ctx', here.world, rfl, ran⟩, ends⟩
  | error e ctx' =>
    rw [ran] at ends
    exact fails e _ ⟨ctx, ctx', here.world, rfl, ran⟩ ends

theorem meets_getPropString {i : Nat} {key : Bytes} {target : JsVal} (respects : host.Respects R)
    (fits : vals.length + 3 ≤ frameSize)
    (fails : ∀ e w', ReadFails host target key w e w' → R w w' → F e w')
    (here : vals.getD i .undefined = target) :
    Meets (At vals (· = w)) (getPropString host i key)
      (fun found ctx => ∃ v, ReadsAs host target key w found v ctx.world ∧
        At (v :: vals) (R w) ctx) (OnWorld F) := by
  subst here
  apply (meets_requireRoom (by omega)).bind
  intro _
  apply meets_getAt_bind
  apply (meets_readProp_to respects fails).bind
  rintro ⟨v, found⟩ ctx ⟨read, here⟩
  have pushed : push v ctx = .ok () (ctx.pushed v) := by
    rw [push_run, if_pos (here.fits (by omega))]
  have there : At (v :: vals) (R w) (ctx.pushed v) :=
    ⟨by rw [Ctx.pushed_stack, here.stack], here.room, here.world⟩
  cases found with
  | true =>
    simp only [if_true, bind_run, requireRoom_run, if_pos (here.fits fits), pushed, pure_run]
    exact ⟨v, read, there⟩
  | false =>
    simp only [Bool.false_eq_true, if_false, bind_run, pure_run, pushed]
    exact ⟨v, read, there⟩

theorem meets_getPropStringAt {i : Nat} {key : Bytes} {target : JsVal} (respects : host.Respects R)
    (fits : vals.length + 3 ≤ frameSize)
    (fails : ∀ e w', ReadFails host target key w e w' → R w w' → F e w')
    (here : vals.getD (vals.length - 1 - i) .undefined = target) :
    Meets (At vals (· = w)) (getPropStringAt host i key)
      (fun found ctx => ∃ v, ReadsAs host target key w found v ctx.world ∧
        At (v :: vals) (R w) ctx) (OnWorld F) := by
  refine .get_bind fun ctx there => ?_
  intro s same
  rw [same, there.height]
  exact meets_getPropString respects fits fails here ctx there

/-- A read that runs nothing finds the one value. -/
theorem readTo_reads {w w' : World H} {target v : JsVal} {key : Bytes} {r : Option JsVal}
    (reads : ∀ ctx : Ctx H, ctx.world = w → Reads host ctx target key r)
    (read : ReadTo host target key w v w') : v = r.getD .undefined ∧ w' = w := by
  obtain ⟨found, ctx, ctx', rfl, rfl, ran⟩ := read
  have answer := reads ctx rfl
  cases r with
  | none =>
    cases ran.symm.trans answer
    exact ⟨rfl, rfl⟩
  | some v =>
    cases ran.symm.trans answer
    exact ⟨rfl, rfl⟩

theorem not_readFails_reads {w w' : World H} {target : JsVal} {key : Bytes} {r : Option JsVal}
    {e : Fault} (reads : ∀ ctx : Ctx H, ctx.world = w → Reads host ctx target key r) :
    ¬ ReadFails host target key w e w' := by
  rintro ⟨ctx, ctx', rfl, rfl, ran⟩
  have answer := reads ctx rfl
  cases r with
  | none => cases ran.symm.trans answer
  | some v => cases ran.symm.trans answer

/-- A read comes back if what runs for it does. -/
theorem not_readFails_noReturn {target : JsVal} {key : Bytes} {w w' : World H}
    (prompt : ∀ w free, host.readThrough w free target key ≠ .never) :
    ¬ ReadFails host target key w .noReturn w' := by
  rintro ⟨ctx, ctx', _, _, ran⟩
  have through : ∀ s : Ctx H, (do
      match ← (host.readThrough ctx.world ctx.free target key).run with
      | some v => return (v, true)
      | none => return (.undefined, false) : Duk H (JsVal × Bool)) ctx ≠ .error .noReturn s := by
    intro s stuck
    rw [bind_run] at stuck
    cases outcome : host.readThrough ctx.world ctx.free target key with
    | returns found w reserved =>
      rw [outcome] at stuck
      cases found <;> cases stuck
    | throws e w reserved =>
      rw [outcome] at stuck
      cases stuck
    | never => exact prompt _ _ outcome
  rw [readProp, bind_run, get_run] at ran
  cases target with
  | undefined | null => cases ran
  | object id =>
    -- only what is not the object's own, or has a getter, is looked up by the host
    cases own : (ctx.world.objects id).own key with
    | none =>
      simp only [own] at ran
      exact through _ ran
    | some found =>
      cases found with
      | data v w c =>
        simp only [own] at ran
        cases ran
      | accessor c =>
        simp only [own] at ran
        exact through _ ran
  | _ => exact through _ ran

/-- A read that leaves the world as it is. -/
theorem meets_readProp_reads {w : World H} {target : JsVal} {key : Bytes} {r : Option JsVal}
    (reads : ∀ ctx : Ctx H, ctx.world = w → Reads host ctx target key r) :
    Meets (At vals (· = w)) (readProp host target key)
      (fun found ctx => found = (r.getD .undefined, r.isSome) ∧ At vals (· = w) ctx) (OnWorld F) := by
  intro ctx here
  have read := reads ctx here.world
  cases r with
  | none =>
    rw [show readProp host target key ctx = .ok (.undefined, false) ctx from read]
    exact ⟨rfl, here⟩
  | some v =>
    rw [show readProp host target key ctx = .ok (v, true) ctx from read]
    exact ⟨rfl, here⟩

theorem meets_getPropStringAt_own {w : World H} {i id : Nat} {key : Bytes} {v : JsVal} {wr c : Bool}
    (fits : vals.length + 3 ≤ frameSize)
    (here : vals.getD (vals.length - 1 - i) .undefined = .object id)
    (own : (w.objects id).own key = some (.data v wr c)) :
    Meets (At vals (· = w)) (getPropStringAt host i key)
      (fun found ctx => found = true ∧ At (v :: vals) (· = w) ctx) (OnWorld F) := by
  refine .get_bind fun ctx there => ?_
  obtain rfl := there.world
  rintro s rfl
  have reads : Reads host s (s.get (s.height - 1 - i)) key (some v) := by
    rw [there.height, there.get, here]
    exact .own own
  rw [getPropString_found reads, if_pos (there.fits fits)]
  exact ⟨rfl, by rw [Ctx.pushed_stack, there.stack], there.room, rfl⟩

theorem meets_getProp {w : World H} {i : Nat} {target : JsVal} {key : Bytes} {r : Option JsVal}
    (fits : vals.length + 3 ≤ frameSize)
    (here : (.string key :: vals).reverse.getD i .undefined = target)
    (reads : ∀ ctx : Ctx H, ctx.world = w → Reads host ctx target key r) :
    Meets (At (.string key :: vals) (· = w)) (getProp host i)
      (fun found ctx => found = r.isSome ∧ At (r.getD .undefined :: vals) (· = w) ctx)
      (OnWorld F) := by
  have room : (JsVal.string key :: vals).length + 2 ≤ frameSize := by
    rw [List.length_cons]
    omega
  apply (meets_requireRoom (by omega)).bind
  intro _
  apply meets_slot_bind
  rw [here]
  apply meets_getAt_bind
  apply (meets_readProp_reads reads).bind
  rintro ⟨v, found⟩
  apply Meets.assume
  intro same
  obtain ⟨rfl, rfl⟩ := Prod.mk.inj same
  -- a value that is found takes a slot of its own on the way
  have settled : Meets (At (.string key :: vals) (· = w))
      (if r.isSome then requireRoom 2 else pure ()) (fun _ => At (.string key :: vals) (· = w))
      (OnWorld F) := Meets.ite (fun _ => meets_requireRoom room) fun _ => .pure fun _ there => there
  have replaced := settled.bind fun _ => (meets_setAt (i := 0) (v := r.getD .undefined)).bind fun _ =>
    Meets.pure (a := r.isSome) (Q := fun found ctx => found = r.isSome ∧
      At (r.getD .undefined :: vals) (· = w) ctx) fun _ there => ⟨rfl, there⟩
  cases r with
  | none => exact replaced
  | some v => exact replaced

theorem meets_writeProp {w : World H} {id : Nat} {key : Bytes} {v : JsVal}
    (plain : ∀ free, host.writeThrough w free id key v = none)
    (closed : (w.objects id).accepts key = none → F (.thrown .typeError) w) :
    Meets (At vals (· = w)) (writeProp host (.object id) key v)
      (fun _ ctx => ∃ c, (w.objects id).accepts key = some c ∧
        At vals (· = w.setOwn id key (some (.data v true c))) ctx) (OnWorld F) := by
  intro ctx here
  obtain rfl := here.world
  rw [writeProp_run (plain _)]
  cases accepts : (ctx.world.objects id).accepts key with
  | none => exact closed accepts
  | some c => exact ⟨c, rfl, here.stack, here.room, rfl⟩

/-- A property that may be taken out. -/
theorem meets_deleteProp {w : World H} {id : Nat} {key : Bytes}
    (open' : (w.objects id).deletes key = true) :
    Meets (At vals (· = w)) (deleteProp (.object id) key)
      (fun _ => At vals (· = w.setOwn id key none)) (OnWorld F) := by
  intro ctx here
  obtain rfl := here.world
  rw [deleteProp_run, open']
  exact ⟨here.stack, here.room, rfl⟩

/-! ### Calls -/

/-- A protected computation, and what it took makes way for its value. -/
theorem meets_status {outcome : Outcome H JsVal} {ctx₀ : Ctx H} {k : Nat}
    (here : At vals (· = w) ctx₀) (within : outcome.Within R w)
    (never : outcome = .never → F .noReturn w) (enough : k ≤ vals.length)
    (fits : (vals.drop k).length + 1 ≤ frameSize) :
    Meets (· = ctx₀) (do
        let (v, rc) ← outcome.protect
        popN k
        push v
        return rc)
      (fun rc ctx => ∃ v, Protected outcome rc v ctx.world ∧ At (v :: vals.drop k) (R w) ctx)
      (OnWorld F) := by
  apply (meets_protect (R := R) here within never).bind
  rintro ⟨v, rc⟩ ctx ⟨ends, there⟩
  have rest : Meets (At vals (· = ctx.world)) (do popN k; push v; return rc)
      (fun rc' ctx' => rc' = rc ∧ At (v :: vals.drop k) (· = ctx.world) ctx') (OnWorld F) := by
    apply (meets_popN enough).bind
    intro _
    apply (meets_push fits).bind
    intro _
    exact .pure fun _ done => ⟨rfl, done⟩
  refine (rest.mono (fun _ pre => pre) ?_) ctx ⟨there.stack, there.room, rfl⟩
  rintro _ ctx' ⟨rfl, done⟩
  exact ⟨v, done.world ▸ ends, done.stack, done.room, done.world ▸ there.world⟩

/-- A call came back with this status and this value. -/
def Called (host : Host H) (w : World H) (this func : JsVal) (args : List JsVal) (rc : Int32)
    (v : JsVal) (w' : World H) : Prop :=
  ∃ free, Protected (host.call w free this func args) rc v w'

theorem Protected.within {outcome : Outcome H JsVal} {rc : Int32} {v : JsVal} {w' : World H}
    (ends : Protected outcome rc v w') (within : outcome.Within R w) : R w w' := by
  rcases ends with ⟨_, reserved, rfl⟩ | ⟨_, reserved, rfl⟩
  · exact within
  · exact within

theorem meets_pcall {nargs : Nat} {args rest : List JsVal} {func : JsVal}
    (respects : host.Respects R) (count : args.length = nargs)
    (fits : rest.length + 1 ≤ frameSize)
    (never : ∀ free, host.call w free .undefined func args.reverse = .never → F .noReturn w) :
    Meets (At (args ++ func :: rest) (· = w)) (pcall host nargs)
      (fun rc ctx => ∃ v, Called host w .undefined func args.reverse rc v ctx.world ∧
        At (v :: rest) (R w) ctx) (OnWorld F) := by
  subst count
  refine .get_bind fun ctx here => ?_
  have enough : args.length + 1 ≤ (args ++ func :: rest).length := by simp
  have dropped : (args ++ func :: rest).drop (args.length + 1) = rest := by
    rw [← List.drop_drop, List.drop_left, List.drop_one, List.tail_cons]
  have got : ctx.get args.length = func := by
    rw [here.get]
    simp
  have taken : ctx.stack.take args.length = args := by
    rw [here.stack, List.take_left]
  have within := respects.call w ctx.free .undefined func args.reverse
  rw [if_pos (by rw [here.height]; exact enough), got, taken, here.world]
  have ends := meets_status here within (never ctx.free) enough (by rwa [dropped])
  rw [dropped] at ends
  exact ends.mono (fun _ pre => pre) fun rc ctx' ⟨v, ended, there⟩ => ⟨v, ⟨ctx.free, ended⟩, there⟩

theorem meets_pcallMethod {nargs : Nat} {args rest : List JsVal} {this func : JsVal}
    (respects : host.Respects R) (count : args.length = nargs)
    (fits : rest.length + 1 ≤ frameSize)
    (never : ∀ free, host.call w free this func args.reverse = .never → F .noReturn w) :
    Meets (At (args ++ this :: func :: rest) (· = w)) (pcallMethod host nargs)
      (fun rc ctx => ∃ v, Called host w this func args.reverse rc v ctx.world ∧
        At (v :: rest) (R w) ctx) (OnWorld F) := by
  subst count
  refine .get_bind fun ctx here => ?_
  have enough : args.length + 2 ≤ (args ++ this :: func :: rest).length := by simp
  have dropped : (args ++ this :: func :: rest).drop (args.length + 2) = rest := by
    rw [← List.drop_drop, List.drop_left]
    rfl
  have got : ctx.get args.length = this ∧ ctx.get (args.length + 1) = func := by
    rw [here.get, here.get]
    simp
  have taken : ctx.stack.take args.length = args := by
    rw [here.stack, List.take_left]
  have within := respects.call w ctx.free this func args.reverse
  rw [if_pos (by rw [here.height]; exact enough), got.1, got.2, taken, here.world]
  have ends := meets_status here within (never ctx.free) enough (by rwa [dropped])
  rw [dropped] at ends
  exact ends.mono (fun _ pre => pre) fun rc ctx' ⟨v, ended, there⟩ => ⟨v, ⟨ctx.free, ended⟩, there⟩

/-- Source text was compiled, with this status and this value. -/
def Compiled (host : Host H) (w : World H) (mode : CompileMode) (src : Bytes)
    (filename : Option Bytes) (rc : Int32) (v : JsVal) (w' : World H) : Prop :=
  ∃ free, Protected (host.compile w free mode src filename) rc v w'

theorem meets_pcompile {mode : CompileMode} {src : Bytes} {filename : JsVal} {rest : List JsVal}
    (respects : host.Respects R) (fits : rest.length + 1 ≤ frameSize)
    (never : ∀ free, host.compile w free mode src filename.getString = .never → F .noReturn w) :
    Meets (At (filename :: .string src :: rest) (· = w)) (pcompile host mode)
      (fun rc ctx => ∃ v, Compiled host w mode src filename.getString rc v ctx.world ∧
        At (v :: rest) (R w) ctx) (OnWorld F) := by
  refine .get_bind fun ctx here => ?_
  have source : ctx.get 1 = .string src := here.get 1
  have name : ctx.get 0 = filename := here.get 0
  have within := respects.compile w ctx.free mode src filename.getString
  rw [source, name, here.world]
  exact (meets_status here within (never ctx.free) (Nat.le_add_left 2 _) fits).mono
    (fun _ pre => pre) fun rc ctx' ⟨v, ended, there⟩ => ⟨v, ⟨ctx.free, ended⟩, there⟩

theorem meets_concat3 {a b c : Bytes} {rest : List JsVal} (fits : rest.length + 1 ≤ frameSize)
    (symbol : isSymbol a ∨ isSymbol b ∨ isSymbol c → ∀ w, I w → F (.thrown .typeError) w)
    (long : maxStringLen < a.length + b.length + c.length →
      ∀ w, I w → F (.thrown .rangeError) w) :
    Meets (At (.string c :: .string b :: .string a :: rest) I) concat3
      (fun _ => At (.string (a ++ b ++ c) :: rest) I) (OnWorld F) := by
  apply meets_getAt_bind
  apply meets_getAt_bind
  apply meets_getAt_bind
  refine Meets.ite (fun fails ctx here => symbol fails _ here.world) fun _ => ?_
  refine Meets.ite (fun fails ctx here => long fails _ here.world) fun _ => ?_
  apply (meets_popN (Nat.le_add_left 3 _)).bind
  intro _
  exact meets_push fits

end Host

end DukBridge
