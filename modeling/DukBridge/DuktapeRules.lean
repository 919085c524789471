import DukBridge.Duktape

/-! When an API call returns, and with what; one rule for each call. -/
namespace DukBridge

open Effect

variable {H α : Type} {ctx ctx' : Ctx H}

namespace Ctx

@[simp] theorem height_mk (stack : List JsVal) (reserve : Nat) (w : World H) :
    (Ctx.mk stack reserve w).height = stack.length := rfl

def pushed (ctx : Ctx H) (v : JsVal) : Ctx H := { ctx with stack := v :: ctx.stack }

@[simp] theorem pushed_stack (v : JsVal) : (ctx.pushed v).stack = v :: ctx.stack := rfl

@[simp] theorem pushed_reserve (v : JsVal) : (ctx.pushed v).reserve = ctx.reserve := rfl

@[simp] theorem pushed_world (v : JsVal) : (ctx.pushed v).world = ctx.world := rfl

@[simp] theorem pushed_height (v : JsVal) : (ctx.pushed v).height = ctx.height + 1 := rfl

end Ctx

@[simp] theorem raise_run (e : DukError) : (raise e : Duk H α) ctx = .error (.thrown e) ctx := rfl

theorem requireRoom_run (n : Nat) : requireRoom n ctx =
    if ctx.height + n ≤ ctx.reserve then .ok () ctx else .error (.thrown .rangeError) ctx := by
  simp only [requireRoom, bind_run, get_run]
  split <;> rfl

@[simp] theorem requireRoom_eq_ok {n : Nat} {u : Unit} :
    requireRoom n ctx = .ok u ctx' ↔ ctx.height + n ≤ ctx.reserve ∧ ctx' = ctx := by
  rw [requireRoom_run]
  split <;> simp [*, eq_comm]

theorem push_run (v : JsVal) : push v ctx =
    if ctx.height + 1 ≤ ctx.reserve then .ok () (ctx.pushed v)
    else .error (.thrown .rangeError) ctx := by
  by_cases room : ctx.height + 1 ≤ ctx.reserve
  · simp only [push, bind_run, requireRoom_run, room, if_true]
    rfl
  · simp only [push, bind_run, requireRoom_run, room, if_false]

@[simp] theorem push_eq_ok {v : JsVal} {u : Unit} :
    push v ctx = .ok u ctx' ↔ ctx.height + 1 ≤ ctx.reserve ∧ ctx' = ctx.pushed v := by
  rw [push_run]
  split <;> simp [*, eq_comm]

theorem popN_run (n : Nat) : popN n ctx =
    if n ≤ ctx.height then .ok () { ctx with stack := ctx.stack.drop n }
    else .error (.thrown .rangeError) ctx := by
  simp only [popN, bind_run, get_run]
  split <;> rfl

@[simp] theorem popN_eq_ok {n : Nat} {u : Unit} : popN n ctx = .ok u ctx' ↔
    n ≤ ctx.height ∧ ctx' = { ctx with stack := ctx.stack.drop n } := by
  rw [popN_run]
  split <;> simp [*, eq_comm]

@[simp] theorem getAt_run (i : Nat) : getAt i ctx = .ok (ctx.get i) ctx := rfl

@[simp] theorem setAt_run (i : Nat) (v : JsVal) :
    setAt i v ctx = .ok () { ctx with stack := ctx.stack.set i v } := rfl

@[simp] theorem removeAt_eq_ok {i : Nat} {u : Unit} : removeAt i ctx = .ok u ctx' ↔
    i < ctx.height ∧ ctx' = { ctx with stack := ctx.stack.eraseIdx i } := by
  simp only [removeAt, bind_run, get_run]
  split <;> simp [*, eq_comm]

@[simp] theorem outcome_run_eq_ok {outcome : Outcome H α} {a : α} :
    outcome.run ctx = .ok a ctx' ↔ ∃ w reserved, outcome = .returns a w reserved ∧
      ctx' = { ctx with world := w, reserve := ctx.reserve + reserved } := by
  cases outcome with
  | returns b w reserved =>
    constructor
    · intro returned
      cases returned
      exact ⟨w, reserved, rfl, rfl⟩
    · rintro ⟨_, _, same, rfl⟩
      cases same
      rfl
  | throws e w reserved =>
    constructor
    · intro returned
      cases returned
    · rintro ⟨_, _, same, _⟩
      cases same
  | never =>
    constructor
    · intro returned
      cases returned
    · rintro ⟨_, _, same, _⟩
      cases same

theorem pushNew_ok {shape : ObjShape} {native : Option (CFunction × Int32)} {u : Unit}
    (returned : pushNew shape native ctx = .ok u ctx') :
    ctx' = ⟨.object ctx.world.nextId :: ctx.stack, ctx.reserve,
      { ctx.world.setObject ctx.world.nextId ⟨shape, fun _ => none, true, native⟩ with
        nextId := ctx.world.nextId + 1 }⟩ := by
  obtain ⟨_, _, got, pushing⟩ := bind_eq_ok.mp returned
  cases got
  obtain ⟨_, _, push, modified⟩ := bind_eq_ok.mp pushing
  obtain ⟨_, rfl⟩ := push_eq_ok.mp push
  cases modified
  rfl

theorem pushBytes_ok {s : Bytes} {u : Unit} (returned : pushBytes s ctx = .ok u ctx') :
    ctx' = ctx.pushed (.string s) := by
  obtain ⟨_, _, room, pushing⟩ := bind_eq_ok.mp returned
  obtain ⟨_, rfl⟩ := requireRoom_eq_ok.mp room
  split at pushing
  · exact (push_eq_ok.mp pushing).2
  · cases pushing

/-! ### Calls that leave the stack alone -/

theorem keeps_requireRoom (n : Nat) : Keeps Ctx.stack (requireRoom n : Duk H Unit) := by
  intro s u t returned
  obtain ⟨_, rfl⟩ := requireRoom_eq_ok.mp returned
  rfl

theorem keeps_run (outcome : Outcome H α) : Keeps Ctx.stack outcome.run := by
  intro s a t returned
  obtain ⟨w, reserved, _, rfl⟩ := outcome_run_eq_ok.mp returned
  rfl

theorem keeps_getAt (i : Nat) : Keeps Ctx.stack (getAt i : Duk H JsVal) :=
  fun _ _ _ returned => by cases returned; rfl

theorem keeps_readProp (host : Host H) (target : JsVal) (key : Bytes) :
    Keeps Ctx.stack (readProp host target key) := by
  unfold readProp
  apply Keeps.get_bind
  intro ctx
  cases target with
  | undefined | null => exact .throw _
  | object id =>
    dsimp only
    split
    · exact .pure _
    · -- no own data property answers
      apply (keeps_run _).bind
      intro read
      cases read <;> exact .pure _
  | _ =>
    apply (keeps_run _).bind
    intro read
    cases read <;> exact .pure _

theorem keeps_writeProp (host : Host H) (target : JsVal) (key : Bytes) (v : JsVal) :
    Keeps Ctx.stack (writeProp host target key v) := by
  intro s u t returned
  rw [writeProp, bind_run, get_run] at returned
  cases target with
  | object id =>
    dsimp only at returned
    cases own : (s.world.objects id).own key with
    | none =>
      -- a setter or an inherited property first, then a new own one
      simp only [own] at returned
      cases through : host.writeThrough s.world s.free id key v with
      | some outcome =>
        simp only [through] at returned
        exact keeps_run _ _ _ _ returned
      | none =>
        by_cases extensible : (s.world.objects id).extensible = true
        · simp only [through, extensible, if_true] at returned
          cases returned
          rfl
        · simp only [through, extensible] at returned
          cases returned
    | some slot =>
      cases slot with
      | data old writable configurable =>
        cases writable with
        | true =>
          simp only [own] at returned
          cases returned
          rfl
        | false =>
          simp only [own] at returned
          cases returned
      | accessor configurable =>
        simp only [own] at returned
        cases through : host.writeThrough s.world s.free id key v with
        | some outcome =>
          simp only [through] at returned
          exact keeps_run _ _ _ _ returned
        | none =>
          simp only [through] at returned
          cases returned
  | _ => cases returned

theorem keeps_deleteProp (target : JsVal) (key : Bytes) :
    Keeps Ctx.stack (deleteProp target key : Duk H Unit) := by
  intro s u t returned
  rw [deleteProp, bind_run, get_run] at returned
  cases target with
  | object id =>
    dsimp only at returned
    cases own : (s.world.objects id).own key with
    | none =>
      simp only [own] at returned
      cases returned
      rfl
    | some slot =>
      cases slot with
      | data old writable configurable =>
        simp only [own] at returned
        cases configurable <;> cases returned
        rfl
      | accessor configurable =>
        simp only [own] at returned
        cases configurable <;> cases returned
        rfl
  | _ => cases returned

theorem getPropString_stack {host : Host H} {i : Nat} {key : Bytes} {found : Bool}
    (returned : getPropString host i key ctx = .ok found ctx') :
    ∃ v, ctx'.stack = v :: ctx.stack := by
  obtain ⟨_, a, room, returned⟩ := bind_eq_ok.mp returned
  obtain ⟨target, b, here, returned⟩ := bind_eq_ok.mp returned
  obtain ⟨⟨v, has⟩, c, read, returned⟩ := bind_eq_ok.mp returned
  -- nothing of the look-up shows on the stack but the value it pushes
  have stack : c.stack = ctx.stack := by
    rw [keeps_readProp host target key _ _ _ read, keeps_getAt i _ _ _ here,
      keeps_requireRoom 2 _ _ _ room]
  cases has with
  | false =>
    obtain ⟨_, d, pushed, same⟩ := bind_eq_ok.mp returned
    obtain ⟨_, rfl⟩ := push_eq_ok.mp pushed
    cases same
    exact ⟨v, congrArg (v :: ·) stack⟩
  | true =>
    obtain ⟨_, d, more, returned⟩ := bind_eq_ok.mp returned
    obtain ⟨_, e, pushed, same⟩ := bind_eq_ok.mp returned
    obtain ⟨_, rfl⟩ := push_eq_ok.mp pushed
    cases same
    have kept := keeps_requireRoom 3 _ _ _ more
    exact ⟨v, congrArg (v :: ·) (kept.trans stack)⟩

/-- The value on top is what was written. -/
theorem putGlobalString_stack {host : Host H} {key : Bytes} {u : Unit}
    (returned : putGlobalString host key ctx = .ok u ctx') : ∃ v, ctx.stack = v :: ctx'.stack := by
  obtain ⟨_, same, room, rest⟩ := bind_eq_ok.mp returned
  obtain ⟨_, held⟩ := requireRoom_eq_ok.mp room
  rw [held, bind_run, get_run] at rest
  cases stack : ctx.stack with
  | nil =>
    simp only [stack] at rest
    cases rest
  | cons v below =>
    simp only [stack] at rest
    obtain ⟨_, _, _, popped⟩ := bind_eq_ok.mp rest
    cases popped
    exact ⟨v, rfl⟩

/-! ### Property writes no accessor takes -/

/-- The object stores a plain write to this key; the result is the property's configurability. -/
def ObjectRec.accepts (o : ObjectRec) (key : Bytes) : Option Bool :=
  match o.own key with
  | some (.data _ true configurable) => some configurable
  | some _ => none
  | none => if o.extensible then some true else none

theorem own_setOwn_self (w : World H) (id : Nat) (key : Bytes) (slot : Option PropSlot) :
    ((w.setOwn id key slot).objects id).own = Function.update (w.objects id).own key slot := by
  simp [World.setOwn, World.setObject]

theorem objects_setOwn_of_ne {id' id : Nat} (other : id' ≠ id) (w : World H) (key : Bytes)
    (slot : Option PropSlot) : (w.setOwn id key slot).objects id' = w.objects id' := by
  simp [World.setOwn, World.setObject, other]

theorem extensible_setOwn (w : World H) (id' id : Nat) (key : Bytes) (slot : Option PropSlot) :
    ((w.setOwn id key slot).objects id').extensible = (w.objects id').extensible := by
  by_cases same : id' = id
  · subst same
    simp [World.setOwn, World.setObject]
  · rw [objects_setOwn_of_ne same]

theorem shape_setOwn (w : World H) (id' id : Nat) (key : Bytes) (slot : Option PropSlot) :
    ((w.setOwn id key slot).objects id').shape = (w.objects id').shape := by
  by_cases same : id' = id
  · subst same
    simp [World.setOwn, World.setObject]
  · rw [objects_setOwn_of_ne same]

variable {host : Host H} {id : Nat} {key : Bytes} {v : JsVal}

theorem writeProp_run (plain : host.writeThrough ctx.world ctx.free id key v = none) :
    writeProp host (.object id) key v ctx =
      match (ctx.world.objects id).accepts key with
      | some configurable => .ok ()
          { ctx with world := ctx.world.setOwn id key (some (.data v true configurable)) }
      | none => .error (.thrown .typeError) ctx := by
  rw [writeProp, bind_run, get_run]
  cases own : (ctx.world.objects id).own key with
  | none =>
    by_cases extensible : (ctx.world.objects id).extensible = true
    · simp only [ObjectRec.accepts, own, plain, extensible, if_true]
      rfl
    · simp only [ObjectRec.accepts, own, plain, extensible]
      rfl
  | some slot =>
    cases slot with
    | data value writable configurable =>
      cases writable with
      | true => simp only [ObjectRec.accepts, own]; rfl
      | false => simp only [ObjectRec.accepts, own]; rfl
    | accessor configurable => simp only [ObjectRec.accepts, own, plain]; rfl

/-- A write that no accessor takes leaves the value in a property of the object itself. -/
theorem setOwn_of_writeProp {u : Unit} {wrote : Ctx H}
    (plain : host.writeThrough ctx.world ctx.free id key v = none)
    (write : writeProp host (.object id) key v ctx = .ok u wrote) :
    ∃ configurable, wrote =
      { ctx with world := ctx.world.setOwn id key (some (.data v true configurable)) } := by
  rw [writeProp_run plain] at write
  cases accepted : (ctx.world.objects id).accepts key with
  | none =>
    simp only [accepted] at write
    cases write
  | some configurable =>
    simp only [accepted] at write
    cases write
    exact ⟨configurable, rfl⟩

/-- Some write of `v` to this property comes back: to the property itself, through a setter, or
as a new property. -/
def TakesWrite (host : Host H) (ctx : Ctx H) (id : Nat) (key : Bytes) (v : JsVal) : Prop :=
  match (ctx.world.objects id).own key, host.writeThrough ctx.world ctx.free id key v with
  | some (.data _ writable _), _ => writable = true
  | _, some outcome => ∃ w reserved, outcome = .returns () w reserved
  | some (.accessor _), none => False
  | none, none => (ctx.world.objects id).extensible = true

/-- What comes of a write, whether a setter takes it or the object itself does. -/
theorem writeProp_reaches {P : Ctx H → Prop} :
    (∃ wrote, writeProp host (.object id) key v ctx = .ok () wrote ∧ P wrote) ↔
      match (ctx.world.objects id).own key, host.writeThrough ctx.world ctx.free id key v with
      | some (.data _ writable configurable), _ => writable = true ∧
          P { ctx with world := ctx.world.setOwn id key (some (.data v true configurable)) }
      | _, some outcome => ∃ w reserved, outcome = .returns () w reserved ∧
          P ⟨ctx.stack, ctx.reserve + reserved, w⟩
      | some (.accessor _), none => False
      | none, none => (ctx.world.objects id).extensible = true ∧
          P { ctx with world := ctx.world.setOwn id key (some (.data v true true)) } := by
  have throws : ∀ {e} {s : Ctx H},
      ¬ ∃ wrote, (EStateM.Result.error e s : EStateM.Result Fault (Ctx H) Unit) = .ok () wrote ∧
        P wrote := by
    rintro e s ⟨wrote, impossible, _⟩
    cases impossible
  have through : ∀ {outcome : Outcome H Unit}, (∃ wrote, outcome.run ctx = .ok () wrote ∧ P wrote) ↔
      ∃ w reserved, outcome = .returns () w reserved ∧
        P ⟨ctx.stack, ctx.reserve + reserved, w⟩ := by
    intro outcome
    constructor
    · rintro ⟨wrote, ran, holds⟩
      obtain ⟨w, reserved, same, rfl⟩ := outcome_run_eq_ok.mp ran
      exact ⟨w, reserved, same, holds⟩
    · rintro ⟨w, reserved, same, holds⟩
      exact ⟨_, outcome_run_eq_ok.mpr ⟨w, reserved, same, rfl⟩, holds⟩
  have lands : ∀ {s : Ctx H}, (∃ wrote, (EStateM.Result.ok () s : EStateM.Result Fault (Ctx H) Unit) =
      .ok () wrote ∧ P wrote) ↔ P s := by
    intro s
    constructor
    · rintro ⟨wrote, same, holds⟩
      cases same
      exact holds
    · exact fun holds => ⟨s, rfl, holds⟩
  rw [writeProp, bind_ok (get_run ctx)]
  cases own : (ctx.world.objects id).own key with
  | none =>
    -- a setter that is inherited comes before the object itself
    cases taken : host.writeThrough ctx.world ctx.free id key v with
    | some outcome =>
      simp only [own, taken]
      exact through
    | none =>
      simp only [own, taken]
      by_cases extensible : (ctx.world.objects id).extensible = true
      · rw [if_pos extensible]
        exact lands.trans (and_iff_right extensible).symm
      · rw [if_neg extensible]
        exact iff_of_false throws fun both => extensible both.1
  | some slot =>
    cases slot with
    | data value writable configurable =>
      cases writable with
      | true =>
        simp only [own]
        exact lands.trans (and_iff_right trivial).symm
      | false =>
        simp only [own]
        exact iff_of_false throws fun both => Bool.false_ne_true both.1
    | accessor configurable =>
      cases taken : host.writeThrough ctx.world ctx.free id key v with
      | some outcome =>
        simp only [own, taken]
        exact through
      | none =>
        simp only [own, taken]
        exact iff_of_false throws not_false

theorem writeProp_returns :
    Returns (writeProp host (.object id) key v) ctx ↔ TakesWrite host ctx id key v := by
  have reaches : (∃ wrote, writeProp host (.object id) key v ctx = .ok () wrote ∧ True) ↔ _ :=
    writeProp_reaches
  simp only [and_true] at reaches
  have unit : (∃ u wrote, writeProp host (.object id) key v ctx = .ok u wrote) ↔
      ∃ wrote, writeProp host (.object id) key v ctx = .ok () wrote :=
    ⟨fun ⟨_, wrote, ran⟩ => ⟨wrote, ran⟩, fun ⟨wrote, ran⟩ => ⟨(), wrote, ran⟩⟩
  exact unit.trans reaches

/-- A write lands on the global object and its value leaves the stack, or nothing changes. -/
theorem putGlobalString_run (plain : ∀ w free v, host.writeThrough w free globalId key v = none) :
    putGlobalString host key ctx =
      if ctx.height + 3 ≤ ctx.reserve then
        match ctx.stack, ctx.global.accepts key with
        | v :: rest, some configurable => .ok () ⟨rest, ctx.reserve,
            ctx.world.setOwn globalId key (some (.data v true configurable))⟩
        | [], _ => .error (.thrown .rangeError) ctx
        | _, none => .error (.thrown .typeError) ctx
      else .error (.thrown .rangeError) ctx := by
  -- without the three slots nothing is looked at
  by_cases room : ctx.height + 3 ≤ ctx.reserve
  · rw [putGlobalString, bind_run, requireRoom_run, if_pos room, if_pos room]
    simp only [bind_run, get_run]
    cases stack : ctx.stack with
    | nil => rfl
    | cons v rest =>
      have wrote := writeProp_run (v := v) (plain ctx.world ctx.free v)
      simp only [bind_run, wrote, Ctx.global]
      cases (ctx.world.objects globalId).accepts key <;> rfl
  · rw [putGlobalString, bind_run, requireRoom_run, if_neg room, if_neg room]

theorem putGlobalString_returns
    (plain : ∀ w free v, host.writeThrough w free globalId key v = none) {rest : List JsVal}
    (stack : ctx.stack = v :: rest) : Returns (putGlobalString host key) ctx ↔
      ctx.height + 3 ≤ ctx.reserve ∧ (ctx.global.accepts key).isSome := by
  unfold Returns
  rw [putGlobalString_run plain]
  by_cases room : ctx.height + 3 ≤ ctx.reserve
  · cases accepted : ctx.global.accepts key with
    | none => simp [room, stack]
    | some configurable => simp [room, stack]
  · simp [room]

/-! ### Property reads that leave the world alone -/

/-- A property is read, or found missing, and nothing else happens. -/
def Reads (host : Host H) (ctx : Ctx H) (target : JsVal) (key : Bytes) : Option JsVal → Prop
  | some v => readProp host target key ctx = .ok (v, true) ctx
  | none => readProp host target key ctx = .ok (.undefined, false) ctx

/-- A property of the object's own that needs no getter. -/
theorem Reads.own {writable configurable : Bool}
    (own : (ctx.world.objects id).own key = some (.data v writable configurable)) :
    Reads host ctx (.object id) key (some v) := by
  change readProp _ _ _ _ = _
  rw [readProp, bind_run, get_run]
  simp only [own]
  rfl

/-- Without one, what a getter or a prototype answers, whatever the value's kind. -/
theorem Reads.through {target : JsVal} {found : Option JsVal} (undefined : target ≠ .undefined)
    (null : target ≠ .null) (own : ∀ id v w c, target = .object id →
      (ctx.world.objects id).own key ≠ some (.data v w c))
    (answers : host.readThrough ctx.world ctx.free target key = .returns found ctx.world 0) :
    Reads host ctx target key found := by
  have read : readProp host target key ctx = .ok (found.getD .undefined, found.isSome) ctx := by
    rw [readProp, bind_run, get_run]
    cases target with
    | undefined => exact absurd rfl undefined
    | null => exact absurd rfl null
    | object id =>
      cases slot : (ctx.world.objects id).own key with
      | none =>
        simp only [slot, answers]
        cases found <;> rfl
      | some slot' =>
        cases slot' with
        | data v w c => exact absurd slot (own id v w c rfl)
        | accessor c =>
          simp only [slot, answers]
          cases found <;> rfl
    | _ =>
      simp only [answers]
      cases found <;> rfl
  cases found with
  | none => exact read
  | some v => exact read

theorem Reads.inherited {found : Option JsVal} (own : (ctx.world.objects id).own key = none)
    (answers : host.readThrough ctx.world ctx.free (.object id) key = .returns found ctx.world 0) :
    Reads host ctx (.object id) key found := by
  refine Reads.through (by simp) (by simp) ?_ answers
  rintro _ v w c ⟨⟩ slot
  cases own.symm.trans slot

theorem getPropString_found {i : Nat} {key : Bytes} {v : JsVal}
    (reads : Reads host ctx (ctx.get i) key (some v)) : getPropString host i key ctx =
      if ctx.height + 3 ≤ ctx.reserve then .ok true (ctx.pushed v)
      else .error (.thrown .rangeError) ctx := by
  have read : readProp host (ctx.get i) key ctx = .ok (v, true) ctx := reads
  by_cases room : ctx.height + 3 ≤ ctx.reserve
  · have two : ctx.height + 2 ≤ ctx.reserve := by omega
    have one : ctx.height + 1 ≤ ctx.reserve := by omega
    simp only [getPropString, bind_run, requireRoom_run, getAt_run, read, push_run, room, two, one,
      if_true, pure_run]
  · -- the look-up may still fit where its value does not
    by_cases two : ctx.height + 2 ≤ ctx.reserve
    · simp only [getPropString, bind_run, requireRoom_run, getAt_run, read, room, two, if_true,
        if_false]
    · simp only [getPropString, bind_run, requireRoom_run, room, two, if_false]

theorem getPropString_missing {i : Nat} {key : Bytes}
    (reads : Reads host ctx (ctx.get i) key none) : getPropString host i key ctx =
      if ctx.height + 2 ≤ ctx.reserve then .ok false (ctx.pushed .undefined)
      else .error (.thrown .rangeError) ctx := by
  have read : readProp host (ctx.get i) key ctx = .ok (.undefined, false) ctx := reads
  by_cases room : ctx.height + 2 ≤ ctx.reserve
  · have one : ctx.height + 1 ≤ ctx.reserve := by omega
    simp only [getPropString, bind_run, requireRoom_run, getAt_run, read, push_run, room, one,
      if_true, Bool.false_eq_true, if_false, pure_run]
  · simp only [getPropString, bind_run, requireRoom_run, room, if_false]

theorem getPropString_found_eq_ok {i : Nat} {key : Bytes} {v : JsVal} {found : Bool}
    (reads : Reads host ctx (ctx.get i) key (some v)) :
    getPropString host i key ctx = .ok found ctx' ↔
      ctx.height + 3 ≤ ctx.reserve ∧ found = true ∧ ctx' = ctx.pushed v := by
  rw [getPropString_found reads]
  split <;> simp [*, eq_comm]

theorem getPropString_missing_eq_ok {i : Nat} {key : Bytes} {found : Bool}
    (reads : Reads host ctx (ctx.get i) key none) :
    getPropString host i key ctx = .ok found ctx' ↔
      ctx.height + 2 ≤ ctx.reserve ∧ found = false ∧ ctx' = ctx.pushed .undefined := by
  rw [getPropString_missing reads]
  split <;> simp [*, eq_comm]

theorem getGlobalString_data {w c : Bool} (own : ctx.global.own key = some (.data v w c)) :
    getGlobalString host key ctx =
      if ctx.height + 4 ≤ ctx.reserve then .ok true (ctx.pushed v)
      else .error (.thrown .rangeError) ctx := by
  have read : readProp host (.object globalId) key ctx = .ok (v, true) ctx := Reads.own own
  by_cases room : ctx.height + 4 ≤ ctx.reserve
  · have room3 : ctx.height + 3 ≤ ctx.reserve := by omega
    have room1 : ctx.height + 1 ≤ ctx.reserve := by omega
    simp only [getGlobalString, bind_run, requireRoom_run, read, push_run, room, room3, room1,
      if_true, pure_run]
  · -- the look-up may still fit where its value does not
    by_cases room3 : ctx.height + 3 ≤ ctx.reserve
    · simp only [getGlobalString, bind_run, requireRoom_run, read, room, room3, if_true, if_false]
    · simp only [getGlobalString, bind_run, requireRoom_run, room, room3, if_false]

theorem getGlobalString_absent (own : ∀ w c v, ctx.global.own key ≠ some (.data v w c))
    (nowhere : ∀ w free, host.readThrough w free (.object globalId) key = .returns none w 0) :
    getGlobalString host key ctx =
      if ctx.height + 3 ≤ ctx.reserve then .ok false (ctx.pushed .undefined)
      else .error (.thrown .rangeError) ctx := by
  have read : Reads host ctx (.object globalId) key none := by
    refine Reads.through (by simp) (by simp) ?_ (nowhere _ _)
    rintro _ v w c ⟨⟩
    exact own w c v
  change readProp _ _ _ _ = _ at read
  by_cases room : ctx.height + 3 ≤ ctx.reserve
  · have room1 : ctx.height + 1 ≤ ctx.reserve := by omega
    simp only [getGlobalString, bind_run, requireRoom_run, read, push_run, room, room1, if_true,
      Bool.false_eq_true, if_false, pure_run]
  · simp only [getGlobalString, bind_run, requireRoom_run, room, if_false]

def PropSlot.configurable : PropSlot → Bool
  | .data _ _ configurable => configurable
  | .accessor configurable => configurable

def ObjectRec.deletes (o : ObjectRec) (key : Bytes) : Bool :=
  match o.own key with
  | some slot => slot.configurable
  | none => true

theorem deleteProp_run : deleteProp (.object id) key ctx =
    if (ctx.world.objects id).deletes key then
      .ok () { ctx with world := ctx.world.setOwn id key none }
    else .error (.thrown .typeError) ctx := by
  rw [deleteProp, bind_run, get_run]
  cases own : (ctx.world.objects id).own key with
  | none => simp [ObjectRec.deletes, own]
  | some slot =>
    cases slot with
    | data v w c => cases c <;> simp [ObjectRec.deletes, PropSlot.configurable, own]
    | accessor c => cases c <;> simp [ObjectRec.deletes, PropSlot.configurable, own]

theorem delPropString_run {key : Bytes} {id : Nat} (top : ctx.get 0 = .object id) :
    delPropString key ctx =
      if ctx.height + 3 ≤ ctx.reserve then
        if (ctx.world.objects id).deletes key then
          .ok true { ctx with world := ctx.world.setOwn id key none }
        else .error (.thrown .typeError) ctx
      else .error (.thrown .rangeError) ctx := by
  by_cases room : ctx.height + 3 ≤ ctx.reserve
  · by_cases deletes : (ctx.world.objects id).deletes key = true
    · simp only [delPropString, bind_run, requireRoom_run, getAt_run, top, deleteProp_run, room,
        deletes, if_true, pure_run]
    · simp only [delPropString, bind_run, requireRoom_run, getAt_run, top, deleteProp_run, room,
        deletes, if_true]
      rfl
  · simp only [delPropString, bind_run, requireRoom_run, room, if_false]

theorem delPropString_eq_ok {key : Bytes} {id : Nat} {done : Bool}
    (top : ctx.get 0 = .object id) : delPropString key ctx = .ok done ctx' ↔
      ctx.height + 3 ≤ ctx.reserve ∧ (ctx.world.objects id).deletes key = true ∧ done = true ∧
        ctx' = { ctx with world := ctx.world.setOwn id key none } := by
  rw [delPropString_run top]
  by_cases room : ctx.height + 3 ≤ ctx.reserve
  · by_cases deletes : (ctx.world.objects id).deletes key = true
    · simp [room, deletes, eq_comm]
    · simp [room, deletes]
  · simp [room]

/-! ### JSON -/

def JsonReturns (host : Host H) (ctx : Ctx H) (v : JsVal) : Prop :=
  ∃ text w reserved, host.jsonEncode ctx.world ctx.free v = .returns text w reserved

theorem jsonEncode_returns (i : Nat) :
    Returns (jsonEncode host i) ctx ↔ JsonReturns host ctx (ctx.get i) := by
  rw [jsonEncode, returns_bind_of_ok (get_run ctx)]
  constructor
  · rintro ⟨_, _, returned⟩
    obtain ⟨text, _, ran, _⟩ := bind_eq_ok.mp returned
    obtain ⟨w, reserved, outcome, _⟩ := outcome_run_eq_ok.mp ran
    exact ⟨text, w, reserved, outcome⟩
  · rintro ⟨text, w, reserved, outcome⟩
    refine returns_bind.mpr ⟨text, _, outcome_run_eq_ok.mpr ⟨w, reserved, outcome, rfl⟩, ?_⟩
    cases text with
    | none => exact ⟨_, _, rfl⟩
    | some text => exact ⟨_, _, rfl⟩

end DukBridge
