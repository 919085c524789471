import DukBridge.FrameTriples
import DukBridge.StackNeutrality

/-!
# What the functions of the API write to

Of its own accord the bridge writes to the global object and to objects it has just made, and
nowhere else. A relation between worlds that such writes respect is respected by every function a
host calls, however it ends, and by every run of these.
-/
namespace DukBridge

open Effect

variable {H α β : Type} {host : Host H} {R : World H → World H → Prop}

/-- The relation is respected by scripts, and by writes to the global object and to objects that
have been made since. -/
structure Host.Admits (host : Host H) (R : World H → World H → Prop) : Prop
    extends host.Respects R where
  createInstance : ∀ w free create udd, (host.createInstance w free create udd).Within R w
  writeThrough : ∀ w free id key v outcome, host.writeThrough w free id key v = some outcome →
    outcome.Within R w
  global : ∀ w key slot, R w (w.setOwn globalId key slot)
  made : ∀ {w₀ w w'} key slot, R w₀ w → R w₀ w' → R w₀ (w'.setOwn w.nextId key slot)

/-! ### Steps on the way from one world -/

/-- What can be reached is left for what can be reached. -/
def From (R : World H → World H → Prop) (w₀ w w' : World H) : Prop := R w₀ w → R w₀ w'

theorem Outcome.Within.from {outcome : Outcome H α} {w : World H} (within : outcome.Within R w)
    (trans : ∀ {w₁ w₂ w₃}, R w₁ w₂ → R w₂ w₃ → R w₁ w₃) (w₀ : World H) :
    outcome.Within (From R w₀) w := by
  cases outcome with
  | never => trivial
  | _ => exact fun reached => trans reached within

theorem Host.Respects.from (respects : host.Respects R) (w₀ : World H) :
    host.Respects (From R w₀) where
  refl _ reached := reached
  trans first next reached := next (first reached)
  clock w reached := respects.trans reached (respects.clock w)
  allocation w o reached := respects.trans reached (respects.allocation w o)
  call w free this func args := (respects.call w free this func args).from respects.trans w₀
  compile w free mode src filename :=
    (respects.compile w free mode src filename).from respects.trans w₀
  jsonEncode w free v := (respects.jsonEncode w free v).from respects.trans w₀
  jsonDecode w free text := (respects.jsonDecode w free text).from respects.trans w₀
  readThrough w free target key := (respects.readThrough w free target key).from respects.trans w₀
  errorObject w free message := (respects.errorObject w free message).from respects.trans w₀
  safeToString w free v s w' reserved converted reached :=
    respects.trans reached (respects.safeToString w free v s w' reserved converted)

/-- An object that was made on the way. -/
def New (R : World H → World H → Prop) (w₀ : World H) (id : Nat) : Prop :=
  ∃ w, R w₀ w ∧ w.nextId = id

/-- The objects the bridge writes to. -/
def Ours (R : World H → World H → Prop) (w₀ : World H) (id : Nat) : Prop :=
  id = globalId ∨ New R w₀ id

theorem Host.Admits.ours (admits : host.Admits R) {w₀ : World H} {id : Nat}
    (ours : Ours R w₀ id) (w : World H) (key : Bytes) (slot : Option PropSlot) :
    From R w₀ w (w.setOwn id key slot) := by
  intro reached
  -- the global object takes the property in any world, a new one only on the way from `w₀`
  rcases ours with rfl | ⟨w', made, rfl⟩
  · exact admits.trans reached (admits.global w key slot)
  · exact admits.made key slot made reached

/-! ### Stacks on which some objects are known -/

/-- The slots on top that are known hold these objects, in a world that can be reached. -/
structure Over (R : World H → World H → Prop) (w₀ : World H) (known : List (Option JsVal))
    (ctx : Ctx H) : Prop where
  slots : ∀ i v, known[i]? = some (some v) → ctx.get i = v
  within : R w₀ ctx.world

/-- What is known after a program, and that it went nowhere else if it throws. -/
abbrev Turns (R : World H → World H → Prop) (w₀ : World H) (known : List (Option JsVal))
    (m : Duk H α) (known' : List (Option JsVal)) : Prop :=
  Meets (Over R w₀ known) m (fun _ => Over R w₀ known') (OnWorld fun _ => R w₀)

variable {w₀ : World H} {known : List (Option JsVal)} {k l : Option JsVal} {ctx : Ctx H}

theorem Over.of_stack {ctx' : Ctx H} (here : Over R w₀ known ctx) (stack : ctx'.stack = ctx.stack)
    (within : R w₀ ctx'.world) : Over R w₀ known ctx' := by
  refine ⟨fun i id is => ?_, within⟩
  rw [Ctx.get, stack]
  exact here.slots i id is

theorem Over.pushed (here : Over R w₀ known ctx) (v : JsVal) :
    Over R w₀ (some v :: known) (ctx.pushed v) := by
  refine ⟨fun i u is => ?_, here.within⟩
  cases i with
  | zero => exact Option.some.inj (Option.some.inj is)
  | succ i => exact here.slots i u is

theorem Over.replaced {ctx' : Ctx H} {v : JsVal} (here : Over R w₀ (k :: known) ctx)
    (stack : ctx'.stack = ctx.stack.set 0 v) (within : R w₀ ctx'.world) :
    Over R w₀ (none :: known) ctx' := by
  refine ⟨fun i id is => ?_, within⟩
  cases i with
  | zero => cases is
  | succ i =>
    have below := here.slots (i + 1) id is
    rw [Ctx.get, stack, List.getD_eq_getElem?_getD, List.getElem?_set_ne (Nat.zero_ne_add_one i),
      ← List.getD_eq_getElem?_getD]
    exact below

theorem Over.forget (here : Over R w₀ (k :: known) ctx) : Over R w₀ (none :: known) ctx := by
  refine ⟨fun i id is => ?_, here.within⟩
  cases i with
  | zero => cases is
  | succ i => exact here.slots (i + 1) id is

section Slots

/-- From this state the program goes on to what can be reached, and does not move the slots. -/
theorem over_at {m : Duk H α} (here : Over R w₀ known ctx) (keeps : Keeps Ctx.stack m)
    (within : From R w₀ ctx.world (endState (m ctx)).world) :
    Meets (· = ctx) m (fun _ => Over R w₀ known) (OnWorld fun _ => R w₀) := by
  rintro s rfl
  have reached := within here.within
  cases ran : m s with
  | ok a t =>
    rw [ran] at reached
    exact here.of_stack (keeps s a t ran) reached
  | error e t =>
    rw [ran] at reached
    exact reached

theorem over_keeps {m : Duk H α} (keeps : Keeps Ctx.stack m) (within : Within (From R w₀) m) :
    Turns R w₀ known m known :=
  fun ctx here => over_at here keeps (within ctx) ctx rfl

theorem over_push (v : JsVal) : Turns R w₀ known (push v) (some v :: known) := by
  intro ctx here
  rw [push_run]
  by_cases room : ctx.height + 1 ≤ ctx.reserve
  · rw [if_pos room]
    exact here.pushed v
  · rw [if_neg room]
    exact here.within

theorem over_pushAny (v : JsVal) : Turns R w₀ known (push v) (none :: known) :=
  (over_push v).mono (fun _ here => here) fun _ _ there => there.forget

/-- `[ global ]` -/
theorem over_pushGlobal :
    Turns R w₀ known pushGlobalObject (some (.object globalId) :: known) := over_push _

theorem over_popN (n : Nat) : Turns R w₀ known (popN n) (known.drop n) := by
  intro ctx here
  rw [popN_run]
  by_cases enough : n ≤ ctx.height
  · rw [if_pos enough]
    refine ⟨fun i id is => ?_, here.within⟩
    rw [List.getElem?_drop] at is
    have above := here.slots (n + i) id is
    rw [Ctx.get, List.getD_eq_getElem?_getD] at above ⊢
    rw [List.getElem?_drop]
    exact above
  · rw [if_neg enough]
    exact here.within

theorem over_pop : Turns R w₀ (k :: known) pop known := over_popN 1

theorem over_setAt {v : JsVal} : Turns R w₀ (k :: known) (setAt 0 v) (none :: known) :=
  fun _ here => here.replaced rfl here.within

/-- The slot under the top goes. -/
theorem over_removeAt : Turns R w₀ (k :: l :: known) (removeAt 1) (k :: known) := by
  refine .get_bind fun ctx here => ?_
  refine .ite (fun tall => ?_) fun _ => ?_
  · rintro s rfl
    refine ⟨fun i id is => ?_, here.within⟩
    -- the top stays, and all that is under the gap moves up by one
    have same : ∀ j, (s.stack.eraseIdx 1).getD j .undefined =
        s.stack.getD (if j < 1 then j else j + 1) .undefined := by
      intro j
      rw [List.getD_eq_getElem?_getD, List.getElem?_eraseIdx]
      split <;> rw [List.getD_eq_getElem?_getD]
    rw [Ctx.get, same]
    cases i with
    | zero => exact here.slots 0 id is
    | succ i => exact here.slots (i + 2) id is
  · rintro _ rfl
    exact here.within

theorem over_getAt_bind {i : Nat} {v : JsVal} {f : JsVal → Duk H α} {Q : α → Ctx H → Prop}
    {E : Fault → Ctx H → Prop} (is : known[i]? = some (some v))
    (rest : Meets (Over R w₀ known) (f v) Q E) :
    Meets (Over R w₀ known) (getAt i >>= f) Q E := by
  intro ctx here
  rw [bind_ok (getAt_run i), here.slots i v is]
  exact rest ctx here

theorem keeps_protect (outcome : Outcome H JsVal) : Keeps Ctx.stack outcome.protect := by
  intro s a t returned
  cases outcome with
  | never => cases returned
  | _ =>
    cases returned
    rfl

end Slots

/-! ### Values -/

section Values

theorem over_requireRoom (n : Nat) : Turns R w₀ known (requireRoom n) known := by
  intro ctx here
  rw [requireRoom_run]
  by_cases room : ctx.height + n ≤ ctx.reserve
  · rw [if_pos room]
    exact here
  · rw [if_neg room]
    exact here.within

theorem over_raise {e : DukError} {Q : α → Ctx H → Prop} :
    Meets (Over R w₀ known) (raise e) Q (OnWorld fun _ => R w₀) :=
  fun _ here => here.within

theorem over_pushName (s : Bytes) :
    Turns R w₀ known (pushBytes s) (some (.string s) :: known) := by
  apply (over_requireRoom 1).bind
  intro _
  exact .ite (fun _ => over_push _) fun _ => over_raise

theorem over_pushBytes (s : Bytes) : Turns R w₀ known (pushBytes s) (none :: known) :=
  (over_pushName s).mono (fun _ here => here) fun _ _ there => there.forget

theorem over_pushString (addr : Word) :
    Turns R w₀ known (pushString host addr) (none :: known) :=
  .ite (fun _ => over_pushAny _) fun _ => over_pushBytes _

theorem over_pushLstring (addr len : Word) :
    Turns R w₀ known (pushLstring host addr len) (none :: known) := by
  apply (over_requireRoom 1).bind
  intro _
  exact .ite (fun _ => over_pushAny _) fun _ => over_raise

theorem over_getAt (i : Nat) : Turns R w₀ known (getAt i) known := fun _ here => here

theorem over_toBuffer : Turns R w₀ (k :: known) toBuffer (none :: known) := by
  apply (over_getAt 0).bind
  intro v
  cases v with
  | string s =>
    -- the buffer takes the place of its string
    refine .ite (fun _ => over_raise) fun _ => ?_
    apply (over_requireRoom 1).bind
    intro _
    exact .ite (fun _ => over_setAt) fun _ => over_raise
  | buffer data => exact .pure fun ctx here => here.forget
  | _ => exact over_raise

/-- What is made now is the bridge's to write to. -/
theorem over_pushNew (allocates : ∀ w o, From R w₀ w
      { w.setObject w.nextId o with nextId := w.nextId + 1 })
    (shape : ObjShape) (native : Option (CFunction × Int32)) :
    Meets (Over R w₀ known) (pushNew shape native)
      (fun _ ctx => ∃ id, New R w₀ id ∧ Over R w₀ (some (.object id) :: known) ctx)
      (OnWorld fun _ => R w₀) := by
  refine .get_bind fun ctx here => ?_
  rintro s rfl
  rw [bind_run, push_run]
  by_cases room : s.height + 1 ≤ s.reserve
  · rw [if_pos room]
    -- its id is the next one of a world that was reached
    have there := here.pushed (.object s.world.nextId)
    exact ⟨s.world.nextId, ⟨s.world, here.within, rfl⟩,
      there.of_stack rfl (allocates s.world _ here.within)⟩
  · rw [if_neg room]
    exact here.within

theorem over_pushNew_bind (allocates : ∀ w o, From R w₀ w
      { w.setObject w.nextId o with nextId := w.nextId + 1 })
    {shape : ObjShape} {native : Option (CFunction × Int32)}
    {n : Duk H α} {Q : α → Ctx H → Prop}
    (rest : ∀ id, New R w₀ id →
      Meets (Over R w₀ (some (.object id) :: known)) n Q (OnWorld fun _ => R w₀)) :
    Meets (Over R w₀ known) (pushNew shape native >>= fun _ => n) Q (OnWorld fun _ => R w₀) :=
  (over_pushNew allocates shape native).bind fun _ =>
    .exists fun id => .assume fun new => rest id new

end Values

/-! ### Properties that are written -/

section Writes

/-- A write of this property leaves for what can be reached. -/
def MayWrite (host : Host H) (R : World H → World H → Prop) (w₀ : World H) (id : Nat)
    (key : Bytes) : Prop :=
  ∀ v, Within (From R w₀) (writeProp host (.object id) key v)

theorem over_writeProp {id : Nat} {key : Bytes} (takes : MayWrite host R w₀ id key) (v : JsVal) :
    Turns R w₀ known (writeProp host (.object id) key v) known :=
  over_keeps (keeps_writeProp host _ key v) (takes v)

theorem over_putPropString {i id : Nat} {key : Bytes} (is : (k :: known)[i]? = some (some (.object id)))
    (takes : MayWrite host R w₀ id key) :
    Turns R w₀ (k :: known) (putPropString host i key) known := by
  apply (over_requireRoom 2).bind
  intro _
  apply over_getAt_bind is
  apply (over_getAt 0).bind
  intro v
  exact (over_writeProp takes v).bind fun _ => over_pop

theorem over_putProp {id : Nat} (takes : ∀ key, MayWrite host R w₀ id key) :
    Turns R w₀ (k :: l :: some (.object id) :: known) (putProp host) (some (.object id) :: known) := by
  apply (over_requireRoom 1).bind
  intro _
  -- [ object, key, value ]
  apply over_getAt_bind (i := 2) rfl
  apply (over_getAt 1).bind
  intro key
  apply (over_getAt 0).bind
  intro v
  cases key with
  | string key =>
    apply (over_writeProp (takes key) v).bind
    intro _
    exact (over_popN 2).bind fun _ => .pure fun ctx here => here
  | _ => exact over_raise

theorem over_delPropString {id : Nat} {key : Bytes}
    (deletes : ∀ w, From R w₀ w (w.setOwn id key none)) :
    Turns R w₀ (some (.object id) :: known) (delPropString key) (some (.object id) :: known) := by
  apply (over_requireRoom 3).bind
  intro _
  apply over_getAt_bind (i := 0) rfl
  have gone : Turns R w₀ (some (.object id) :: known) (deleteProp (.object id) key)
      (some (.object id) :: known) := by
    apply over_keeps (keeps_deleteProp _ key)
    intro s
    rw [deleteProp_run]
    split
    · exact deletes s.world
    -- a property that cannot be configured stays
    · exact fun reached => reached
  exact gone.bind fun _ => .pure fun ctx here => here

end Writes

/-! ### What the host runs -/

section Runs

variable (admits : host.Admits R)
include admits

theorem Host.Admits.allocates (w : World H) (o : ObjectRec) :
    From R w₀ w { w.setObject w.nextId o with nextId := w.nextId + 1 } :=
  fun reached => admits.trans reached (admits.allocation w o)

theorem Host.Admits.takes {id : Nat} (ours : Ours R w₀ id) (key : Bytes) :
    MayWrite host R w₀ id key := by
  intro v
  apply within_writePropTo fun _ reached => reached
  · exact fun w slot => admits.ours ours w key slot
  · intro w free outcome taken
    exact (admits.writeThrough w free id key v outcome taken).from admits.trans w₀

theorem over_pushNodeBuffer (addr len : Word) :
    Turns R w₀ known (pushNodeBuffer host addr len) (none :: known) := by
  apply (over_pushLstring addr len).bind
  intro _
  apply over_toBuffer.bind
  intro _
  have wraps : Turns R w₀ (none :: known) (pushBufferObject len) (none :: none :: known) := by
    apply (over_getAt 0).bind
    intro v
    cases v with
    | buffer data =>
      refine .ite (fun _ => ?_) fun _ => over_raise
      exact (over_pushNew admits.allocates _ none).mono (fun ctx here => here)
        fun _ ctx ⟨_, _, there⟩ => there.forget
    | _ => exact over_raise
  -- [ plain buffer, node buffer ]
  apply wraps.bind
  intro _
  exact over_removeAt

/-- What a computation of the host in this state leads to. -/
theorem over_run {outcome : Outcome H α} (here : Over R w₀ known ctx)
    (within : outcome.Within R ctx.world) :
    Meets (· = ctx) outcome.run (fun _ => Over R w₀ known) (OnWorld fun _ => R w₀) :=
  over_at here (keeps_run outcome) (outcome_run_within (admits.toRespects.from w₀)
    (within.from admits.trans w₀))

theorem over_protect {outcome : Outcome H JsVal} (here : Over R w₀ known ctx)
    (within : outcome.Within R ctx.world) :
    Meets (· = ctx) outcome.protect (fun _ => Over R w₀ known) (OnWorld fun _ => R w₀) :=
  over_at here (keeps_protect outcome) (outcome_protect_within (admits.toRespects.from w₀)
    (within.from admits.trans w₀))

theorem over_pushJson (addr len : Word) :
    Turns R w₀ known (pushJson host addr len) (none :: known) := by
  apply (over_pushLstring addr len).bind
  intro _
  refine .get_bind fun ctx here => ?_
  cases ctx.get 0 with
  | string text =>
    apply (over_run admits here (admits.jsonDecode _ _ text)).bind
    intro v
    exact over_setAt
  | _ =>
    rintro s rfl
    exact here.within

theorem over_pcompileLstring (mode : CompileMode) (src : Option Bytes) :
    Turns R w₀ known (pcompileLstring host mode src) (none :: known) := by
  apply (over_requireRoom 1).bind
  intro _
  refine .get_bind fun ctx here => ?_
  apply (over_protect admits here (admits.compile _ _ mode src none)).bind
  rintro ⟨v, rc⟩
  exact (over_pushAny _).bind fun _ => .pure fun ctx here => here

theorem over_pcompileLstringFilename (mode : CompileMode) (src : Option Bytes) :
    Turns R w₀ (k :: known) (pcompileLstringFilename host mode src) (none :: known) := by
  refine .get_bind fun ctx here => ?_
  cases ctx.get 0 with
  | string filename =>
    apply (over_protect admits here (admits.compile _ _ mode src (some filename))).bind
    rintro ⟨v, rc⟩
    exact over_setAt.bind fun _ => .pure fun ctx here => here
  | _ =>
    rintro s rfl
    exact here.within

theorem over_safeToString : Turns R w₀ (k :: known) (safeToString host) (none :: known) := by
  apply (over_requireRoom 1).bind
  intro _
  refine .get_bind fun ctx here => ?_
  cases converted : host.safeToString ctx.world ctx.free (ctx.get 0) with
  | some out =>
    obtain ⟨text, w, reserved⟩ := out
    rintro s rfl
    exact here.replaced rfl
      (admits.trans here.within (admits.safeToString _ _ _ _ _ _ converted))
  | none =>
    rintro s rfl
    exact here.within

theorem over_getPropString (i : Nat) (key : Bytes) :
    Turns R w₀ known (getPropString host i key) (none :: known) := by
  apply (over_requireRoom 2).bind
  intro _
  apply (over_getAt i).bind
  intro target
  have reads : Turns R w₀ known (readProp host target key) known :=
    over_keeps (keeps_readProp host target key)
      (within_readProp (admits.toRespects.from w₀) target key)
  apply reads.bind
  rintro ⟨v, found⟩
  have pushes : Turns R w₀ known (do push v; return found) (none :: known) :=
    (over_pushAny _).bind fun _ => .pure fun ctx here => here
  cases found with
  | true => exact (over_requireRoom 3).bind fun _ => pushes
  | false => exact pushes

theorem over_getGlobalString (key : Bytes) :
    Turns R w₀ known (getGlobalString host key) (none :: known) := by
  apply (over_requireRoom 3).bind
  intro _
  have reads : Turns R w₀ known (readProp host (.object globalId) key) known :=
    over_keeps (keeps_readProp host _ key) (within_readProp (admits.toRespects.from w₀) _ key)
  apply reads.bind
  rintro ⟨v, found⟩
  have pushes : Turns R w₀ known (do push v; return found) (none :: known) :=
    (over_pushAny _).bind fun _ => .pure fun ctx here => here
  cases found with
  | true => exact (over_requireRoom 4).bind fun _ => pushes
  | false => exact pushes

end Runs

/-! ### The functions a host calls -/

section Functions

variable (admits : host.Admits R)
include admits

/-- A call starts with nothing known and goes nowhere else. -/
theorem within_of_turns {m : Duk H α} (known' : List (Option JsVal))
    (turns : ∀ w₀, Turns R w₀ [] m known') : Within R m := by
  intro s
  have here : Over R s.world [] s := ⟨nofun, admits.refl s.world⟩
  have ends := turns s.world s here
  cases ran : m s with
  | ok a t =>
    rw [ran] at ends
    exact ends.within
  | error e t =>
    rw [ran] at ends
    exact ends

theorem over_bindFunction (failed : Int32) :
    Turns R w₀ (none :: none :: some (.object globalId) :: known) (bindFunction host failed) known := by
  apply (over_putProp (admits.takes (.inl rfl))).bind
  intro rc
  exact over_pop.bind fun _ => .pure fun ctx here => here

theorem over_notCompiled (status : Int32) :
    Turns R w₀ (k :: l :: some (.object globalId) :: known) (do
      let _ ← safeToString host
      popN 3
      return status) known := by
  apply (over_safeToString admits).bind
  intro _
  exact (over_popN 3).bind fun _ => .pure fun ctx here => here

theorem within_jsRegisterCodeFunc (jsCode : Option Bytes) (funcName : Bytes) :
    Within R (jsRegisterCodeFunc host jsCode funcName) := by
  refine within_of_turns admits [] fun w₀ => ?_
  apply over_pushGlobal.bind
  intro _
  apply (over_pushBytes funcName).bind
  intro _
  apply (over_pcompileLstring admits .function jsCode).bind
  intro rc
  -- [ global, func_name, function or error ]
  exact .ite (fun _ => over_notCompiled admits _) fun _ => over_bindFunction admits _

theorem within_jsRegisterFileFunc (scriptFile funcName : Bytes) :
    Within R (jsRegisterFileFunc host scriptFile funcName) := by
  have respects := admits.toRespects
  unfold jsRegisterFileFunc
  cases host.readFileContent scriptFile with
  | error ret => exact within_pure respects ret
  | ok src =>
    refine within_of_turns admits [] fun w₀ => ?_
    apply over_pushGlobal.bind
    intro _
    apply (over_pushBytes funcName).bind
    intro _
    apply (over_pushBytes scriptFile).bind
    intro _
    -- the compiler takes the name of the file off again
    apply (over_pcompileLstringFilename admits .function src).bind
    intro rc
    exact .ite (fun _ => over_notCompiled admits _) fun _ => over_bindFunction admits _

theorem within_jsUnregisterFunc (funcName : Bytes) :
    Within R (jsUnregisterFunc funcName : Duk H Int32) := by
  refine within_of_turns admits [] fun w₀ => ?_
  apply over_pushGlobal.bind
  intro _
  apply (over_delPropString fun w => admits.ours (.inl rfl) w funcName none).bind
  intro rc
  exact over_pop.bind fun _ => .pure fun ctx here => here

/-- The function is new, so its two properties are the bridge's to write. -/
theorem over_makeFuncBridge {id : Nat} (ours : Ours R w₀ id) (funcName : Bytes)
    (nativeFunc : Word) (nargs : Int32) (udd : Word) :
    Turns R w₀ (some (.object id) :: known) (makeFuncBridge host funcName nativeFunc nargs udd)
      (some (.object id) :: known) := by
  apply (over_pushBytes funcName).bind
  intro _
  refine .bind (Q := fun _ ctx => ∃ f, New R w₀ f ∧
    Over R w₀ (some (.object f) :: none :: some (.object id) :: known) ctx) ?_ fun _ => ?_
  · exact .ite (fun _ => over_pushNew admits.allocates _ _) fun _ => over_raise
  refine .exists fun f => .assume fun made => ?_
  -- [ object, func_name, native function ], which gets the pointer and the data of the user
  apply (over_pushAny _).bind
  intro _
  apply (over_putPropString rfl (admits.takes (.inr made) nativeFuncKey)).bind
  intro _
  apply (over_pushAny _).bind
  intro _
  apply (over_putPropString rfl (admits.takes (.inr made) nativeUddKey)).bind
  intro _
  exact (over_putProp (admits.takes ours)).bind fun _ => .pure fun ctx here => here

theorem within_jsRegisterNativeFunc (funcName : Bytes) (nativeFunc : Word) (paramNum : Int32)
    (udd : Word) : Within R (jsRegisterNativeFunc host funcName nativeFunc paramNum udd) := by
  refine within_of_turns admits [] fun w₀ => ?_
  apply over_pushGlobal.bind
  intro _
  apply (over_makeFuncBridge admits (.inl rfl) funcName nativeFunc _ udd).bind
  intro _
  exact over_pop.bind fun _ => .pure fun ctx here => here

theorem within_jsUnregisterNativeFunc (funcName : Bytes) :
    Within R (jsUnregisterNativeFunc host funcName) := by
  refine within_of_turns admits [] fun w₀ => ?_
  apply over_pushGlobal.bind
  intro _
  apply (over_getPropString admits 0 funcName).bind
  intro found
  refine .ite (fun _ => (over_popN 2).bind fun _ => .pure fun ctx here => here) fun _ => ?_
  -- a function without the pointer is not one of the bridge, and stays
  apply (over_getPropString admits 0 nativeFuncKey).bind
  intro native
  refine .ite (fun _ => (over_popN 3).bind fun _ => .pure fun ctx here => here) fun _ => ?_
  -- [ global, func, native_func ]
  apply (over_popN 2).bind
  intro _
  apply (over_delPropString fun w => admits.ours (.inl rfl) w funcName none).bind
  intro _
  exact over_pop.bind fun _ => .pure fun ctx here => here

theorem over_pushAttr (attr : ModuleAttr) :
    Turns R w₀ known (pushAttr host attr) (none :: known) := by
  unfold pushAttr
  cases attr.fmt with
  | none | bool | int | double => exact over_pushAny _
  | zstring => exact over_pushString _
  | lstring => exact over_pushLstring _ _
  | buffer => exact over_pushNodeBuffer admits _ _
  | ecmafunc => exact (over_getGlobalString admits _).bind fun _ => .pure fun ctx here => here
  | jarray | jobject | error | mobject => exact over_pushJson admits _ _

theorem within_jsRegisterVar (varName : Bytes) (valType : ArgFormat) (val valSize : Word) :
    Within R (jsRegisterVar host varName valType val valSize) := by
  refine within_of_turns admits [] fun w₀ => ?_
  apply over_pushGlobal.bind
  intro _
  have added : Turns R w₀ [some (.object globalId)]
      (jsAddModuleAttr host ⟨varName, valType, val, valSize⟩) [some (.object globalId)] :=
    (over_pushAttr admits _).bind fun _ => over_putPropString rfl (admits.takes (.inl rfl) varName)
  apply added.bind
  intro _
  exact over_pop.bind fun _ => .pure fun ctx here => here

theorem over_putPointer {id : Nat} (ours : Ours R w₀ id) (p : Word) (key : Bytes) :
    Turns R w₀ (some (.object id) :: known) (putPointer host p key) (some (.object id) :: known) :=
  (over_pushAny _).bind fun _ => over_putPropString rfl (admits.takes ours key)

theorem within_jsAddModuleLoader (udd : Word) (modExt : Bytes)
    (loadModule getMethodsList getAttrsList finalizer : Word) :
    Within R (jsAddModuleLoader host udd modExt loadModule getMethodsList getAttrsList
      finalizer) := by
  refine within_of_turns admits [] fun w₀ => ?_
  apply over_pushGlobal.bind
  intro _
  apply (over_getPropString admits 0 nativeModCountKey).bind
  intro found
  have counts : Turns R w₀ [none, some (.object globalId)] requireInt [none, some (.object globalId)] := by
    apply (over_getAt 0).bind
    intro v
    cases v with
    | number d => exact .pure fun ctx here => here
    | _ => exact over_raise
  have counted : ∀ loaderCount, Turns R w₀ [none, some (.object globalId)] (do
      pop
      pushInt (loaderCount + 1)
      putPropString host 1 nativeModCountKey
      pushObject
      pushBytes modExt
      putPropString host 1 (ascii "_nme_")
      putPointer host loadModule (ascii "_nml_")
      putPointer host getMethodsList (ascii "_nmm_")
      putPointer host getAttrsList (ascii "_nma_")
      putPointer host finalizer (ascii "_nmf_")
      putPointer host udd (ascii "_nu_")
      putPropString host 1 (getNativeModNum (sizeOfInt loaderCount))
      pop) [] := by
    intro loaderCount
    apply over_pop.bind
    intro _
    apply (over_pushAny _).bind
    intro _
    apply (over_putPropString rfl (admits.takes (.inl rfl) nativeModCountKey)).bind
    intro _
    -- [ global, loader ], whose properties come and go one by one
    apply over_pushNew_bind admits.allocates
    intro loader new
    have ours : Ours R w₀ loader := .inr new
    apply (over_pushBytes modExt).bind
    intro _
    apply (over_putPropString rfl (admits.takes ours _)).bind
    intro _
    apply (over_putPointer admits ours _ _).bind
    intro _
    apply (over_putPointer admits ours _ _).bind
    intro _
    apply (over_putPointer admits ours _ _).bind
    intro _
    apply (over_putPointer admits ours _ _).bind
    intro _
    apply (over_putPointer admits ours _ _).bind
    intro _
    apply (over_putPropString rfl (admits.takes (.inl rfl) _)).bind
    intro _
    exact over_pop
  -- the count of loaders, or 0 for the first one
  exact .ite (fun _ => counts.bind counted) fun _ => counted 0

theorem within_destroyObject (funcIndex : Word) :
    Within R (destroyObject funcIndex : Duk H Unit) := by
  refine within_of_turns admits [] fun w₀ => ?_
  apply over_pushGlobal.bind
  intro _
  apply (over_delPropString fun w => admits.ours (.inl rfl) w _ none).bind
  intro _
  exact over_pop

/-! ### Calls and scripts -/

theorem within_callResultCallback : Within R (callResultCallback host) := by
  have respects := admits.toRespects
  have saves : Within R (saveTopObject host) := by
    apply within_saveTopObject respects
    -- the function is saved in the global object
    intro key v
    exact within_writePropTo respects.refl (fun w slot => admits.global w key slot)
      fun w free outcome => admits.writeThrough w free globalId key v outcome
  intro s
  exact callResultCallback_within respects
    fun id _ _ => within_saveFunction respects saves (.object id) s

theorem within_deliver (callFuncRes : Bool) : Within R (deliver host callFuncRes) := by
  have respects := admits.toRespects
  refine .ite ?_ (within_pure respects _)
  exact within_bind respects (within_callResultCallback admits) fun _ => within_pure respects _

theorem within_delivered (callFuncRes : Bool) (status : Int32) :
    Within R (do
      let delivered ← deliver host callFuncRes
      pop
      return (status, delivered)) := by
  have respects := admits.toRespects
  apply within_bind respects (within_deliver admits callFuncRes)
  intro delivered
  exact within_andThen respects (within_popN respects 1) (within_pure respects _)

theorem within_pushArgsAndCallFunc (callFuncRes : Bool) (fmt : Option Bytes) (argv : List Word) :
    Within R (pushArgsAndCallFunc host callFuncRes fmt argv) := by
  have respects := admits.toRespects
  have calls : ∀ argc, Within R (callFunc host argc callFuncRes) := fun argc =>
    within_bind respects (within_pcall respects argc) fun rc => within_delivered admits _ _
  cases fmt with
  | none => exact calls 0
  | some fmt =>
    exact within_bind respects (within_pushArgs respects admits.createInstance argv fmt 0 0) calls

theorem within_jsCallFileFunc (scriptFile : Bytes) (callFuncRes : Bool) (fmt : Option Bytes)
    (argv : List Word) : Within R (jsCallFileFunc host scriptFile callFuncRes fmt argv) := by
  have respects := admits.toRespects
  unfold jsCallFileFunc
  cases host.readFileContent scriptFile with
  | error ret => exact within_pure respects _
  | ok src =>
    apply within_bind respects (within_pcompileLstring respects .function src)
    intro rc
    refine .ite ?_ (within_pushArgsAndCallFunc admits callFuncRes fmt argv)
    -- what is thrown by the compiler is not delivered
    apply within_andThen respects (within_safeToString respects)
    exact within_andThen respects (within_popN respects 1) (within_pure respects _)

theorem within_jsEval (jsCode : Option Bytes) (callFuncRes : Bool) :
    Within R (jsEval host jsCode callFuncRes) :=
  within_bind admits.toRespects (within_pevalLstring admits.toRespects jsCode)
    fun _ => within_delivered admits callFuncRes _

theorem within_fileNotRead (scriptFile : Bytes) (ret : Int32) (callFuncRes : Bool) :
    Within R (fileNotRead host scriptFile ret callFuncRes) := by
  have respects := admits.toRespects
  refine .ite ?_ (within_pure respects _)
  apply within_andThen respects (within_pushErrorObject respects _)
  apply within_bind respects (within_callResultCallback admits)
  intro delivered
  exact within_andThen respects (within_popN respects 1) (within_pure respects _)

theorem within_jsEvalFile (scriptFile : Bytes) (callFuncRes : Bool) :
    Within R (jsEvalFile host scriptFile callFuncRes) := by
  unfold jsEvalFile
  cases host.readFileContent scriptFile with
  | error ret => exact within_fileNotRead admits scriptFile ret callFuncRes
  | ok src => exact within_jsEval admits src callFuncRes

theorem within_jsCheckSyntax (jsCode : Option Bytes) (callFuncRes : Bool) :
    Within R (jsCheckSyntax host jsCode callFuncRes) := by
  have respects := admits.toRespects
  apply within_bind respects (within_pcompileLstring respects .program jsCode)
  intro ret
  refine .ite ?_ (within_delivered admits callFuncRes _)
  -- `undefined` takes the place of the program
  apply within_andThen respects (within_push respects _)
  exact within_andThen respects (within_removeAt respects 1) (within_delivered admits callFuncRes _)

theorem within_jsCheckSyntaxFile (scriptFile : Bytes) (callFuncRes : Bool) :
    Within R (jsCheckSyntaxFile host scriptFile callFuncRes) := by
  unfold jsCheckSyntaxFile
  cases host.readFileContent scriptFile with
  | error ret => exact within_fileNotRead admits scriptFile ret callFuncRes
  | ok src => exact within_jsCheckSyntax admits src callFuncRes

theorem HostCall.within (call : HostCall) : Within R (call.run host) := by
  have respects := admits.toRespects
  have calls := within_pushArgsAndCallFunc admits
  -- the status is dropped
  have drops : ∀ {γ : Type} {m : Duk H γ}, Within R m → Within R (do let _ ← m) :=
    fun within => within_bind respects within fun _ => within_pure respects _
  cases call with
  | registerVar => exact drops (within_jsRegisterVar admits _ _ _ _)
  | registerCodeFunc => exact drops (within_jsRegisterCodeFunc admits _ _)
  | registerFileFunc => exact drops (within_jsRegisterFileFunc admits _ _)
  | unregisterFunc => exact drops (within_jsUnregisterFunc admits _)
  | registerNativeFunc => exact drops (within_jsRegisterNativeFunc admits _ _ _ _)
  | unregisterNativeFunc => exact drops (within_jsUnregisterNativeFunc admits _)
  | callRegisteredFunc funcName callFuncRes fmt argv =>
    apply drops
    apply within_bind respects (within_getGlobalString respects funcName)
    intro found
    exact .ite (within_pure respects _) (calls callFuncRes fmt argv)
  | callFileFunc => exact drops (within_jsCallFileFunc admits _ _ _ _)
  | callEcmascriptFunc ecmaFunc callFuncRes fmt argv =>
    apply drops
    apply within_bind respects (within_loadObject respects ecmaFunc)
    intro found
    exact calls callFuncRes fmt argv
  | eval => exact drops (within_jsEval admits _ _)
  | evalFile => exact drops (within_jsEvalFile admits _ _)
  | checkSyntax => exact drops (within_jsCheckSyntax admits _ _)
  | checkSyntaxFile => exact drops (within_jsCheckSyntaxFile admits _ _)
  | addModuleLoader => exact within_jsAddModuleLoader admits _ _ _ _ _ _
  | destroyEcmascriptObj => exact within_destroyObject admits _

/-- Each state of a run is related to those after it. -/
theorem HostRun.pairwise {env : Ctx H} {calls : List (HostCall × Ctx H)}
    (run : HostRun host env calls) :
    (env :: calls.map Prod.snd).Pairwise fun s t => R s.world t.world := by
  induction calls generalizing env with
  | nil => exact List.pairwise_singleton _ _
  | cons step rest ih =>
    obtain ⟨call, t⟩ := step
    obtain ⟨returned, others⟩ := run
    have first : R env.world t.world := (HostCall.within admits call).of_ok returned
    have later := ih others
    -- what the first call did comes before all that is done after it
    refine List.pairwise_cons.mpr ⟨?_, later⟩
    intro s member
    rcases List.mem_cons.mp member with rfl | further
    · exact first
    · exact admits.trans first ((List.pairwise_cons.mp later).1 s further)

end Functions

end DukBridge
