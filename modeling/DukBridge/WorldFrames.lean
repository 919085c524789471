import DukBridge.DuktapeRules
import DukBridge.HandleTable
import DukBridge.HostCalls
import DukBridge.PushRules

/-!
# What the calls of the API may do to the world

A relation between worlds that the clock, allocation and the computations of the host respect is
respected by every call of the API that writes no property. There is one rule for each call,
however it ends.
-/
namespace DukBridge

open Effect

variable {H α β : Type} {R : World H → World H → Prop} {host : Host H}

/-- However the program ends, it has changed the world within `R`. -/
abbrev Within (R : World H → World H → Prop) (m : Duk H α) : Prop :=
  Leads (fun s t => R s.world t.world) m

/-- Wherever the computation ends, it got there within `R`. -/
def Outcome.Within (R : World H → World H → Prop) (w : World H) : Outcome H α → Prop
  | .returns _ w' _ => R w w'
  | .throws _ w' _ => R w w'
  | .never => True

/-- The relation is respected by all that happens without a write of the bridge. -/
structure Host.Respects (host : Host H) (R : World H → World H → Prop) : Prop where
  refl : ∀ w, R w w
  trans : ∀ {w₁ w₂ w₃}, R w₁ w₂ → R w₂ w₃ → R w₁ w₃
  clock : ∀ w, R w { w with reads := w.reads + 1 }
  allocation : ∀ w o, R w { w.setObject w.nextId o with nextId := w.nextId + 1 }
  call : ∀ w free this func args, (host.call w free this func args).Within R w
  compile : ∀ w free mode src filename, (host.compile w free mode src filename).Within R w
  jsonEncode : ∀ w free v, (host.jsonEncode w free v).Within R w
  jsonDecode : ∀ w free text, (host.jsonDecode w free text).Within R w
  readThrough : ∀ w free target key, (host.readThrough w free target key).Within R w
  errorObject : ∀ w free message, (host.errorObject w free message).Within R w
  safeToString : ∀ w free v s w' reserved,
    host.safeToString w free v = some (s, w', reserved) → R w w'

theorem Outcome.Within.run {outcome : Outcome H α} {s : Ctx H} (within : outcome.Within R s.world)
    (refl : ∀ w, R w w) : R s.world (endState (outcome.run s)).world := by
  cases outcome with
  | never => exact refl _
  | _ => exact within

/-- A write to an object that takes it, where nothing else does. -/
theorem within_writePropTo {id : Nat} {key : Bytes} {v : JsVal} (refl : ∀ w, R w w)
    (own : ∀ w slot, R w (w.setOwn id key slot))
    (through : ∀ w free outcome, host.writeThrough w free id key v = some outcome →
      outcome.Within R w) : Within R (writeProp host (.object id) key v) := by
  refine .get_bind fun s => ?_
  have written : ∀ outcome, host.writeThrough s.world s.free id key v = some outcome →
      R s.world (endState (outcome.run s)).world :=
    fun outcome taken => (through _ _ _ taken).run refl
  -- a setter takes the write, the object itself does, or nothing changes
  cases slot : (s.world.objects id).own key with
  | none =>
    cases taken : host.writeThrough s.world s.free id key v with
    | some outcome =>
      simp only [slot, taken]
      exact written outcome taken
    | none =>
      simp only [slot, taken]
      split
      · exact own _ _
      · exact refl _
  | some slot' =>
    cases slot' with
    | data v' writable configurable =>
      cases writable <;> simp only [slot]
      · exact refl _
      · exact own _ _
    | accessor configurable =>
      cases taken : host.writeThrough s.world s.free id key v with
      | some outcome =>
        simp only [slot, taken]
        exact written outcome taken
      | none =>
        simp only [slot, taken]
        exact refl _

section Rules

variable (respects : host.Respects R)
include respects

theorem within_pure (a : α) : Within R (pure a : Duk H α) :=
  fun s => respects.refl s.world

theorem within_throw (e : Fault) : Within R (throw e : Duk H α) :=
  fun s => respects.refl s.world

theorem within_raise (e : DukError) : Within R (raise e : Duk H α) := within_throw respects _

theorem within_bind {m : Duk H α} {f : α → Duk H β} (first : Within R m)
    (rest : ∀ a, Within R (f a)) : Within R (m >>= f) := by
  apply Leads.bind _ first rest
  exact respects.trans

theorem within_andThen {m : Duk H α} {n : Duk H β} (first : Within R m) (rest : Within R n) :
    Within R (m >>= fun _ => n) :=
  within_bind respects first fun _ => rest

/-! ### The stack -/

theorem within_requireRoom (n : Nat) : Within R (requireRoom n : Duk H Unit) := by
  intro s
  rw [requireRoom_run]
  split <;> exact respects.refl _

theorem within_push (v : JsVal) : Within R (push v : Duk H Unit) := by
  intro s
  rw [push_run]
  split <;> exact respects.refl _

theorem within_popN (n : Nat) : Within R (popN n : Duk H Unit) := by
  intro s
  rw [popN_run]
  split <;> exact respects.refl _

theorem within_getAt (i : Nat) : Within R (getAt i : Duk H JsVal) := fun _ => respects.refl _

theorem within_setAt (i : Nat) (v : JsVal) : Within R (setAt i v : Duk H Unit) :=
  fun _ => respects.refl _

theorem within_removeAt (i : Nat) : Within R (removeAt i : Duk H Unit) := by
  refine .get_bind fun s => ?_
  split <;> exact respects.refl _

/-! ### The host -/

theorem outcome_run_within {outcome : Outcome H α} {s : Ctx H} (within : outcome.Within R s.world) :
    R s.world (endState (outcome.run s)).world := within.run respects.refl

theorem outcome_protect_within {outcome : Outcome H JsVal} {s : Ctx H}
    (within : outcome.Within R s.world) : R s.world (endState (outcome.protect s)).world := by
  cases outcome with
  | never => exact respects.refl _
  | _ => exact within

theorem outcome_bind_within {outcome : Outcome H α} {f : α → Duk H β} {s : Ctx H}
    (within : outcome.Within R s.world) (rest : ∀ a, Within R (f a)) :
    R s.world (endState ((outcome.run >>= f) s)).world := by
  have first := outcome_run_within respects within
  rw [bind_run]
  cases ran : outcome.run s with
  | ok a s' =>
    rw [ran] at first
    exact respects.trans first (rest a s')
  | error e s' =>
    rw [ran] at first
    exact first

theorem protect_bind_within {outcome : Outcome H JsVal} {f : JsVal × Int32 → Duk H β} {s : Ctx H}
    (within : outcome.Within R s.world) (rest : ∀ r, Within R (f r)) :
    R s.world (endState ((outcome.protect >>= f) s)).world := by
  have first := outcome_protect_within respects within
  rw [bind_run]
  cases ran : outcome.protect s with
  | ok r s' =>
    rw [ran] at first
    exact respects.trans first (rest r s')
  | error e s' =>
    rw [ran] at first
    exact first

/-! ### Values -/

theorem within_pushBytes (s : Bytes) : Within R (pushBytes s : Duk H Unit) := by
  apply within_andThen respects (within_requireRoom respects 1)
  exact .ite (within_push respects _) (within_raise respects _)

theorem within_pushString (addr : Word) : Within R (pushString host addr) :=
  .ite (within_push respects _) (within_pushBytes respects _)

theorem within_pushLstring (addr len : Word) : Within R (pushLstring host addr len) := by
  apply within_andThen respects (within_requireRoom respects 1)
  exact .ite (within_push respects _) (within_raise respects _)

theorem within_pushNew (shape : ObjShape) (native : Option (CFunction × Int32)) :
    Within R (pushNew shape native : Duk H Unit) := by
  refine .get_bind fun s => ?_
  rw [bind_run, push_run]
  by_cases room : s.height + 1 ≤ s.reserve
  · rw [if_pos room]
    exact respects.allocation s.world ⟨shape, fun _ => none, true, native⟩
  · rw [if_neg room]
    exact respects.refl _

theorem within_toBuffer : Within R (toBuffer : Duk H Unit) := by
  apply within_bind respects (within_getAt respects 0)
  intro v
  cases v with
  | string s =>
    refine .ite (within_raise respects _) ?_
    apply within_andThen respects (within_requireRoom respects 1)
    exact .ite (within_setAt respects 0 _) (within_raise respects _)
  | buffer data => exact within_pure respects _
  | _ => exact within_raise respects _

theorem within_pushBufferObject (len : Word) : Within R (pushBufferObject len : Duk H Unit) := by
  apply within_bind respects (within_getAt respects 0)
  intro v
  cases v with
  | buffer data => exact .ite (within_pushNew respects _ _) (within_raise respects _)
  | _ => exact within_raise respects _

/-! ### Properties -/

theorem within_readProp (target : JsVal) (key : Bytes) : Within R (readProp host target key) := by
  refine .get_bind fun s => ?_
  have through := respects.readThrough s.world s.free
  cases target with
  | undefined | null => exact respects.refl _
  | object id =>
    cases own : (s.world.objects id).own key with
    | none =>
      simp only [own]
      refine outcome_bind_within respects (through _ _) fun v => ?_
      cases v <;> exact within_pure respects _
    | some slot =>
      cases slot with
      | data v writable configurable =>
        simp only [own]
        exact respects.refl _
      | accessor configurable =>
        simp only [own]
        refine outcome_bind_within respects (through _ _) fun v => ?_
        cases v <;> exact within_pure respects _
  | _ =>
    refine outcome_bind_within respects (through _ _) fun v => ?_
    cases v <;> exact within_pure respects _

theorem within_getPropString (i : Nat) (key : Bytes) : Within R (getPropString host i key) := by
  apply within_andThen respects (within_requireRoom respects 2)
  apply within_bind respects (within_getAt respects i)
  intro target
  apply within_bind respects (within_readProp respects target key)
  rintro ⟨v, found⟩
  cases found with
  | true =>
    apply within_andThen respects (within_requireRoom respects 3)
    exact within_andThen respects (within_push respects v) (within_pure respects _)
  | false => exact within_andThen respects (within_push respects v) (within_pure respects _)

theorem within_getGlobalString (key : Bytes) : Within R (getGlobalString host key) := by
  apply within_andThen respects (within_requireRoom respects 3)
  apply within_bind respects (within_readProp respects _ key)
  rintro ⟨v, found⟩
  cases found with
  | true =>
    apply within_andThen respects (within_requireRoom respects 4)
    exact within_andThen respects (within_push respects v) (within_pure respects _)
  | false => exact within_andThen respects (within_push respects v) (within_pure respects _)

theorem within_loadObject (funcIndex : Word) : Within R (loadObject host funcIndex) :=
  within_getGlobalString respects _

theorem within_writeProp (own : ∀ w id key slot, R w (w.setOwn id key slot))
    (through : ∀ w free id key v outcome, host.writeThrough w free id key v = some outcome →
      outcome.Within R w) (target : JsVal) (key : Bytes) (v : JsVal) :
    Within R (writeProp host target key v) := by
  cases target with
  | object id =>
    exact within_writePropTo respects.refl (fun w slot => own w id key slot)
      fun w free outcome => through w free id key v outcome
  | _ => exact .get_bind fun s => respects.refl _

theorem within_putGlobalString {key : Bytes}
    (writes : ∀ v, Within R (writeProp host (.object globalId) key v)) :
    Within R (putGlobalString host key) := by
  apply within_andThen respects (within_requireRoom respects 3)
  refine .get_bind fun s => ?_
  cases stack : s.stack with
  | nil => exact respects.refl _
  | cons v rest =>
    have put := within_andThen respects (writes v)
      (n := modify fun ctx : Ctx H => { ctx with stack := rest }) fun _ => respects.refl _
    exact put s

theorem within_saveTopObject
    (writes : ∀ key v, Within R (writeProp host (.object globalId) key v)) :
    Within R (saveTopObject host) := by
  have clock : Within R (gettimeofday host) := fun s => respects.clock s.world
  apply within_bind respects clock
  intro tv
  exact within_andThen respects (within_putGlobalString respects (writes _)) (within_pure respects _)

/-! ### Code and JSON -/

theorem within_pcall (nargs : Nat) : Within R (pcall host nargs) := by
  refine .get_bind fun s => ?_
  by_cases enough : nargs + 1 ≤ s.height
  · rw [if_pos enough]
    refine protect_bind_within respects (respects.call _ _ _ _ _) fun r => ?_
    apply within_andThen respects (within_popN respects _)
    exact within_andThen respects (within_push respects _) (within_pure respects _)
  · rw [if_neg enough]
    exact respects.refl _

theorem within_pcompileLstring (mode : CompileMode) (src : Option Bytes) :
    Within R (pcompileLstring host mode src) := by
  apply within_andThen respects (within_requireRoom respects 1)
  refine .get_bind fun s => protect_bind_within respects (respects.compile _ _ _ _ _) fun r => ?_
  exact within_andThen respects (within_push respects _) (within_pure respects _)

theorem within_pevalLstring (src : Option Bytes) : Within R (pevalLstring host src) := by
  apply within_bind respects (within_pcompileLstring respects .eval src)
  intro rc
  refine .ite ?_ (within_pure respects _)
  apply within_andThen respects (within_requireRoom respects 1)
  refine .get_bind fun s => protect_bind_within respects (respects.call _ _ _ _ _) fun r => ?_
  exact within_andThen respects (within_setAt respects 0 _) (within_pure respects _)

theorem within_jsonEncode (i : Nat) : Within R (DukBridge.jsonEncode host i) := by
  refine .get_bind fun s => outcome_bind_within respects (respects.jsonEncode _ _ _) fun text => ?_
  cases text <;> exact within_setAt respects i _

theorem within_jsonDecode : Within R (DukBridge.jsonDecode host) := by
  refine .get_bind fun s => ?_
  cases top : s.get 0 with
  | string text =>
    exact outcome_bind_within respects (respects.jsonDecode _ _ _) (within_setAt respects 0)
  | _ => exact respects.refl _

theorem within_safeToString : Within R (DukBridge.safeToString host) := by
  apply within_andThen respects (within_requireRoom respects 1)
  refine .get_bind fun s => ?_
  cases converted : host.safeToString s.world s.free (s.get 0) with
  | some out =>
    obtain ⟨text, w, reserved⟩ := out
    exact respects.safeToString _ _ _ _ _ _ converted
  | none => exact respects.refl _

theorem within_pushErrorObject (message : Bytes) : Within R (pushErrorObject host message) := by
  apply within_andThen respects (within_requireRoom respects 1)
  exact .get_bind fun s => outcome_bind_within respects (respects.errorObject _ _ _)
    (within_push respects)

/-! ### Arguments and results -/

theorem within_pushNodeBuffer (addr len : Word) : Within R (pushNodeBuffer host addr len) := by
  apply within_andThen respects (within_pushLstring respects addr len)
  apply within_andThen respects (within_toBuffer respects)
  apply within_andThen respects (within_pushBufferObject respects len)
  exact within_removeAt respects 1

theorem within_pushJson (addr len : Word) : Within R (pushJson host addr len) :=
  within_andThen respects (within_pushLstring respects addr len) (within_jsonDecode respects)

theorem within_pushArg (arg : CArg)
    (instances : ∀ udd create, arg = .mobject udd create → Within R (pushInstance host create udd)) :
    Within R (pushArg host arg) := by
  cases arg with
  | none | bool d | int d | double d => exact within_push respects _
  | zstring s => exact within_pushString respects s
  | lstring l s => exact within_pushLstring respects s l
  | error l s => exact within_raise respects _
  | buffer l s => exact within_pushNodeBuffer respects s l
  | ecmafunc funcIndex =>
    exact within_bind respects (within_loadObject respects funcIndex) fun _ => within_pure respects _
  | mobject udd create => exact instances udd create rfl
  | json l s => exact within_pushJson respects s l

theorem within_pushInstance
    (creates : ∀ w free create udd, (host.createInstance w free create udd).Within R w)
    (create udd : Word) : Within R (pushInstance host create udd) := by
  refine .ite (within_push respects _) ?_
  refine .get_bind fun s => outcome_bind_within respects (creates _ _ _ _) fun created => ?_
  cases created <;> exact within_push respects _

theorem within_pushArgs
    (creates : ∀ w free create udd, (host.createInstance w free create udd).Within R w)
    (argv : List Word) (fmt : Bytes) (i argc : Nat) : Within R (pushArgs host argv fmt i argc) := by
  induction fmt generalizing i argc with
  | nil => exact within_pure respects _
  | cons c fmt ih =>
    refine .ite (within_pure respects _) ?_
    apply within_andThen respects _ (ih _ _)
    exact within_pushArg respects _ fun udd create _ =>
      within_pushInstance respects creates create udd

theorem within_pushResult
    (creates : ∀ w free create udd, (host.createInstance w free create udd).Within R w)
    (out : NativeResult) : Within R (pushResult host out) := by
  rw [pushResult]
  have one : Within R (pure 1 : Duk H Nat) := within_pure respects 1
  cases out.resType with
  | none => exact within_pure respects 0
  | bool | int | double => exact within_andThen respects (within_push respects _) one
  | string => exact within_andThen respects (within_pushLstring respects _ _) one
  | buffer => exact within_andThen respects (within_pushNodeBuffer respects _ _) one
  | func => exact within_bind respects (within_loadObject respects _) fun _ => one
  | error => exact within_raise respects _
  | mobject => exact within_andThen respects (within_pushInstance respects creates _ _) one
  | object | array => exact within_andThen respects (within_pushJson respects _ _) one

theorem within_getNativeFunc (currentFunction : JsVal) :
    Within R (getNativeFunc host currentFunction) := by
  apply within_andThen respects (within_push respects _)
  apply within_bind respects (within_getPropString respects 0 _)
  intro _
  apply within_bind respects (within_getPropString respects 1 _)
  intro _
  apply within_bind respects (within_getAt respects 1)
  intro _
  apply within_bind respects (within_getAt respects 0)
  intro _
  exact within_andThen respects (within_popN respects 3) (within_pure respects _)

theorem within_marshalJson (k : Nat) (array : Bool) : Within R (marshalJson host k array) := by
  apply within_andThen respects (within_jsonEncode respects k)
  refine .get_bind fun s => ?_
  cases s.get k <;> exact respects.refl _

/-- Apart from the save of a function. -/
theorem marshalArg_within {s : Ctx H} {k : Nat}
    (noFunction : ∀ id, s.get k = .object id →
      (s.world.objects id).shape.ecmascriptFunction = false) :
    R s.world (endState (marshalArg host k s)).world := by
  rw [marshalArg, bind_ok (get_run s)]
  cases v : s.get k with
  | pointer p | lightfunc id => exact within_marshalJson respects k false s
  | object id =>
    dsimp only
    rw [noFunction id v, if_neg Bool.false_ne_true]
    cases (s.world.objects id).shape.bufferData with
    | some data => exact respects.refl _
    | none => exact within_marshalJson respects k _ s
  | _ => exact respects.refl _

theorem within_deliverJson (array : Bool) : Within R (deliverJson host array) := by
  apply within_andThen respects (within_jsonEncode respects 0)
  refine .get_bind fun s => ?_
  cases s.get 0 <;> exact respects.refl _

/-- The function on top, copied and saved. -/
def saveFunction (host : Host H) (v : JsVal) : Duk H Word := do
  pushNull
  setAt 0 v
  saveTopObject host

theorem within_saveFunction (saves : Within R (saveTopObject host)) (v : JsVal) :
    Within R (saveFunction host v) := by
  apply within_andThen respects (within_push respects .null)
  exact within_andThen respects (within_setAt respects 0 v) saves

/-- Apart from the save of a function. -/
theorem callResultCallback_within {s : Ctx H}
    (saves : ∀ id, s.get 0 = .object id → (s.world.objects id).shape.ecmascriptFunction = true →
      R s.world (endState (saveFunction host (.object id) s)).world) :
    R s.world (endState (callResultCallback host s)).world := by
  rw [callResultCallback, bind_ok (get_run s)]
  cases top : s.get 0 with
  | pointer p | lightfunc id => exact within_deliverJson respects false s
  | object id =>
    dsimp only
    by_cases function : (s.world.objects id).shape.ecmascriptFunction = true
    · have saved := saves id top function
      rw [if_pos function]
      -- the branch is the save, with its handle delivered
      have same : (do
          pushNull
          setAt 0 (.object id)
          let funcIndex ← saveTopObject host
          return { resType := .func, res := .word funcIndex, len := none } : Duk H Delivered) =
          saveFunction host (.object id) >>= fun funcIndex =>
            pure { resType := .func, res := .word funcIndex, len := none } := by
        simp only [saveFunction, bind_assoc]
      rw [same, bind_run]
      cases ran : saveFunction host (.object id) s with
      | ok h t =>
        rw [ran] at saved
        exact saved
      | error e t =>
        rw [ran] at saved
        exact saved
    · rw [if_neg function]
      cases buffer : (s.world.objects id).shape.bufferData with
      | some data => exact respects.refl _
      | none =>
        dsimp only
        by_cases error : (s.world.objects id).shape.error = true
        · rw [if_pos error]
          have text := within_bind respects (within_safeToString respects)
            (f := fun text => do
              return Delivered.bytes .error (host.address (← get).world (.string text)) text)
            fun text t => respects.refl _
          exact text s
        · rw [if_neg error]
          exact within_deliverJson respects _ s
  | _ => exact respects.refl _

end Rules

end DukBridge
