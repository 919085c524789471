import DukBridge.DuktapeRules
import DukBridge.Lib.KeyStore
import Mathlib.Logic.Relation

/-!
# save_top_object, load_object and destroy_object

Objects handed to the host are kept alive as hidden properties of the global object.
The handle of an object is the microsecond at which it was saved.
-/
namespace DukBridge

open Effect KeyStore

/-! ### Hidden symbols -/

/-- `"%lu"` -/
def decimal (n : Nat) : Bytes := (Nat.toDigits 10 n).map fun c => UInt8.ofNat c.toNat

def createHiddenSymbol (type : Bytes) (index : Word) : Bytes :=
  0xFF :: (type ++ decimal index.toNat)

def getEcmaObjNum (index : Word) : Bytes := createHiddenSymbol (ascii "_eo_") index

def getNativeModNum (index : Word) : Bytes := createHiddenSymbol (ascii "_nm_") index

private theorem digit_round_trip {c : Char} (digit : c.isDigit) :
    Char.ofNat (UInt8.ofNat c.toNat).toNat = c := by
  simp only [Char.isDigit, Bool.and_eq_true, decide_eq_true_eq, UInt32.le_iff_toNat_le] at digit
  have upper : c.toNat ≤ 57 := digit.2
  rw [UInt8.toNat_ofNat', Nat.mod_eq_of_lt (by omega), Char.ofNat_toNat]

theorem decimal_injective {m n : Nat} (same : decimal m = decimal n) : m = n := by
  have recover : ∀ k, (decimal k).map (fun c => Char.ofNat c.toNat) = Nat.toDigits 10 k := by
    intro k
    rw [decimal, List.map_map]
    calc (Nat.toDigits 10 k).map _ = (Nat.toDigits 10 k).map id :=
          List.map_congr_left fun c member =>
            digit_round_trip (Nat.isDigit_of_mem_toDigits (by decide) (by decide) member)
      _ = Nat.toDigits 10 k := List.map_id _
  have digits : Nat.toDigits 10 m = Nat.toDigits 10 n := by
    rw [← recover m, ← recover n, same]
  have value := congrArg (fun ds => Nat.ofDigitChars 10 ds 0) digits
  simpa using value

theorem createHiddenSymbol_injective (type : Bytes) {i j : Word}
    (same : createHiddenSymbol type i = createHiddenSymbol type j) : i = j := by
  have digits := List.append_cancel_left (List.cons.inj same).2
  exact UInt64.toNat.inj (decimal_injective digits)

theorem getEcmaObjNum_ne {i j : Word} (other : i ≠ j) : getEcmaObjNum i ≠ getEcmaObjNum j :=
  fun same => other (createHiddenSymbol_injective _ same)

/-! ### The three functions -/

variable {H : Type} (host : Host H)

/-- `(unsigned long)tv.tv_sec * 1000000 + (unsigned long)tv.tv_usec` -/
def Timeval.micros (tv : Timeval) : Word := tv.sec.toUInt64 * 1000000 + tv.usec.toUInt64

def gettimeofday : Duk H Timeval := do
  let ctx ← get
  set { ctx with world := { ctx.world with reads := ctx.world.reads + 1 } }
  return host.gettimeofday ctx.world.reads

def saveTopObject : Duk H Word := do
  let tv ← gettimeofday host
  let funcIndex := tv.micros
  putGlobalString host (getEcmaObjNum funcIndex)
  return funcIndex

def loadObject (funcIndex : Word) : Duk H Bool :=
  getGlobalString host (getEcmaObjNum funcIndex)

def destroyObject (funcIndex : Word) : Duk H Unit := do
  pushGlobalObject
  let _ ← delPropString (getEcmaObjNum funcIndex)
  pop

/-- The object under a handle, as the global object has it. -/
def saved (ctx : Ctx H) (h : Word) : Option JsVal :=
  match ctx.global.own (getEcmaObjNum h) with
  | some (.data v _ _) => some v
  | _ => none

/-- Handle properties have no names script code could put on another object, so a read or a
write of one that the global object does not answer itself meets nothing. -/
structure PlainHandles : Prop where
  reads : ∀ w free h, host.readThrough w free (.object globalId) (getEcmaObjNum h) =
    .returns none w 0
  writes : ∀ w free h v, host.writeThrough w free globalId (getEcmaObjNum h) v = none

/-- The handle the next `saveTopObject` gives. -/
def nextHandle (ctx : Ctx H) : Word := (host.gettimeofday ctx.world.reads).micros

section Specs

variable {host} {ctx ctx' : Ctx H} {h : Word}

theorem saved_setOwn (stack : List JsVal) (reserve : Nat) (slot : Option PropSlot) :
    saved (⟨stack, reserve, ctx.world.setOwn globalId (getEcmaObjNum h) slot⟩ : Ctx H) =
      Function.update (saved ctx) h
        (match slot with
          | some (.data v _ _) => some v
          | _ => none) := by
  funext j
  by_cases same : j = h
  · subst same
    simp [saved, Ctx.global, World.setOwn, World.setObject]
  · -- another handle is another property
    have other := getEcmaObjNum_ne same
    simp [saved, Ctx.global, World.setOwn, World.setObject, same, other]

/-- A save that returns has read the clock, and moved the top value into the table under the
microsecond it read. -/
theorem saveTopObject_inv (plain : PlainHandles host)
    (returned : saveTopObject host ctx = .ok h ctx') :
    h = nextHandle host ctx ∧ ∃ v rest configurable, ctx.stack = v :: rest ∧
      ctx.global.accepts (getEcmaObjNum h) = some configurable ∧
      ctx' = ⟨rest, ctx.reserve, { ctx.world with reads := ctx.world.reads + 1 }.setOwn globalId
        (getEcmaObjNum h) (some (.data v true configurable))⟩ := by
  simp only [saveTopObject, gettimeofday, bind_run, get_run, set_run, pure_run] at returned
  rw [putGlobalString_run (fun w free v => plain.writes w free _ v)] at returned
  -- of the ways the put can end, only a write that was accepted returns
  split at returned
  · next u s stored =>
    cases returned
    split at stored
    · split at stored
      · next v rest configurable stack accepted =>
        cases stored
        exact ⟨rfl, v, rest, configurable, stack, accepted, rfl⟩
      · cases stored
      · cases stored
    · cases stored
  · cases returned

/-- Out of slots, an empty stack, or a write refused: nothing but the clock has moved. -/
theorem saveTopObject_error_inv (plain : PlainHandles host) {e : Fault}
    (threw : saveTopObject host ctx = .error e ctx') :
    ctx' = { ctx with world := { ctx.world with reads := ctx.world.reads + 1 } } := by
  simp only [saveTopObject, gettimeofday, bind_run, get_run, set_run, pure_run] at threw
  rw [putGlobalString_run (fun w free v => plain.writes w free _ v)] at threw
  split at threw
  · cases threw
  · next stored =>
    cases threw
    split at stored
    · split at stored <;> cases stored <;> rfl
    · cases stored
      rfl

/-- A save that returns gives the microsecond it read and stores the top value under it. -/
theorem saveTopObject_ok (plain : PlainHandles host)
    (returned : saveTopObject host ctx = .ok h ctx') :
    h = nextHandle host ctx ∧ ∃ v rest, ctx.stack = v :: rest ∧ ctx'.stack = rest ∧
      saved ctx' = Function.update (saved ctx) h (some v) := by
  obtain ⟨micros, v, rest, configurable, stack, _, rfl⟩ := saveTopObject_inv plain returned
  exact ⟨micros, v, rest, stack, rfl, saved_setOwn rest ctx.reserve _⟩

theorem saveTopObject_stack (returned : saveTopObject host ctx = .ok h ctx') :
    ∃ v, ctx.stack = v :: ctx'.stack := by
  obtain ⟨_, read, clock, stored⟩ := bind_eq_ok.mp returned
  obtain ⟨_, after, put, same⟩ := bind_eq_ok.mp stored
  cases clock
  cases same
  obtain ⟨v, stack⟩ := putGlobalString_stack put
  exact ⟨v, stack⟩

theorem saveTopObject_returns (plain : PlainHandles host) {v : JsVal} {rest : List JsVal}
    (stack : ctx.stack = v :: rest) :
    Returns (saveTopObject host) ctx ↔ ctx.height + 3 ≤ ctx.reserve ∧
      (ctx.global.accepts (getEcmaObjNum (nextHandle host ctx))).isSome := by
  -- reading the clock changes neither the stack nor the global object
  have clock : gettimeofday host ctx = .ok (host.gettimeofday ctx.world.reads)
      { ctx with world := { ctx.world with reads := ctx.world.reads + 1 } } := rfl
  rw [saveTopObject, returns_bind_of_ok clock,
    returns_bind_total fun _ s => returns_pure _ s]
  exact putGlobalString_returns (fun w free v => plain.writes w free _ v) stack

/-- A value can be copied to the top and saved: a slot for the copy, and three more for the put
onto the global object. -/
def Savable (host : Host H) (ctx : Ctx H) : Prop :=
  ctx.height + 4 ≤ ctx.reserve ∧
    (ctx.global.accepts (getEcmaObjNum (nextHandle host ctx))).isSome

theorem copyAndSave_returns (plain : PlainHandles host) {α : Type} (v : JsVal) (result : Word → α) :
    Returns (do pushNull; setAt 0 v; let h ← saveTopObject host; return result h) ctx ↔
      Savable host ctx := by
  by_cases room : ctx.height + 1 ≤ ctx.reserve
  · have copied : pushNull ctx = .ok () (ctx.pushed .null) := push_eq_ok.mpr ⟨room, rfl⟩
    rw [returns_bind_of_ok copied, returns_bind_of_ok (setAt_run 0 _),
      returns_bind_total fun _ s => returns_pure _ s]
    exact saveTopObject_returns plain rfl
  · have full : pushNull ctx = .error (.thrown .rangeError) ctx := by
      rw [pushNull, push_run, if_neg room]
    refine iff_of_false (not_returns_of_error (bind_error full _)) fun both => ?_
    have more := both.1
    omega

/-- A save that throws stores nothing. -/
theorem saveTopObject_error (plain : PlainHandles host) {e : Fault}
    (threw : saveTopObject host ctx = .error e ctx') : saved ctx' = saved ctx := by
  rw [saveTopObject_error_inv plain threw]
  rfl

theorem loadObject_live {v : JsVal} (found : saved ctx h = some v) :
    loadObject host h ctx = if ctx.height + 4 ≤ ctx.reserve then .ok true (ctx.pushed v)
      else .error (.thrown .rangeError) ctx := by
  unfold saved at found
  split at found
  · next own =>
    cases found
    exact getGlobalString_data own
  · cases found

theorem loadObject_gone (plain : PlainHandles host) (gone : saved ctx h = none) :
    loadObject host h ctx = if ctx.height + 3 ≤ ctx.reserve then .ok false (ctx.pushed .undefined)
      else .error (.thrown .rangeError) ctx := by
  refine getGlobalString_absent ?_ fun w free => plain.reads w free h
  intro w c v own
  simp [saved, own] at gone

/-- Loading leaves every handle as it is, also when it throws. -/
theorem loadObject_fixes (plain : PlainHandles host) :
    (∀ r, loadObject host h ctx = .ok r ctx' → saved ctx' = saved ctx) ∧
      ∀ e, loadObject host h ctx = .error e ctx' → saved ctx' = saved ctx := by
  cases held : saved ctx h with
  | some v =>
    rw [loadObject_live held]
    split <;> constructor <;> intro _ same <;> cases same <;> rfl
  | none =>
    rw [loadObject_gone plain held]
    split <;> constructor <;> intro _ same <;> cases same <;> rfl

theorem destroyObject_run : destroyObject h ctx =
    if ctx.height + 4 ≤ ctx.reserve then
      if ctx.global.deletes (getEcmaObjNum h) then
        .ok () { ctx with world := ctx.world.setOwn globalId (getEcmaObjNum h) none }
      else .error (.thrown .typeError) (ctx.pushed (.object globalId))
    else if ctx.height + 1 ≤ ctx.reserve then
      .error (.thrown .rangeError) (ctx.pushed (.object globalId))
    else .error (.thrown .rangeError) ctx := by
  -- a slot for the global object, then three for the deletion above it
  by_cases room1 : ctx.height + 1 ≤ ctx.reserve
  · have top : (ctx.pushed (.object globalId)).get 0 = .object globalId := rfl
    by_cases room : ctx.height + 4 ≤ ctx.reserve
    · simp only [destroyObject, pushGlobalObject, delPropString, bind_run, push_run, room1, room,
        if_true, requireRoom_run, Ctx.pushed_height, Ctx.pushed_reserve, Nat.add_assoc, getAt_run,
        top, deleteProp_run, Ctx.pushed_world, Ctx.global]
      by_cases deletes : (ctx.world.objects globalId).deletes (getEcmaObjNum h) = true
      · simp only [deletes, if_true, pure_run, pop, popN_run, Ctx.height_mk, Ctx.pushed_stack,
          List.length_cons, Nat.le_add_left]
        rfl
      · simp only [deletes, Bool.false_eq_true, if_false]
    · simp only [destroyObject, pushGlobalObject, delPropString, bind_run, push_run, room1, room,
        if_true, if_false, requireRoom_run, Ctx.pushed_height, Ctx.pushed_reserve, Nat.add_assoc]
  · have room4 : ¬ ctx.height + 4 ≤ ctx.reserve := by omega
    simp only [destroyObject, pushGlobalObject, bind_run, push_run, room1, room4, if_false]

theorem destroyObject_ok {u : Unit} (returned : destroyObject h ctx = .ok u ctx') :
    saved ctx' = Function.update (saved ctx) h none := by
  rw [destroyObject_run] at returned
  split at returned
  · split at returned
    · cases returned
      exact saved_setOwn _ _ none
    · cases returned
  · split at returned <;> cases returned

theorem destroyObject_error {e : Fault} (threw : destroyObject h ctx = .error e ctx') :
    saved ctx' = saved ctx := by
  rw [destroyObject_run] at threw
  split at threw
  · split at threw
    · cases threw
    · cases threw
      rfl
  · split at threw <;> (cases threw; rfl)

end Specs

/-! ### Runs -/

/-- `live` lists the objects saved and not yet destroyed under the handles given for them. -/
structure HandleState (H : Type) where
  ctx : Ctx H
  live : Ledger Word JsVal

inductive HandleCall where
  | save
  | load
  | destroy
  | other
deriving DecidableEq

/-- One call on the environment, returning or throwing. -/
inductive HandleStep : HandleCall → HandleState H → HandleState H → Prop where
  | save {s h v rest ctx'} (top : s.ctx.stack = v :: rest)
      (returned : saveTopObject host s.ctx = .ok h ctx') :
      HandleStep .save s ⟨ctx', (h, v) :: s.live⟩
  | saveThrows {s e ctx'} (threw : saveTopObject host s.ctx = .error e ctx') :
      HandleStep .save s ⟨ctx', s.live⟩
  | load {s h found ctx'} (returned : loadObject host h s.ctx = .ok found ctx') :
      HandleStep .load s ⟨ctx', s.live⟩
  | loadThrows {s h e ctx'} (threw : loadObject host h s.ctx = .error e ctx') :
      HandleStep .load s ⟨ctx', s.live⟩
  | destroy {s h ctx'} (returned : destroyObject h s.ctx = .ok () ctx') :
      HandleStep .destroy s ⟨ctx', s.live.remove h⟩
  | destroyThrows {s h e ctx'} (threw : destroyObject h s.ctx = .error e ctx') :
      HandleStep .destroy s ⟨ctx', s.live⟩
  -- whatever else the bridge and script code do in between; no script can name a handle property
  | other {s ctx'} (kept : saved ctx' = saved s.ctx) : HandleStep .other s ⟨ctx', s.live⟩

/-- A save reads a microsecond that is not the handle of a live object. -/
def FreshSave (call : HandleCall) (s : HandleState H) : Prop :=
  call = .save → nextHandle host s.ctx ∉ s.live.keys

abbrev HandleRun : HandleState H → HandleState H → Prop :=
  Relation.ReflTransGen fun s t => ∃ call, HandleStep host call s t

abbrev FreshHandleRun : HandleState H → HandleState H → Prop :=
  Relation.ReflTransGen fun s t => ∃ call, HandleStep host call s t ∧ FreshSave host call s

/-- Live handles differ, and each loads the object it was given for. -/
structure HandlesIntact (s : HandleState H) : Prop where
  distinct : s.live.keys.Nodup
  loads : ∀ h v, (h, v) ∈ s.live → s.ctx.height + 4 ≤ s.ctx.reserve →
    loadObject host h s.ctx = .ok true (s.ctx.pushed v)

variable {host}

theorem tracks_step (plain : PlainHandles host) {call : HandleCall} {s t : HandleState H}
    (step : HandleStep host call s t) (fresh : FreshSave host call s)
    (tracks : Tracks (saved s.ctx) s.live) : Tracks (saved t.ctx) t.live := by
  cases step with
  | save top returned =>
    obtain ⟨rfl, v, rest, stack, _, store⟩ := saveTopObject_ok plain returned
    rw [top] at stack
    cases stack
    -- the microsecond is no handle of the ledger yet
    simp only [store]
    exact tracks.insert (fresh rfl) _
  | saveThrows threw =>
    simp only [saveTopObject_error plain threw]
    exact tracks
  | load returned =>
    simp only [(loadObject_fixes plain).1 _ returned]
    exact tracks
  | loadThrows threw =>
    simp only [(loadObject_fixes plain).2 _ threw]
    exact tracks
  | destroy returned =>
    simp only [destroyObject_ok returned]
    exact tracks.remove _
  | destroyThrows threw =>
    simp only [destroyObject_error threw]
    exact tracks
  | other kept =>
    simp only [kept]
    exact tracks

theorem tracks_run (plain : PlainHandles host) {s t : HandleState H}
    (run : FreshHandleRun host s t) (start : Tracks (saved s.ctx) s.live) :
    Tracks (saved t.ctx) t.live := by
  induction run with
  | refl => exact start
  | tail _ step ih =>
    -- the last call of the run
    obtain ⟨call, step, fresh⟩ := step
    exact tracks_step plain step fresh ih

/-- In every run on one environment in which no save reads a microsecond that is still in use
as a handle, the handles of live objects differ and load their objects. -/
theorem handles_intact_of_fresh (plain : PlainHandles host) (env : Ctx H) (s : HandleState H)
    (run : FreshHandleRun host ⟨env, []⟩ s) : HandlesIntact host s := by
  have tracks := tracks_run plain run (Tracks.empty _)
  refine ⟨tracks.distinct, ?_⟩
  intro h v member room
  rw [loadObject_live (tracks.found h v member), if_pos room]

/-! ### Two functions saved one after the other -/

/-- A host without scripts and files, whose clock is given. -/
def idleHost (clock : Nat → Timeval) : Host Unit where
  mem _ := 0
  gettimeofday := clock
  readFileContent _ := .error (-1)
  call w _ _ _ _ := .returns .undefined w 0
  compile w _ _ _ _ := .returns .undefined w 0
  jsonEncode w _ _ := .returns none w 0
  jsonDecode w _ _ := .returns .null w 0
  readThrough w _ _ _ := .returns none w 0
  writeThrough _ _ _ _ _ := none
  errorObject w _ _ := .returns .undefined w 0
  safeToString w _ _ := some ([], w, 0)
  native w _ _ _ _ := .returns ⟨.none, 0, 0, none⟩ w 0
  address _ _ := 4096
  createInstance w _ _ _ := .returns none w 0
  mallocs _ := true

theorem idleHost_plain (clock : Nat → Timeval) : PlainHandles (idleHost clock) :=
  ⟨fun _ _ _ => rfl, fun _ _ _ _ => rfl⟩

/-- An idle host whose clock stands still. -/
abbrev stillHost : Host Unit := idleHost fun _ => ⟨0, 5⟩

/-- An environment as the host gets it: nothing on the stack, and the 110 slots that making the
heap reserved: one for each of its 78 built-in objects and 32 internal ones. -/
def freshEnvironment : Ctx Unit where
  stack := []
  reserve := 110
  world := ⟨fun _ => ⟨.plain, fun _ => none, true, none⟩, 3, 0, ()⟩

def twoObjects : Ctx Unit := { freshEnvironment with stack := [.object 1, .object 2] }

/-- Both saves may fall into one microsecond: the second object then answers for the first. -/
theorem handles_collide_on_repeated_reading :
    ∃ clock : Nat → Timeval, (∀ n, (clock n).micros ≤ (clock (n + 1)).micros) ∧
      PlainHandles (idleHost clock) ∧ ∃ s h,
        HandleRun (idleHost clock) ⟨twoObjects, []⟩ s ∧ (h, .object 1) ∈ s.live ∧
        loadObject (idleHost clock) h s.ctx = .ok true (s.ctx.pushed (.object 2)) ∧
        ¬ HandlesIntact (idleHost clock) s := by
  refine ⟨fun _ => ⟨0, 5⟩, fun _ => UInt64.le_refl _, idleHost_plain _, ?_⟩
  have start : HandleRun (idleHost fun _ => ⟨0, 5⟩) ⟨twoObjects, []⟩ ⟨twoObjects, []⟩ := .refl
  -- object 1 and then object 2, both under 5
  have first := start.tail ⟨.save, .save (h := 5) rfl rfl⟩
  have second := first.tail ⟨.save, .save (h := 5) rfl rfl⟩
  refine ⟨_, 5, second, by decide, rfl, ?_⟩
  intro intact
  exact absurd intact.distinct (by decide)

theorem handles_intact_of_fresh_twoObjects :
    ∃ s, FreshHandleRun (idleHost fun n => ⟨0, Int64.ofNat n⟩) ⟨twoObjects, []⟩ s ∧
      s.live = [(1, .object 2), (0, .object 1)] ∧
      HandlesIntact (idleHost fun n => ⟨0, Int64.ofNat n⟩) s := by
  have start : FreshHandleRun (idleHost fun n => ⟨0, Int64.ofNat n⟩) ⟨twoObjects, []⟩
    ⟨twoObjects, []⟩ := .refl
  have first := start.tail ⟨.save, .save (h := 0) rfl rfl, fun _ => by decide⟩
  have second := first.tail ⟨.save, .save (h := 1) rfl rfl, fun _ => by decide⟩
  exact ⟨_, second, rfl, handles_intact_of_fresh (idleHost_plain _) _ _ second⟩

end DukBridge
