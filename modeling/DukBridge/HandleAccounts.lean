import DukBridge.ArgumentTurns
import DukBridge.ResourceRelease
import DukBridge.WorldFrames

/-!
# Handles and who holds them

Every object in the table of handles was saved by some call. A call that comes to its end
should have given the handle to the Go program, which can destroy it. What the program holds
is a list kept beside the model, and each call is measured by what it does to the difference.
-/
namespace DukBridge

open Effect KeyStore

variable {H : Type} {host : Host H} {S σ : Type}

/-! ### The table and the program -/

/-- The table of handles. -/
def World.saved (w : World H) (h : Word) : Option JsVal :=
  match (w.objects globalId).own (getEcmaObjNum h) with
  | some (.data v _ _) => some v
  | _ => none

theorem saved_world (ctx : Ctx H) : saved ctx = ctx.world.saved := rfl

/-- The table lists what the program holds, and the `pending` handles of calls under way. -/
structure Balanced (held : H → Ledger Word JsVal) (pending : Ledger Word JsVal) (w : World H) :
    Prop where
  allocated : w.nextId ≠ globalId
  lists : Lists w.saved (pending ++ held w.heap)

/-- Whatever is pending, between the two worlds the program was given and has destroyed what went
into the table and out of it. -/
def Accounts (held : H → Ledger Word JsVal) (w w' : World H) : Prop :=
  ∀ pending, Balanced held pending w → Balanced held pending w'

/-- The calls that scripts make within a computation of the host account for their handles. -/
structure ScriptsAccount (host : Host H) (held : H → Ledger Word JsVal) : Prop where
  call : ∀ w free this func args, (host.call w free this func args).Within (Accounts held) w
  compile : ∀ w free mode src filename,
    (host.compile w free mode src filename).Within (Accounts held) w
  jsonEncode : ∀ w free v, (host.jsonEncode w free v).Within (Accounts held) w
  jsonDecode : ∀ w free text, (host.jsonDecode w free text).Within (Accounts held) w
  readThrough : ∀ w free target key, (host.readThrough w free target key).Within (Accounts held) w
  errorObject : ∀ w free message, (host.errorObject w free message).Within (Accounts held) w
  safeToString : ∀ w free v s w' reserved,
    host.safeToString w free v = some (s, w', reserved) → Accounts held w w'
  createInstance : ∀ w free create udd,
    (host.createInstance w free create udd).Within (Accounts held) w

variable {held : H → Ledger Word JsVal} {pending : Ledger Word JsVal}

theorem saved_setObject {w : World H} {id : Nat} (other : id ≠ globalId) (o : ObjectRec) :
    (w.setObject id o).saved = w.saved := by
  funext h
  simp [World.saved, World.setObject, Function.update_of_ne (Ne.symm other)]

theorem ScriptsAccount.respects (scripts : ScriptsAccount host held) :
    host.Respects (Accounts held) where
  refl _ _ balanced := balanced
  trans first second pending balanced := second pending (first pending balanced)
  clock _ _ balanced := ⟨balanced.allocated, balanced.lists⟩
  allocation w o pending balanced := by
    refine ⟨Nat.succ_ne_zero _, ?_⟩
    change Lists (w.setObject w.nextId o).saved _
    rw [saved_setObject balanced.allocated]
    exact balanced.lists
  call := scripts.call
  compile := scripts.compile
  jsonEncode := scripts.jsonEncode
  jsonDecode := scripts.jsonDecode
  readThrough := scripts.readThrough
  errorObject := scripts.errorObject
  safeToString := scripts.safeToString

/-- What is pending is missing from what the program holds. -/
theorem Balanced.not_of_pending {w : World H} {lost : Ledger Word JsVal} (some : lost ≠ [])
    (balanced : Balanced held (lost ++ pending) w) : ¬ Balanced held pending w := by
  intro other
  obtain ⟨⟨h, v⟩, rest, rfl⟩ := List.exists_cons_of_ne_nil some
  have distinct := balanced.lists.distinct
  have entry : w.saved h = v := (balanced.lists.exact h v).mpr (by simp)
  have again := (other.lists.exact h v).mp entry
  simp only [Ledger.keys, List.cons_append, List.append_assoc, List.map_cons, List.nodup_cons]
    at distinct
  apply distinct.1
  exact List.mem_map.mpr ⟨(h, v), List.mem_append_right _ again, rfl⟩

/-! ### A save -/

/-- A save under a microsecond that is not in use makes one more handle pending. -/
theorem balanced_save (plain : PlainHandles host) {ctx ctx' : Ctx H} {h : Word} {v : JsVal}
    {rest : List JsVal} (stack : ctx.stack = v :: rest)
    (fresh : ctx.world.saved (nextHandle host ctx) = none)
    (returned : saveTopObject host ctx = .ok h ctx') (balanced : Balanced held pending ctx.world) :
    Balanced held ((h, v) :: pending) ctx'.world := by
  obtain ⟨rfl, v', rest', stack', _, stored⟩ := saveTopObject_ok plain returned
  rw [stack] at stack'
  cases stack'
  rw [saved_world, saved_world] at stored
  -- apart from the table everything is as it was
  obtain ⟨_, _, _, _, _, _, rfl⟩ := saveTopObject_inv plain returned
  refine ⟨balanced.allocated, ?_⟩
  rw [stored]
  exact balanced.lists.insert fresh v

theorem balanced_save_error (plain : PlainHandles host) {ctx ctx' : Ctx H} {e : Fault}
    (threw : saveTopObject host ctx = .error e ctx') (balanced : Balanced held pending ctx.world) :
    Balanced held pending ctx'.world := by
  rw [saveTopObject_error_inv plain threw]
  exact ⟨balanced.allocated, balanced.lists⟩

/-- The copy that is saved takes no part in it. -/
theorem balanced_saveFunction (plain : PlainHandles host) {ctx : Ctx H} {v : JsVal}
    (fresh : ctx.world.saved (nextHandle host ctx) = none)
    (balanced : Balanced held pending ctx.world) :
    (∀ h ctx', saveFunction host v ctx = .ok h ctx' →
      Balanced held ((h, v) :: pending) ctx'.world) ∧
    ∀ e ctx', saveFunction host v ctx = .error e ctx' → Balanced held pending ctx'.world := by
  by_cases room : ctx.height + 1 ≤ ctx.reserve
  · have copied : pushNull ctx = .ok () (ctx.pushed .null) := push_eq_ok.mpr ⟨room, rfl⟩
    have run : saveFunction host v ctx = saveTopObject host (ctx.pushed v) := by
      rw [saveFunction, bind_ok copied, bind_ok (setAt_run 0 _)]
      rfl
    have fresh' : (ctx.pushed v).world.saved (nextHandle host (ctx.pushed v)) = none := fresh
    rw [run]
    exact ⟨fun h ctx' saves => balanced_save plain rfl fresh' saves balanced,
      fun e ctx' threw => balanced_save_error plain threw balanced⟩
  · have full : pushNull ctx = .error (.thrown .rangeError) ctx := by
      rw [pushNull, push_run, if_neg room]
    rw [saveFunction, bind_error full]
    refine ⟨fun h ctx' saves => (by cases saves), fun e ctx' threw => ?_⟩
    cases threw
    exact balanced

theorem saveFunction_returns (plain : PlainHandles host) {ctx : Ctx H} (v : JsVal) :
    Returns (saveFunction host v) ctx ↔ Savable host ctx := by
  rw [← copyAndSave_returns plain v id]
  simp only [saveFunction, id, bind_pure]

/-! ### The arguments of a native call -/

/-- The handle an argument was packed as. -/
def NativeArg.handle? (out : NativeArg) : Option Word :=
  match out.fmt, out.slots with
  | .ecmafunc, [slot] => some slot.toWord
  | _, _ => none

def GoArg.handle? : GoArg → Option Word
  | .ecmaObject h => some h
  | _ => none

/-- The handles among the arguments of a Go function. -/
def handles (argv : List GoArg) : List Word := argv.filterMap GoArg.handle?

theorem carries_noHandle {ctx : Ctx H} {v : JsVal} {out : NativeArg}
    (carries : Carries host ctx v out) (noFunction : ¬ ctx.EcmascriptFunction v) :
    out.handle? = none := by
  cases carries with
  | function isFunction _ => exact absurd isFunction noFunction
  | @json _ array _ _ _ _ _ | @noJson _ array _ _ _ _ => cases array <;> rfl
  | _ => rfl

theorem marshalArg_function {ctx : Ctx H} {k : Nat} (function : ctx.EcmascriptFunction (ctx.get k)) :
    marshalArg host k ctx =
      (saveFunction host (ctx.get k) >>= fun h => pure (NativeArg.word .ecmafunc h)) ctx := by
  obtain ⟨id, v, isFunction⟩ := function.object
  rw [marshalArg, bind_ok (get_run ctx), v]
  simp only [isFunction, if_true, saveFunction, bind_assoc]

/-- An argument makes its handle pending when it is a function and can be saved, and no other
argument does. -/
theorem balanced_marshalArg (plain : PlainHandles host) (scripts : ScriptsAccount host held)
    {ctx : Ctx H} {k : Nat} (inside : k < ctx.height)
    (fresh : ctx.EcmascriptFunction (ctx.get k) → ctx.world.saved (nextHandle host ctx) = none)
    (balanced : Balanced held pending ctx.world) : ∃ given : Ledger Word JsVal,
      Balanced held (given ++ pending) (endState (marshalArg host k ctx)).world ∧
      (given = [] ↔ ¬ (ctx.EcmascriptFunction (ctx.get k) ∧ Savable host ctx)) ∧
      ∀ out ctx', marshalArg host k ctx = .ok out ctx' → given.keys = out.handle?.toList := by
  by_cases function : ctx.EcmascriptFunction (ctx.get k)
  · obtain ⟨saves, throws⟩ := balanced_saveFunction plain (v := ctx.get k) (fresh function) balanced
    have savable : Returns (saveFunction host (ctx.get k)) ctx ↔ Savable host ctx :=
      saveFunction_returns plain _
    rw [marshalArg_function function]
    cases ran : saveFunction host (ctx.get k) ctx with
    | ok h ctx' =>
      rw [bind_ok ran]
      refine ⟨[(h, ctx.get k)], saves h ctx' ran, ?_, fun out after same => ?_⟩
      · exact iff_of_false (List.cons_ne_nil _ _) fun not => not ⟨function, savable.mp ⟨h, ctx', ran⟩⟩
      · cases same
        rfl
    | error e ctx' =>
      -- a save that throws changes nothing
      rw [bind_error ran]
      refine ⟨[], throws e ctx' ran, iff_of_true rfl fun both => ?_, fun out after same => ?_⟩
      · exact not_returns_of_error ran (savable.mpr both.2)
      · cases same
  · refine ⟨[], ?_, iff_of_true rfl fun both => function both.1, fun out ctx' returned => ?_⟩
    · apply marshalArg_within scripts.respects _ pending balanced
      intro id v
      rw [v] at function
      exact Bool.eq_false_iff.mpr function
    · rw [carries_noHandle (marshalArg_ok inside returned).1 function]
      rfl

/-- Among the first `n` arguments there is a function that is saved in its turn. -/
def SavesArgument (host : Host H) (values : List JsVal) (ctx : Ctx H) (n : Nat) : Prop :=
  ∃ i < n, ∃ within : i < values.length, TurnComes host values ctx i ∧
    (turnAt host values ctx i).EcmascriptFunction (values.get ⟨i, within⟩) ∧
    Savable host (turnAt host values ctx i)

/-- No argument that is a function is saved under a microsecond in use. -/
def FreshArguments (host : Host H) (values : List JsVal) (ctx : Ctx H) : Prop :=
  ∀ i (within : i < values.length), TurnComes host values ctx i →
    (turnAt host values ctx i).EcmascriptFunction (values.get ⟨i, within⟩) →
    (turnAt host values ctx i).world.saved (nextHandle host (turnAt host values ctx i)) = none

section Rounds

variable {values : List JsVal} {ctx : Ctx H}

theorem savesArgument_succ {n : Nat} : SavesArgument host values ctx (n + 1) ↔
    SavesArgument host values ctx n ∨ ∃ within : n < values.length, TurnComes host values ctx n ∧
      (turnAt host values ctx n).EcmascriptFunction (values.get ⟨n, within⟩) ∧
      Savable host (turnAt host values ctx n) := by
  constructor
  · rintro ⟨i, bound, saves⟩
    rcases Nat.lt_or_eq_of_le (Nat.lt_succ_iff.mp bound) with earlier | rfl
    · exact .inl ⟨i, earlier, saves⟩
    · exact .inr saves
  · rintro (⟨i, earlier, saves⟩ | saves)
    · exact ⟨i, Nat.lt_succ_of_lt earlier, saves⟩
    · exact ⟨n, Nat.lt_succ_self n, saves⟩

theorem savesArgument_of_stopped {n : Nat} (stopped : ¬ TurnComes host values ctx n) :
    SavesArgument host values ctx (n + 1) ↔ SavesArgument host values ctx n := by
  rw [savesArgument_succ]
  refine ⟨?_, .inl⟩
  rintro (earlier | ⟨_, reached, _⟩)
  · exact earlier
  · exact absurd reached stopped

theorem savesArgument_of_reached {n : Nat} (within : n < values.length)
    (reached : TurnComes host values ctx n) {mid : Ctx H}
    (state : SameState mid (turnAt host values ctx n)) :
    SavesArgument host values ctx (n + 1) ↔ SavesArgument host values ctx n ∨
      mid.EcmascriptFunction (values.get ⟨n, within⟩) ∧ Savable host mid := by
  rw [savesArgument_succ, state.function, state.savable]
  exact or_congr_right ⟨fun ⟨_, _, both⟩ => both, fun both => ⟨within, reached, both⟩⟩

/-- The slots of the arguments so far, with the handles among them. -/
structure Given (given : Ledger Word JsVal) (n : Nat) (loop : MarshalLoop) (outs : List NativeArg) :
    Prop where
  filled : Filled outs loop
  length : outs.length = n
  widths : ∀ out ∈ outs, slotsDecoded out.fmt = some out.slots.length
  keys : given.keys = (outs.filterMap NativeArg.handle?).reverse

theorem given_store {given new : Ledger Word JsVal} {n : Nat} {loop : MarshalLoop}
    {outs : List NativeArg} (so : Given given n loop outs) {out : NativeArg}
    (width : slotsDecoded out.fmt = some out.slots.length) (keys : new.keys = out.handle?.toList) :
    Given (new ++ given) (n + 1) (loop.store out) (outs ++ [out]) := by
  refine ⟨filled_store so.filled out, by simp [so.length], ?_, ?_⟩
  · intro other member
    rcases List.mem_append.mp member with earlier | last
    · exact so.widths other earlier
    · cases List.mem_singleton.mp last
      exact width
  · have both : (new ++ given).keys = new.keys ++ given.keys := by simp [Ledger.keys]
    rw [both, keys, so.keys, List.filterMap_append, List.reverse_append]
    cases handle : out.handle? <;> simp [handle]

/-- However far the loop comes, what it has saved is pending. -/
theorem balanced_marshalRounds (plain : PlainHandles host) (scripts : ScriptsAccount host held)
    (stack : ctx.stack = values.reverse) (fresh : FreshArguments host values ctx)
    (balanced : Balanced held pending ctx.world) {n : Nat} (within : n ≤ values.length) :
    ∃ given : Ledger Word JsVal,
      Balanced held (given ++ pending) (endState (marshalRounds host values.length n ctx)).world ∧
      (given = [] ↔ ¬ SavesArgument host values ctx n) ∧
      ∀ loop mid, marshalRounds host values.length n ctx = .ok loop mid →
        ∃ outs, Given given n loop outs := by
  have height : ctx.height = values.length := by rw [Ctx.height, stack, List.length_reverse]
  -- over the rounds, each of which adds what it saves
  induction n with
  | zero =>
    refine ⟨[], balanced, iff_of_true rfl ?_, fun loop mid ran => ?_⟩
    · rintro ⟨i, impossible, _⟩
      exact absurd impossible (Nat.not_lt_zero i)
    · cases ran
      exact ⟨[], ⟨rfl, rfl, rfl, rfl⟩, rfl, fun out member => (by cases member), rfl⟩
  | succ n ih =>
    obtain ⟨given, before, none, done⟩ := ih (by omega)
    cases ran : marshalRounds host values.length n ctx with
    | error e stop =>
      rw [ran] at before
      rw [marshalRounds, bind_error ran]
      refine ⟨given, before, ?_, fun loop mid impossible => (by cases impossible)⟩
      have stopped : ¬ TurnComes host values ctx n := by
        rw [← marshalRounds_returns plain stack (by omega)]
        exact not_returns_of_error ran
      rw [none, savesArgument_of_stopped stopped]
    | ok loop mid =>
      rw [ran] at before
      obtain ⟨outs, so⟩ := done loop mid ran
      -- the argument lies where it lay at the start
      have ran' := ran
      rw [← height] at ran'
      obtain ⟨_, _, tall, later⟩ := marshalRounds_ok (by omega) ran'
      have index : loop.i = n := so.filled.i.trans so.length
      have argument : mid.get (values.length - 1 - n) = values.get ⟨n, within⟩ := by
        rw [later _ (by omega), get_argument stack within]
      have inside : values.length - 1 - n < mid.height := by omega
      have reached := (marshalRounds_returns plain stack (by omega)).mp ⟨loop, mid, ran⟩
      have state := marshalRounds_turn plain stack (by omega) ran
      have unsaved : mid.EcmascriptFunction (mid.get (values.length - 1 - n)) →
          mid.world.saved (nextHandle host mid) = Option.none := by
        rw [argument, state.function, state.world, state.nextHandle]
        exact fresh n within reached
      obtain ⟨new, after, added, packed⟩ := balanced_marshalArg plain scripts inside unsaved before
      rw [marshalRounds, bind_ok ran, index]
      rw [argument] at added
      refine ⟨new ++ given, ?_, ?_, ?_⟩
      · rw [List.append_assoc]
        cases stored : marshalArg host (values.length - 1 - n) mid with
        | ok out last =>
          rw [stored] at after
          rw [bind_ok stored]
          exact after
        | error e last =>
          rw [stored] at after
          rw [bind_error stored]
          exact after
      · rw [savesArgument_of_reached within reached state, List.append_eq_nil_iff, added, none, not_or]
        exact and_comm
      · intro loop' last returned
        obtain ⟨out, mid', stored, same⟩ := bind_eq_ok.mp returned
        cases same
        have carries := (marshalArg_ok inside stored).1
        exact ⟨_, given_store so carries.width (packed out _ stored)⟩

end Rounds

/-! ### The handles a Go function gets -/

section Native

variable {gf : GoFunc host.mem S} {values : List JsVal}

theorem decoded_handle {t : GoType} {out : NativeArg} {arg : GoArg}
    (width : slotsDecoded out.fmt = some out.slots.length) (decoded : out.decoded gf t = some arg) :
    arg.handle? = out.handle? := by
  obtain ⟨fmt, slots⟩ := out
  -- no format has more than two slots
  rcases slots with _ | ⟨first, _ | ⟨second, _ | ⟨third, more⟩⟩⟩
  · cases fmt <;> simp [slotsDecoded] at width
  · cases fmt with
    | none | bool | double =>
      simp [NativeArg.decoded, decodeArg] at decoded
      rw [← decoded]
      rfl
    | ecmafunc =>
      simp [NativeArg.decoded, decodeArg] at decoded
      rw [← decoded]
      rfl
    | _ => simp [slotsDecoded] at width
  · cases fmt with
    | lstring | buffer =>
      simp [NativeArg.decoded, decodeArg] at decoded
      rw [← decoded]
      split <;> rfl
    | jarray | jobject =>
      simp [NativeArg.decoded, decodeArg] at decoded
      rw [← decoded]
      split
      · rfl
      · split
        · rfl
        · split <;> rfl
    | _ => simp [slotsDecoded] at width
  · cases fmt <;> simp [slotsDecoded] at width

/-- The handles that the arguments were packed as are those the function is called with. -/
theorem handles_of_invocation {given : Ledger Word JsVal} {loop : MarshalLoop}
    {outs : List NativeArg} {args : NativeArgs} {argv : List GoArg}
    (so : Given given values.length loop outs)
    (block : args = ⟨values.length, Function.update loop.fmt values.length (some 0), loop.args⟩)
    (invoked : gf.invocation (some args) = .ok argv) : given.keys.Perm (handles argv) := by
  have packed : Packed outs args := by
    rw [block, ← so.length]
    exact so.filled.packed so.widths
  have strlen : args.chars.length = outs.length := by rw [packed.chars, List.length_map]
  have array := packed.array
  rw [← strlen] at array
  rw [GoFunc.invocation] at invoked
  split at invoked
  · cases reached : decodeRounds gf args.chars (args.toPointerArray (2 * args.chars.length))
        args.chars.length with
    | error stop =>
      rw [reached] at invoked
      cases invoked
    | ok last =>
      rw [reached] at invoked
      cases invoked
      rw [array] at reached
      have inStep := decodeRounds_inStep gf so.widths packed.chars (by omega) reached
      have count : last.argv.length = outs.length := inStep.count.trans strlen
      -- an argument is decoded from the slots it was packed in, with the same handle
      have same : last.argv.map GoArg.handle? = outs.map NativeArg.handle? := by
        refine List.ext_getElem (by simp [count]) fun m one two => ?_
        rw [List.length_map] at one two
        have decoded := inStep.args m (by omega) outs[m] (List.getElem?_eq_getElem two)
        rw [List.getElem?_eq_getElem one] at decoded
        rw [List.getElem_map, List.getElem_map]
        exact decoded_handle (so.widths _ (List.getElem_mem two)) decoded.symm
      have all : handles last.argv = outs.filterMap NativeArg.handle? := by
        have identity : ∀ {α : Type} (f : α → Option Word) (l : List α),
            l.filterMap f = (l.map f).filterMap id := by
          intro α f l
          rw [List.filterMap_map]
          rfl
        rw [handles, identity, same, ← identity]
      rw [all, so.keys]
      exact List.reverse_perm _
  · cases invoked

/-- `go_funcBridge` for a Go function: a list of arguments that stops `callGoFunc` leaves everything
as it is or ends the process, and any other is what `body` is called with. -/
def goFuncBridge {mem : Memory} (gf : GoFunc mem S)
    (body : World H → Nat → List GoArg → Outcome H NativeResult) (w : World H) (free : Nat)
    (args : Option NativeArgs) : Outcome H NativeResult :=
  match gf.invocation args with
  | .ok argv => body w free argv
  | .error .rejected => .returns .none w 0
  | .error .panicked => .never

/-- The native function is `gf`, and the handles it is called with are the program's from then
on. -/
structure GoServes (host : Host H) (held : H → Ledger Word JsVal) (gf : GoFunc host.mem S)
    (body : World H → Nat → List GoArg → Outcome H NativeResult) (nativeFunc udd : Word) : Prop where
  native : ∀ w free args, host.native w free nativeFunc udd args = goFuncBridge gf body w free args
  accounts : ∀ w free argv, (body w free argv).Within (fun w w' => ∀ given pending,
    given.keys.Perm (handles argv) → Balanced held (given ++ pending) w →
      Balanced held pending w') w

variable {body : World H → Nat → List GoArg → Outcome H NativeResult}

variable {nativeFunc udd : Word} {args : Option NativeArgs} {mid : Ctx H}
  {given : Ledger Word JsVal}

/-- The call of the native function and what is left to do. -/
def callAndPush (host : Host H) (nativeFunc udd : Word) (args : Option NativeArgs) : Duk H Nat := do
  pushResult host (← callNative host nativeFunc udd args)

theorem callNative_run :
    callNative host nativeFunc udd args mid =
      (host.native mid.world mid.free nativeFunc udd args).run mid := rfl

theorem balanced_stopped (scripts : ScriptsAccount host held)
    (serves : GoServes host held gf body nativeFunc udd) {stop : DecodeStop}
    (stopped : gf.invocation args = .error stop) (balanced : Balanced held pending mid.world) :
    Balanced held pending (endState (callAndPush host nativeFunc udd args mid)).world := by
  rw [callAndPush, bind_run, callNative_run, serves.native, goFuncBridge, stopped]
  cases stop with
  | rejected =>
    exact within_pushResult scripts.respects scripts.createInstance _ _ _ balanced
  | panicked => exact balanced

theorem balanced_invoked (scripts : ScriptsAccount host held)
    (serves : GoServes host held gf body nativeFunc udd) {argv : List GoArg}
    (invoked : gf.invocation args = .ok argv) (keys : given.keys.Perm (handles argv))
    (balanced : Balanced held (given ++ pending) mid.world)
    (ended : ∀ s, callAndPush host nativeFunc udd args mid ≠ .error .noReturn s) :
    Balanced held pending (endState (callAndPush host nativeFunc udd args mid)).world := by
  have within := serves.accounts mid.world mid.free argv
  have called : host.native mid.world mid.free nativeFunc udd args =
      body mid.world mid.free argv := by rw [serves.native, goFuncBridge, invoked]
  rw [callAndPush, bind_run, callNative_run, called] at ended ⊢
  cases outcome : body mid.world mid.free argv with
  | returns out w reserved =>
    rw [outcome] at within
    exact within_pushResult scripts.respects scripts.createInstance out _ _
      (within given pending keys balanced)
  | throws e w reserved =>
    rw [outcome] at within
    exact within given pending keys balanced
  | never =>
    rw [outcome] at ended
    exact absurd rfl (ended mid)

/-! ### A call of a Go function -/

/-- If an argument is saved, the function takes all arguments. -/
def TakesIfSaved (gf : GoFunc host.mem S) (values : List JsVal) (ctx : Ctx H) : Prop :=
  SavesArgument host values ctx values.length → gf.Takes host values ctx

/-- With a block for the arguments. -/
theorem balanced_packedCall (plain : PlainHandles host) (scripts : ScriptsAccount host held)
    {ctx : Ctx H} (stack : ctx.stack = values.reverse)
    (serves : GoServes host held gf body nativeFunc udd) (fresh : FreshArguments host values ctx)
    (balanced : Balanced held pending ctx.world)
    (ended : ∀ s, (marshalArgs host values.length >>= fun args =>
      callAndPush host nativeFunc udd (some args)) ctx ≠ .error .noReturn s) :
    Balanced held pending (endState ((marshalArgs host values.length >>= fun args =>
      callAndPush host nativeFunc udd (some args)) ctx)).world ↔ TakesIfSaved gf values ctx := by
  obtain ⟨given, after, none, done⟩ :=
    balanced_marshalRounds plain scripts stack fresh balanced le_rfl
  -- a call that ends without the Go function keeps what was saved for it
  have lost : ∀ {w}, Balanced held (given ++ pending) w →
      (∀ args mid argv, marshalArgs host values.length ctx = .ok args mid →
        gf.invocation (some args) ≠ .ok argv) →
      (Balanced held pending w ↔ TakesIfSaved gf values ctx) := by
    intro w kept uncalled
    constructor
    · intro settled saves
      have some : given ≠ [] := fun empty => none.mp empty saves
      exact absurd settled (kept.not_of_pending some)
    · intro invokes
      have empty : given = [] := by
        rw [none]
        intro saves
        obtain ⟨args, mid, argv, packed, invoked⟩ := (takes_iff plain stack).mp (invokes saves)
        exact uncalled args mid argv packed invoked
      rwa [empty, List.nil_append] at kept
  cases ran : marshalRounds host values.length values.length ctx with
  | error e stop =>
    have threw : marshalArgs host values.length ctx = .error e stop := by
      rw [marshalArgs, bind_error ran]
    rw [ran] at after
    rw [bind_error threw]
    refine lost after fun args mid argv packed => ?_
    rw [threw] at packed
    cases packed
  | ok loop mid =>
    obtain ⟨outs, so⟩ := done loop mid ran
    obtain ⟨args, block, packed⟩ : ∃ args : NativeArgs,
        args = ⟨values.length, Function.update loop.fmt values.length (some 0), loop.args⟩ ∧
        marshalArgs host values.length ctx = .ok args mid := by
      refine ⟨_, rfl, ?_⟩
      rw [marshalArgs, bind_ok ran]
      rfl
    rw [ran] at after
    rw [bind_ok packed] at ended ⊢
    cases invocation : gf.invocation (some args) with
    | error stop =>
      refine lost (balanced_stopped scripts serves invocation after) fun args' mid' argv same => ?_
      rw [packed] at same
      cases same
      rw [invocation]
      exact fun impossible => (by cases impossible)
    | ok argv =>
      have keys := handles_of_invocation so block invocation
      exact iff_of_true (balanced_invoked scripts serves invocation keys after ended)
        fun _ => (takes_iff plain stack).mpr ⟨_, _, _, packed, invocation⟩

/-- Behind the look-up of the native function. -/
def marshalAndCall (host : Host H) (nargs : Nat) (nativeFunc udd : Word) : Duk H Nat :=
  if nargs = 0 then callAndPush host nativeFunc udd none
  else if host.mallocs (8 * 2 * nargs + nargs + 1) then do
    let args ← marshalArgs host nargs
    callAndPush host nativeFunc udd (some args)
  else return 0

theorem nativeFuncBridge_eq (currentFunction : JsVal) (entry : Ctx H) :
    nativeFuncBridge host currentFunction entry =
      (getNativeFunc host currentFunction >>= fun found =>
        marshalAndCall host entry.height found.1 found.2) entry := rfl

theorem balanced_marshalAndCall (plain : PlainHandles host) (scripts : ScriptsAccount host held)
    {ctx : Ctx H} (stack : ctx.stack = values.reverse)
    (serves : GoServes host held gf body nativeFunc udd) (fresh : FreshArguments host values ctx)
    (balanced : Balanced held pending ctx.world)
    (ended : ∀ s, marshalAndCall host values.length nativeFunc udd ctx ≠ .error .noReturn s) :
    Balanced held pending
        (endState (marshalAndCall host values.length nativeFunc udd ctx)).world ↔
      (AllocatesBlock host values → TakesIfSaved gf values ctx) := by
  rw [marshalAndCall] at ended ⊢
  by_cases bare : values.length = 0
  · -- a call without arguments has nothing to save
    have empty : values = [] := List.length_eq_zero_iff.mp bare
    rw [if_pos bare] at ended ⊢
    refine iff_of_true ?_ fun block => absurd empty block.1
    cases invocation : gf.invocation none with
    | error stop => exact balanced_stopped scripts serves invocation balanced
    | ok argv =>
      have keys : (Ledger.keys ([] : Ledger Word JsVal)).Perm (handles argv) := by
        rw [GoFunc.invocation] at invocation
        split at invocation <;> cases invocation
        exact .nil
      exact balanced_invoked scripts serves invocation keys balanced ended
  · have some : values ≠ [] := fun empty => bare (congrArg List.length empty)
    rw [if_neg bare] at ended ⊢
    by_cases malloc : host.mallocs (8 * 2 * values.length + values.length + 1) = true
    · rw [if_pos malloc] at ended ⊢
      rw [balanced_packedCall plain scripts stack serves fresh balanced ended]
      exact ⟨fun invokes _ => invokes, fun invokes => invokes ⟨some, malloc⟩⟩
    · rw [if_neg malloc]
      exact iff_of_true balanced fun block => absurd block.2 malloc

/-- A call of a Go function leaves in the table what the program was given, unless something
was saved for a Go function that is not called. -/
theorem balanced_nativeFuncBridge (plain : PlainHandles host) (scripts : ScriptsAccount host held)
    {entry : Ctx H} (stack : entry.stack = values.reverse) {currentFunction : JsVal}
    (serves : ∀ nativeFunc udd ctx,
      getNativeFunc host currentFunction entry = .ok (nativeFunc, udd) ctx →
      GoServes host held gf body nativeFunc udd ∧ FreshArguments host values ctx)
    (balanced : Balanced held pending entry.world)
    (ended : ∀ s, nativeFuncBridge host currentFunction entry ≠ .error .noReturn s) :
    Balanced held pending (endState (nativeFuncBridge host currentFunction entry)).world ↔
      ∀ nativeFunc udd ctx, getNativeFunc host currentFunction entry = .ok (nativeFunc, udd) ctx →
        AllocatesBlock host values → TakesIfSaved gf values ctx := by
  have height : entry.height = values.length := by rw [Ctx.height, stack, List.length_reverse]
  have looked := within_getNativeFunc scripts.respects currentFunction entry pending balanced
  rw [nativeFuncBridge_eq, height] at ended ⊢
  cases found : getNativeFunc host currentFunction entry with
  | error e stop =>
    -- a look-up that throws comes before the arguments
    rw [found] at looked
    rw [bind_error found]
    exact iff_of_true looked fun _ _ _ impossible => (by cases impossible)
  | ok native ctx =>
    obtain ⟨nativeFunc, udd⟩ := native
    rw [found] at looked
    rw [bind_ok found] at ended ⊢
    have frame : ctx.stack = values.reverse := (getNativeFunc_stack found).trans stack
    obtain ⟨serves, fresh⟩ := serves nativeFunc udd ctx found
    rw [balanced_marshalAndCall plain scripts frame serves fresh looked ended]
    constructor
    · intro invokes _ _ _ same
      cases same
      exact invokes
    · exact fun invokes => invokes nativeFunc udd ctx rfl

end Native

end DukBridge
