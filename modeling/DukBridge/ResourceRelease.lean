import DukBridge.Lib.EventLog
import DukBridge.NativeLayout
import DukBridge.PushRules

/-!
# What native_func_bridge allocates, and what it is given to free

The bridge owns two things in the memory of the host while a call lasts: the block it
allocates for the arguments, and the result whenever the native function names a finalizer
for it. A throw leaves the function from wherever it is.
-/
namespace DukBridge

open Effect EventLog

variable {H : Type} {host : Host H}

/-! ### The bridge with what it does to the memory of the host -/

deriving instance DecidableEq for NativeResult

inductive MemoryEvent where
  | malloc
  | free
  /-- The native function has set its out parameters. -/
  | given (out : NativeResult)
  /-- `free_res(cb_res)` -/
  | freeRes (finalizer res : Word)
deriving DecidableEq

/-- The branches of the switch with a call of `free_res`. -/
def ResType.freed : ResType → Bool
  | .string | .buffer | .object | .array => true
  | _ => false

abbrev LoggedDuk (H α : Type) := Logged Fault (Ctx H) MemoryEvent α

/-- `if (free_res != NULL) free_res(cb_res);` -/
def freeResult (out : NativeResult) : LoggedDuk H Unit :=
  match out.freeRes with
  | some finalizer => emit (.freeRes finalizer out.res)
  | none => pure ()

/-- The switch on the result type: what is freed is freed behind the push. -/
def pushAndFree (host : Host H) (out : NativeResult) : LoggedDuk H Nat := do
  let pushed ← perform (pushResult host out)
  if out.resType.freed then freeResult out
  return pushed

def loggedNativeFuncBridge (host : Host H) (currentFunction : JsVal) : LoggedDuk H Nat := do
  let nargs := (← perform get).height
  let (nativeFunc, udd) ← perform (getNativeFunc host currentFunction)
  if nargs = 0 then
    let out ← perform (callNative host nativeFunc udd none)
    emit (.given out)
    pushAndFree host out
  else if host.mallocs (8 * 2 * nargs + nargs + 1) then
    emit .malloc
    let args ← perform (marshalArgs host nargs)
    let out ← perform (callNative host nativeFunc udd (some args))
    emit (.given out)
    emit .free
    pushAndFree host out
  else
    return 0

theorem logs_pushAndFree (out : NativeResult) :
    Logs (pushAndFree host out) (pushResult host out) := by
  have pushed : pushResult host out = pushResult host out >>= pure := (bind_pure _).symm
  rw [pushed]
  refine (Logs.perform _).bind fun n => ?_
  cases freed : out.resType.freed with
  | false => exact .pure n
  | true =>
    cases finalizer : out.freeRes with
    | none => simp only [freeResult, finalizer]; exact .pure n
    | some f => simp only [freeResult, finalizer]; exact .emit_bind (.pure n)

/-- Keeping the log changes nothing about the function. -/
theorem logs_nativeFuncBridge (currentFunction : JsVal) :
    Logs (loggedNativeFuncBridge host currentFunction) (nativeFuncBridge host currentFunction) := by
  refine (Logs.perform get).bind fun ctx => ?_
  refine (Logs.perform (getNativeFunc host currentFunction)).bind fun found => ?_
  refine .ite ?_ (.ite ?_ (.pure 0))
  · exact (Logs.perform _).bind fun out => .emit_bind (logs_pushAndFree out)
  · refine .emit_bind ((Logs.perform (marshalArgs host ctx.height)).bind fun args => ?_)
    exact (Logs.perform _).bind fun out => .emit_bind (.emit_bind (logs_pushAndFree out))

/-! ### When the result is freed -/

/-- The result is of a kind that is freed, and the push in front of `free_res` comes back. -/
def ReachesFree (host : Host H) (ctx : Ctx H) (out : NativeResult) : Prop :=
  let text := host.bytesAt out.res out.resLen
  match out.resType with
  | .string => ctx.height + 1 ≤ ctx.reserve ∧ text.length ≤ maxStringLen
  | .buffer =>
    ctx.height + 2 ≤ ctx.reserve ∧ isSymbol text = false ∧ text.length ≤ maxBufferLen ∧
      out.resLen.toNat < 2 ^ 32
  | .object | .array =>
    ctx.height + 1 ≤ ctx.reserve ∧ text.length ≤ maxStringLen ∧ ∃ v w reserved,
      host.jsonDecode ctx.world (ctx.pushed (.string text)).free text = .returns v w reserved
  | _ => False

theorem returns_then_one {m : Duk H Unit} {ctx : Ctx H} :
    Returns (m >>= fun _ => (pure 1 : Duk H Nat)) ctx ↔ Returns m ctx :=
  returns_bind_total fun _ s => returns_pure 1 s

theorem returns_pushJson {addr len : Word} {ctx : Ctx H} :
    Returns (pushJson host addr len) ctx ↔
      ctx.height + 1 ≤ ctx.reserve ∧ (host.bytesAt addr len).length ≤ maxStringLen ∧
        ∃ v w reserved, host.jsonDecode ctx.world (ctx.pushed (.string (host.bytesAt addr len))).free
          (host.bytesAt addr len) = .returns v w reserved := by
  constructor
  · rintro ⟨_, _, returned⟩
    obtain ⟨room, short, v, w, reserved, decoded, _⟩ := pushJson_eq_ok.mp returned
    exact ⟨room, short, v, w, reserved, decoded⟩
  · rintro ⟨room, short, v, w, reserved, decoded⟩
    exact ⟨(), _, pushJson_eq_ok.mpr ⟨room, short, v, w, reserved, decoded, rfl⟩⟩

theorem reachesFree_iff {ctx : Ctx H} {out : NativeResult} :
    ReachesFree host ctx out ↔ out.resType.freed = true ∧ Returns (pushResult host out) ctx := by
  rw [ReachesFree, pushResult]
  cases out.resType with
  | string =>
    rw [returns_then_one]
    constructor
    · rintro ⟨room, short⟩
      exact ⟨rfl, (), _, pushLstring_eq_ok.mpr ⟨room, short, rfl⟩⟩
    · rintro ⟨_, _, _, returned⟩
      obtain ⟨room, short, _⟩ := pushLstring_eq_ok.mp returned
      exact ⟨room, short⟩
  | buffer =>
    rw [returns_then_one]
    constructor
    · rintro ⟨room, symbol, short, small⟩
      exact ⟨rfl, (), _, pushNodeBuffer_eq_ok.mpr ⟨room, symbol, short, small, rfl⟩⟩
    · rintro ⟨_, _, _, returned⟩
      obtain ⟨room, symbol, short, small, _⟩ := pushNodeBuffer_eq_ok.mp returned
      exact ⟨room, symbol, short, small⟩
  | object | array =>
    rw [returns_then_one, returns_pushJson]
    simp only [ResType.freed, true_and]
  | _ => simp only [ResType.freed, Bool.false_eq_true, false_and]

/-- What the end of the function adds to the log. -/
theorem logOf_pushAndFree {ctx : Ctx H} {out : NativeResult} {finalizer : Word}
    (named : out.freeRes = some finalizer) (reaches : ReachesFree host ctx out)
    (log : List MemoryEvent) :
    logOf (pushAndFree host out (ctx, log)) = log ++ [.freeRes finalizer out.res] := by
  obtain ⟨freed, n, after, pushed⟩ := reachesFree_iff.mp reaches
  rw [pushAndFree, bind_ok (perform_ok pushed log), if_pos freed, freeResult, named]
  rfl

theorem logOf_pushAndFree_unfreed {ctx : Ctx H} {out : NativeResult}
    (unfreed : out.freeRes = none ∨ ¬ ReachesFree host ctx out) (log : List MemoryEvent) :
    logOf (pushAndFree host out (ctx, log)) = log := by
  by_cases returns : Returns (pushResult host out) ctx
  · obtain ⟨n, after, pushed⟩ := returns
    rw [pushAndFree, bind_ok (perform_ok pushed log)]
    cases freed : out.resType.freed with
    | false => rfl
    | true =>
      rcases unfreed with unnamed | unreached
      · rw [if_pos rfl, freeResult, unnamed]
        rfl
      · exact absurd (reachesFree_iff.mpr ⟨freed, n, after, pushed⟩) unreached
  · exact logOf_perform_bind returns _ log

/-! ### Everything released -/

/-- The block was freed once if it was allocated, and the result once if it has a finalizer. -/
structure Released (log : List MemoryEvent) : Prop where
  block : .malloc ∈ log → log.count .free = 1
  result : ∀ out finalizer, .given out ∈ log → out.freeRes = some finalizer →
    log.count (.freeRes finalizer out.res) = 1

/-- Behind the native function nothing but the result is left to be freed. -/
theorem released_pushAndFree {ctx : Ctx H} {out : NativeResult} {log : List MemoryEvent}
    (block : .malloc ∈ log → log.count .free = 1) (given : ∀ other, .given other ∈ log ↔ other = out)
    (unfreed : ∀ finalizer res, .freeRes finalizer res ∉ log) :
    Released (logOf (pushAndFree host out (ctx, log))) ↔
      ∀ finalizer, out.freeRes = some finalizer → ReachesFree host ctx out := by
  constructor
  · intro released finalizer named
    -- nothing has freed the result before, and nothing does here
    by_contra unreached
    rw [logOf_pushAndFree_unfreed (.inr unreached)] at released
    have once := released.result out finalizer ((given out).mpr rfl) named
    rw [List.count_eq_zero_of_not_mem (unfreed finalizer out.res)] at once
    exact absurd once (by decide)
  · intro reached
    cases named : out.freeRes with
    | none =>
      rw [logOf_pushAndFree_unfreed (.inl named)]
      refine ⟨block, fun other finalizer member some => ?_⟩
      rw [(given other).mp member, named] at some
      cases some
    | some finalizer =>
      rw [logOf_pushAndFree named (reached finalizer named)]
      refine ⟨fun member => ?_, fun other f member some => ?_⟩
      · have allocated : .malloc ∈ log := by simpa using member
        rw [List.count_append, block allocated]
        rfl
      · have same : other = out := by simpa [given] using member
        rw [same, named] at some
        cases some
        rw [same, List.count_append, List.count_eq_zero_of_not_mem (unfreed finalizer out.res)]
        simp

/-! ### A whole call -/

/-- The bridge gets a block for the arguments; without arguments it asks for none. -/
def AllocatesBlock (host : Host H) (values : List JsVal) : Prop :=
  values ≠ [] ∧ host.mallocs (8 * 2 * values.length + values.length + 1) = true

/-- The native function of the call sets its out parameters, and leaves this state. -/
inductive Gives (host : Host H) (values : List JsVal) (nativeFunc udd : Word) (ctx : Ctx H) :
    NativeResult → Ctx H → Prop where
  | bare {out after} (empty : values = [])
      (returned : callNative host nativeFunc udd none ctx = .ok out after) :
      Gives host values nativeFunc udd ctx out after
  | packed {args mid out after} (allocated : AllocatesBlock host values)
      (marshalled : marshalArgs host values.length ctx = .ok args mid)
      (returned : callNative host nativeFunc udd (some args) mid = .ok out after) :
      Gives host values nativeFunc udd ctx out after

/-- Nothing leaves the function by a throw while it owns something. -/
structure ThrowsNothingOwned (host : Host H) (values : List JsVal) (nativeFunc udd : Word)
    (ctx : Ctx H) : Prop where
  /-- Each argument can be packed when its turn comes. -/
  arguments : AllocatesBlock host values → ∀ i (within : i < values.length) written turn,
    marshalRounds host values.length i ctx = .ok written turn →
      HandsOver host turn (values.get ⟨i, within⟩)
  /-- The native function does not throw over the block. -/
  native : AllocatesBlock host values → ∀ args mid,
    marshalArgs host values.length ctx = .ok args mid →
      Returns (callNative host nativeFunc udd (some args)) mid
  /-- What it asks to be freed is freed. -/
  result : ∀ out after, Gives host values nativeFunc udd ctx out after →
    ∀ finalizer, out.freeRes = some finalizer → ReachesFree host after out

theorem released_nil : Released [] := by
  refine ⟨fun member => ?_, fun out finalizer member _ => ?_⟩
  · cases member
  · cases member

theorem not_released_malloc : ¬ Released [.malloc] := by
  intro released
  exact absurd (released.block (by decide)) (by decide)

/-- Without arguments only the result can be left behind. -/
theorem released_bareCall {ctx : Ctx H} {nativeFunc udd : Word} :
    Released (logOf ((do
      let out ← perform (callNative host nativeFunc udd none)
      emit (.given out)
      pushAndFree host out : LoggedDuk H Nat) (ctx, []))) ↔
      ∀ out after, callNative host nativeFunc udd none ctx = .ok out after →
        ∀ finalizer, out.freeRes = some finalizer → ReachesFree host after out := by
  by_cases returned : Returns (callNative host nativeFunc udd none) ctx
  · obtain ⟨out, after, gave⟩ := returned
    rw [bind_ok (perform_ok gave []), bind_ok (emit_run _ after []),
      released_pushAndFree (by simp) (by simp) (by simp)]
    constructor
    · intro reaches out' after' gave'
      rw [gave] at gave'
      cases gave'
      exact reaches
    · exact fun reaches => reaches out after gave
  · rw [logOf_perform_bind returned]
    exact iff_of_true released_nil fun out after gave => absurd ⟨out, after, gave⟩ returned

/-- With arguments the block is owned from the allocation to the return of the native
function. -/
theorem released_packedCall {ctx : Ctx H} {nativeFunc udd : Word} (nargs : Nat) :
    Released (logOf ((do
      emit .malloc
      let args ← perform (marshalArgs host nargs)
      let out ← perform (callNative host nativeFunc udd (some args))
      emit (.given out)
      emit .free
      pushAndFree host out : LoggedDuk H Nat) (ctx, []))) ↔
      ∃ args mid out after, marshalArgs host nargs ctx = .ok args mid ∧
        callNative host nativeFunc udd (some args) mid = .ok out after ∧
        ∀ finalizer, out.freeRes = some finalizer → ReachesFree host after out := by
  rw [bind_ok (emit_run _ ctx [])]
  -- the block is owned while the arguments are marshalled, and while the native function runs
  by_cases marshalled : Returns (marshalArgs host nargs) ctx
  · obtain ⟨args, mid, packed⟩ := marshalled
    rw [bind_ok (perform_ok packed _)]
    by_cases returned : Returns (callNative host nativeFunc udd (some args)) mid
    · obtain ⟨out, after, gave⟩ := returned
      rw [bind_ok (perform_ok gave _), bind_ok (emit_run _ after _), bind_ok (emit_run _ after _),
        released_pushAndFree (fun _ => rfl) (by simp) (by simp)]
      constructor
      · exact fun reaches => ⟨args, mid, out, after, packed, gave, reaches⟩
      · rintro ⟨args', mid', out', after', packed', gave', reaches⟩
        rw [packed] at packed'
        cases packed'
        rw [gave] at gave'
        cases gave'
        exact reaches
    · rw [logOf_perform_bind returned]
      refine iff_of_false not_released_malloc ?_
      rintro ⟨args', mid', out, after, packed', gave, _⟩
      rw [packed] at packed'
      cases packed'
      exact returned ⟨out, after, gave⟩
  · rw [logOf_perform_bind marshalled]
    refine iff_of_false not_released_malloc ?_
    rintro ⟨args, mid, _, _, packed, _⟩
    exact marshalled ⟨args, mid, packed⟩

section Owned

variable {values : List JsVal} {nativeFunc udd : Word} {ctx : Ctx H}

theorem throwsNothingOwned_bare (empty : values = []) :
    ThrowsNothingOwned host values nativeFunc udd ctx ↔
      ∀ out after, callNative host nativeFunc udd none ctx = .ok out after →
        ∀ finalizer, out.freeRes = some finalizer → ReachesFree host after out := by
  constructor
  · exact fun holds out after gave => holds.result out after (.bare empty gave)
  · intro reaches
    refine ⟨fun block => absurd empty block.1, fun block => absurd empty block.1, ?_⟩
    rintro out after (⟨_, gave⟩ | ⟨block, _, _⟩)
    · exact reaches out after gave
    · exact absurd empty block.1

theorem throwsNothingOwned_packed (plain : PlainHandles host) (frame : ctx.stack = values.reverse)
    (block : AllocatesBlock host values) :
    ThrowsNothingOwned host values nativeFunc udd ctx ↔
      ∃ args mid out after, marshalArgs host values.length ctx = .ok args mid ∧
        callNative host nativeFunc udd (some args) mid = .ok out after ∧
        ∀ finalizer, out.freeRes = some finalizer → ReachesFree host after out := by
  constructor
  · intro holds
    obtain ⟨args, mid, packed⟩ := (marshalArgs_returns plain frame).mpr (holds.arguments block)
    obtain ⟨out, after, gave⟩ := holds.native block args mid packed
    exact ⟨args, mid, out, after, packed, gave,
      holds.result out after (.packed block packed gave)⟩
  · rintro ⟨args, mid, out, after, packed, gave, reaches⟩
    have same : ∀ args' mid', marshalArgs host values.length ctx = .ok args' mid' →
        args' = args ∧ mid' = mid := by
      intro args' mid' packed'
      rw [packed] at packed'
      cases packed'
      exact ⟨rfl, rfl⟩
    refine ⟨fun _ => ?_, fun _ args' mid' packed' => ?_, ?_⟩
    · exact (marshalArgs_returns plain frame).mp ⟨args, mid, packed⟩
    · obtain ⟨rfl, rfl⟩ := same args' mid' packed'
      exact ⟨out, after, gave⟩
    · rintro out' after' (⟨empty, _⟩ | @⟨args', mid', _, _, _, packed', gave'⟩)
      · exact absurd empty block.1
      · obtain ⟨rfl, rfl⟩ := same args' mid' packed'
        rw [gave] at gave'
        cases gave'
        exact reaches

/-- A call that gives up owns nothing. -/
theorem throwsNothingOwned_unallocated (some : values ≠ []) (unallocated : ¬ AllocatesBlock host values) :
    ThrowsNothingOwned host values nativeFunc udd ctx := by
  refine ⟨fun block => absurd block unallocated, fun block => absurd block unallocated, ?_⟩
  rintro out after (⟨empty, _⟩ | ⟨block, _, _⟩)
  · exact absurd empty some
  · exact absurd block unallocated

end Owned

/-- In a call of any function, with any arguments, the log balances at the end exactly when
nothing threw over what the function owned. -/
theorem nativeFuncBridge_released_iff (plain : PlainHandles host) {entry : Ctx H}
    {values : List JsVal} (stack : entry.stack = values.reverse) (currentFunction : JsVal) :
    Released (logOf (loggedNativeFuncBridge host currentFunction (entry, []))) ↔
      ∀ nativeFunc udd ctx,
        getNativeFunc host currentFunction entry = .ok (nativeFunc, udd) ctx →
        ThrowsNothingOwned host values nativeFunc udd ctx := by
  have height : entry.height = values.length := by rw [Ctx.height, stack, List.length_reverse]
  rw [loggedNativeFuncBridge, bind_ok (perform_ok (get_run entry) [])]
  dsimp only
  rw [height]
  by_cases looked : Returns (getNativeFunc host currentFunction) entry
  · obtain ⟨⟨nativeFunc, udd⟩, ctx, found⟩ := looked
    have once : (∀ nativeFunc' udd' ctx',
        getNativeFunc host currentFunction entry = .ok (nativeFunc', udd') ctx' →
          ThrowsNothingOwned host values nativeFunc' udd' ctx') ↔
        ThrowsNothingOwned host values nativeFunc udd ctx := by
      refine ⟨fun all => all _ _ _ found, fun holds _ _ _ found' => ?_⟩
      rw [found] at found'
      cases found'
      exact holds
    have frame : ctx.stack = values.reverse := (getNativeFunc_stack found).trans stack
    rw [once, bind_ok (perform_ok found [])]
    dsimp only
    by_cases bare : values.length = 0
    · have empty : values = [] := List.length_eq_zero_iff.mp bare
      rw [if_pos bare, released_bareCall, throwsNothingOwned_bare empty]
    · have some : values ≠ [] := fun empty => bare (congrArg List.length empty)
      rw [if_neg bare]
      by_cases malloc : host.mallocs (8 * 2 * values.length + values.length + 1) = true
      · rw [if_pos malloc, released_packedCall,
          throwsNothingOwned_packed plain frame ⟨some, malloc⟩]
      · rw [if_neg malloc]
        exact iff_of_true released_nil
          (throwsNothingOwned_unallocated some fun block => malloc block.2)
  · rw [logOf_perform_bind looked]
    -- no block yet, and no result
    refine iff_of_true released_nil fun nativeFunc udd ctx found => ?_
    exact absurd ⟨_, _, found⟩ looked

/-! ### The native function toJson -/

/-- Without arguments `toJson` gives a text that is no JSON. Object 1 is cyclic, and 3 is the
error thrown for either. -/
def toJsonHost : Host Unit :=
  { stillHost with
    mem := fun addr => (ascii "empty string").getD (addr - 4096).toNat 0
    jsonEncode := fun w _ v =>
      if v = .object 1 then .throws (.object 3) w 0 else .returns none w 0
    jsonDecode := fun w _ text =>
      if text = ascii "empty string" then .throws (.object 3) w 0 else .returns .null w 0
    native := fun w _ _ _ args =>
      match args with
      | none => .returns ⟨.object, 4096, 12, some 8192⟩ w 0
      | some _ => .returns ⟨.string, 4096, 12, some 8192⟩ w 0 }

/-- A frame in which object 2, the function `toJson`, is called with these arguments. -/
def toJsonFrame (values : List JsVal) : Ctx Unit where
  stack := values.reverse
  reserve := values.length + 64
  world :=
    { (freshEnvironment.world.setOwn 2 nativeFuncKey (some (.data (.pointer 12288) true true))).setOwn
        2 nativeUddKey (some (.data (.pointer 0) true true)) with
      nextId := 4 }

/-- `toJson()` throws past its `free_res`, and `toJson(cyclic)` past the block of its argument. -/
theorem toJson_leaks :
    (∃ s, nativeFuncBridge toJsonHost (.object 2) (toJsonFrame []) =
        .error (.thrown (.value (.object 3))) s ∧
      ¬ Released (logOf (loggedNativeFuncBridge toJsonHost (.object 2) (toJsonFrame [], [])))) ∧
    (∃ s, nativeFuncBridge toJsonHost (.object 2) (toJsonFrame [.object 1]) =
        .error (.thrown (.value (.object 3))) s ∧
      ¬ Released (logOf (loggedNativeFuncBridge toJsonHost (.object 2)
        (toJsonFrame [.object 1], [])))) := by
  refine ⟨⟨_, rfl, fun released => ?_⟩, ⟨_, rfl, fun released => ?_⟩⟩
  · exact absurd (released.result ⟨.object, 4096, 12, some 8192⟩ 8192 (by decide) rfl) (by decide)
  · exact absurd (released.block (by decide)) (by decide)

/-- `toJson(true)` releases its block and its result. -/
theorem nativeFuncBridge_released_toJson :
    Released (logOf (loggedNativeFuncBridge toJsonHost (.object 2)
      (toJsonFrame [.boolean true], []))) := by
  have plain : PlainHandles toJsonHost := ⟨fun _ _ _ => rfl, fun _ _ _ _ => rfl⟩
  have stack : (toJsonFrame [.boolean true]).stack = [JsVal.boolean true].reverse := rfl
  refine (nativeFuncBridge_released_iff plain stack (.object 2)).mpr ?_
  intro nativeFunc udd ctx found
  cases found
  refine ⟨fun _ i within written turn ran => ?_, fun _ args mid packed => ?_, ?_⟩
  · obtain rfl : i = 0 := by simpa using within
    trivial
  · exact ⟨_, _, rfl⟩
  · rintro out after (⟨empty, _⟩ | ⟨_, packed, gave⟩) finalizer named
    · cases empty
    · cases packed
      cases gave
      exact ⟨by decide, by decide⟩

end DukBridge
