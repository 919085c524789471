import DukBridge.ArgumentPanics
import DukBridge.FunctionHandles

/-!
# The arguments of a native call in their turns

`native_func_bridge` takes one argument after another. A save puts a function into the table, and
JSON may run scripts, so an argument is met in the state that the earlier ones have left.
-/
namespace DukBridge

open Effect

variable {H : Type} {host : Host H} {S : Type}

/-! ### One argument later -/

/-- What is left of a frame when its slots are not looked at. -/
structure SameState (ctx ctx' : Ctx H) : Prop where
  height : ctx.height = ctx'.height
  reserve : ctx.reserve = ctx'.reserve
  world : ctx.world = ctx'.world

variable (host)

/-- The clock has been read, and `v` lies under what it read. -/
def withSaved (turn : Ctx H) (v : JsVal) : Ctx H :=
  let key := getEcmaObjNum (nextHandle host turn)
  let slot := PropSlot.data v true ((turn.global.accepts key).getD true)
  { turn with world := { turn.world with reads := turn.world.reads + 1 }.setOwn globalId key slot }

/-- The scripts that JSON runs have run. -/
def withEncoded (turn : Ctx H) (v : JsVal) : Ctx H :=
  match host.jsonEncode turn.world turn.free v with
  | .returns _ w reserved => { turn with world := w, reserve := turn.reserve + reserved }
  | .throws _ _ _ | .never => turn

/-- The state after the turn of `v`, if it can be handed over. -/
def afterTurn (turn : Ctx H) (v : JsVal) : Ctx H :=
  match v with
  | .object id =>
    let shape := (turn.world.objects id).shape
    if shape.ecmascriptFunction then withSaved host turn v
    else if shape.bufferData.isSome then turn
    else withEncoded host turn v
  | .pointer _ | .lightfunc _ => withEncoded host turn v
  | _ => turn

/-- The state in which the turn of argument `i` comes. -/
def turnAt (values : List JsVal) (ctx : Ctx H) (i : Nat) : Ctx H :=
  (values.take i).foldl (afterTurn host) ctx

/-- Every argument before the `i`th can be handed over, so that its turn comes. -/
def TurnComes (values : List JsVal) (ctx : Ctx H) (i : Nat) : Prop :=
  ∀ m (within : m < values.length), m < i →
    HandsOver host (turnAt host values ctx m) (values.get ⟨m, within⟩)

variable {host}

theorem turnAt_succ {values : List JsVal} {ctx : Ctx H} {i : Nat} (within : i < values.length) :
    turnAt host values ctx (i + 1) =
      afterTurn host (turnAt host values ctx i) (values.get ⟨i, within⟩) := by
  rw [turnAt, List.take_add_one, List.getElem?_eq_getElem within, List.foldl_append]
  rfl

theorem turnComes_succ {values : List JsVal} {ctx : Ctx H} {i : Nat} (within : i < values.length) :
    TurnComes host values ctx (i + 1) ↔ TurnComes host values ctx i ∧
      HandsOver host (turnAt host values ctx i) (values.get ⟨i, within⟩) := by
  constructor
  · intro comes
    exact ⟨fun m there before => comes m there (by omega), comes i within (Nat.lt_succ_self i)⟩
  · rintro ⟨earlier, last⟩ m there before
    rcases Nat.lt_or_eq_of_le (Nat.lt_succ_iff.mp before) with before | rfl
    · exact earlier m there before
    · exact last

namespace SameState

variable {ctx ctx' : Ctx H}

theorem refl (ctx : Ctx H) : SameState ctx ctx := ⟨rfl, rfl, rfl⟩

theorem trans {ctx'' : Ctx H} (first : SameState ctx ctx') (second : SameState ctx' ctx'') :
    SameState ctx ctx'' :=
  ⟨first.height.trans second.height, first.reserve.trans second.reserve,
    first.world.trans second.world⟩

theorem free (same : SameState ctx ctx') : ctx.free = ctx'.free := by
  have height := same.height
  rw [Ctx.height, Ctx.height] at height
  rw [Ctx.free, Ctx.free, same.reserve, height]

theorem function (same : SameState ctx ctx') (v : JsVal) :
    ctx.EcmascriptFunction v ↔ ctx'.EcmascriptFunction v := by
  cases v with
  | object id => rw [Ctx.EcmascriptFunction, Ctx.EcmascriptFunction, same.world]
  | _ => exact .rfl

theorem nextHandle (same : SameState ctx ctx') :
    nextHandle host ctx = DukBridge.nextHandle host ctx' := by
  rw [DukBridge.nextHandle, DukBridge.nextHandle, same.world]

theorem savable (same : SameState ctx ctx') : Savable host ctx ↔ Savable host ctx' := by
  rw [Savable, Savable, same.height, same.reserve, same.nextHandle, Ctx.global, Ctx.global,
    same.world]

theorem handsOver (same : SameState ctx ctx') (v : JsVal) :
    HandsOver host ctx v ↔ HandsOver host ctx' v := by
  have json : JsonReturns host ctx v ↔ JsonReturns host ctx' v := by
    rw [JsonReturns, JsonReturns, same.world, same.free]
  cases v with
  | object id => simp only [HandsOver, same.world, same.savable, json]
  | pointer p | lightfunc f => exact json
  | _ => exact .rfl

theorem withEncoded (same : SameState ctx ctx') (v : JsVal) :
    SameState (withEncoded host ctx v) (DukBridge.withEncoded host ctx' v) := by
  rw [DukBridge.withEncoded, DukBridge.withEncoded, same.world, same.free]
  split
  · exact ⟨same.height, congrArg (· + _) same.reserve, rfl⟩
  · exact same
  · exact same

theorem afterTurn (same : SameState ctx ctx') (v : JsVal) :
    SameState (afterTurn host ctx v) (DukBridge.afterTurn host ctx' v) := by
  have saved : SameState (withSaved host ctx v) (withSaved host ctx' v) := by
    refine ⟨same.height, same.reserve, ?_⟩
    simp only [withSaved, same.nextHandle, Ctx.global, same.world]
  cases v with
  | object id =>
    simp only [DukBridge.afterTurn, same.world]
    split
    · exact saved
    · split
      · exact same
      · exact same.withEncoded _
  | pointer p | lightfunc f => exact same.withEncoded _
  | _ => exact same

end SameState

/-! ### The rounds of the bridge -/

theorem marshalJson_state {ctx ctx' : Ctx H} {k : Nat} {array : Bool} {out : NativeArg}
    (returned : marshalJson host k array ctx = .ok out ctx') :
    SameState ctx' (withEncoded host ctx (ctx.get k)) := by
  obtain ⟨_, mid, encoded, rest⟩ := bind_eq_ok.mp returned
  rw [jsonEncode, bind_run, get_run] at encoded
  obtain ⟨text, ran, encoded, replaced⟩ := bind_eq_ok.mp encoded
  obtain ⟨w, reserved, outcome, rfl⟩ := outcome_run_eq_ok.mp encoded
  rw [withEncoded, outcome]
  have unread : ctx' = mid := by
    rw [bind_run, get_run] at rest
    dsimp only at rest
    generalize mid.get k = written at rest
    cases written <;> cases rest <;> rfl
  -- the text, or what there is instead of one, takes the place of the value on the stack
  cases text <;> cases replaced <;> exact unread ▸ ⟨List.length_set, rfl, rfl⟩

theorem marshalArg_state (plain : PlainHandles host) {ctx ctx' : Ctx H} {k : Nat} {out : NativeArg}
    (returned : marshalArg host k ctx = .ok out ctx') :
    SameState ctx' (afterTurn host ctx (ctx.get k)) := by
  rw [marshalArg, bind_run, get_run] at returned
  dsimp only at returned
  generalize v : ctx.get k = value at returned
  cases value with
  | pointer p | lightfunc f =>
    have state := marshalJson_state returned
    rw [v] at state
    exact state
  | object id =>
    dsimp only at returned
    rw [afterTurn]
    by_cases isFunction : (ctx.world.objects id).shape.ecmascriptFunction = true
    · rw [if_pos isFunction] at returned
      rw [if_pos isFunction]
      obtain ⟨_, pushed, room, returned⟩ := bind_eq_ok.mp returned
      obtain ⟨_, rfl⟩ := push_eq_ok.mp room
      rw [bind_ok (setAt_run 0 _)] at returned
      obtain ⟨h, after, saved, stored⟩ := bind_eq_ok.mp returned
      cases stored
      -- the copy goes from the top into the table
      obtain ⟨rfl, _, rest, configurable, stack, accepted, rfl⟩ := saveTopObject_inv plain saved
      cases stack
      refine ⟨rfl, rfl, ?_⟩
      have same : ctx.global.accepts (getEcmaObjNum (nextHandle host ctx)) = some configurable :=
        accepted
      rw [withSaved, same]
      rfl
    · rw [if_neg isFunction] at returned
      rw [if_neg isFunction]
      cases isBuffer : (ctx.world.objects id).shape.bufferData with
      | some data =>
        rw [isBuffer] at returned
        cases returned
        exact .refl ctx
      | none =>
        rw [isBuffer] at returned
        have state := marshalJson_state returned
        rw [v] at state
        exact state
  | _ =>
    cases returned
    exact .refl ctx

section Rounds

variable {values : List JsVal} {entry : Ctx H}

/-- The loop comes to an argument in the state that belongs to its turn. -/
theorem marshalRounds_turn (plain : PlainHandles host) (stack : entry.stack = values.reverse)
    {i : Nat} (within : i ≤ values.length) {loop : MarshalLoop} {turn : Ctx H}
    (ran : marshalRounds host values.length i entry = .ok loop turn) :
    SameState turn (turnAt host values entry i) := by
  have height : entry.height = values.length := by rw [Ctx.height, stack, List.length_reverse]
  induction i generalizing loop turn with
  | zero =>
    cases ran
    exact .refl entry
  | succ i ih =>
    obtain ⟨before, mid, first, round⟩ := bind_eq_ok.mp ran
    obtain ⟨out, after, packed, stored⟩ := bind_eq_ok.mp round
    cases stored
    -- the earlier rounds leave the arguments where they lie, so that this one meets the next of them
    have first' := first
    rw [← height] at first'
    obtain ⟨outs, marshalled, _, later⟩ := marshalRounds_ok (by omega) first'
    obtain ⟨_, _, same, filled⟩ := marshalled.rounds i (Nat.le_refl i)
    rw [first'] at same
    cases same
    rw [List.take_of_length_le (Nat.le_of_eq marshalled.length)] at filled
    have index : before.i = i := filled.i.trans marshalled.length
    have state := marshalArg_state plain packed
    rw [index, later _ (by omega), get_argument stack within] at state
    rw [turnAt_succ within]
    exact state.trans ((ih (by omega) first).afterTurn _)

theorem marshalRounds_returns (plain : PlainHandles host) (stack : entry.stack = values.reverse)
    {i : Nat} (within : i ≤ values.length) :
    Returns (marshalRounds host values.length i) entry ↔ TurnComes host values entry i := by
  induction i with
  | zero =>
    exact iff_of_true ⟨.start, entry, rfl⟩ fun m _ impossible => absurd impossible (Nat.not_lt_zero m)
  | succ i ih =>
    rw [turnComes_succ within, ← ih (by omega)]
    -- a round that is reached comes back if its argument can be handed over in this state
    by_cases reached : Returns (marshalRounds host values.length i) entry
    · obtain ⟨loop, turn, ran⟩ := reached
      have state := marshalRounds_turn plain stack (by omega) ran
      rw [marshalRounds_next plain stack within ran, state.handsOver]
      exact (and_iff_right ⟨loop, turn, ran⟩).symm
    · refine iff_of_false (fun next => reached ?_) fun both => reached both.1
      obtain ⟨_, _, returned⟩ := next
      obtain ⟨loop, turn, ran, _⟩ := bind_eq_ok.mp returned
      exact ⟨loop, turn, ran⟩

theorem marshalArgs_returns_iff (plain : PlainHandles host) (stack : entry.stack = values.reverse) :
    Returns (marshalArgs host values.length) entry ↔ TurnComes host values entry values.length := by
  rw [marshalArgs, returns_bind_total fun _ s => returns_pure _ s,
    marshalRounds_returns plain stack (Nat.le_refl _)]

end Rounds

/-! ### The types the values arrive with -/

/-- The text of a value; its length is a `size_t`. Where JSON has no text the length is 0. -/
def jsonText (host : Host H) (turn : Ctx H) (v : JsVal) : Bytes :=
  match host.jsonEncode turn.world turn.free v with
  | .returns (some text) _ _ => text.take (UInt64.ofNat text.length).toNat
  | _ => []

namespace GoFunc

variable (host) in
/-- The dynamic type of what `callGoFunc` makes of `v` for a parameter of type `t`. -/
def valueType (gf : GoFunc host.mem S) (turn : Ctx H) (t : GoType) (v : JsVal) : Option GoType :=
  match v with
  | .undefined | .null => some t
  | .boolean _ => some .bool
  | .number _ => some (numberFor t)
  | .string _ => some (if t.kind = .slice then .byteSlice else .string)
  | .buffer _ => some (if t.kind = .string then .string else .byteSlice)
  | .object id =>
    let shape := (turn.world.objects id).shape
    if shape.ecmascriptFunction then some .ecmaObjectPtr
    else if shape.bufferData.isSome then some (if t.kind = .string then .string else .byteSlice)
    else gf.jsonArrival t (jsonText host turn v)
  | .pointer _ | .lightfunc _ => gf.jsonArrival t (jsonText host turn v)

variable (host) in
/-- The value of argument `i` can be converted to the type of its parameter. -/
def Converts (gf : GoFunc host.mem S) (turn : Ctx H) (i : Nat) (v : JsVal) : Prop :=
  ∃ t, gf.valueType host turn (gf.argType i) v = some t ∧
    t.convertibleTo gf.implements (gf.argType i) = true

variable (host) in
/-- `callGoFunc` calls the function: every argument can be handed over, their number fits the
parameters, and each can be converted. -/
structure Takes (gf : GoFunc host.mem S) (values : List JsVal) (ctx : Ctx H) : Prop where
  handed : TurnComes host values ctx values.length
  admits : gf.Admits values.length
  converts : ∀ i (within : i < values.length),
    gf.Converts host (turnAt host values ctx i) i (values.get ⟨i, within⟩)

end GoFunc

variable {gf : GoFunc host.mem S}

theorem SameState.valueType {ctx ctx' : Ctx H} (same : SameState ctx ctx') (t : GoType) (v : JsVal) :
    gf.valueType host ctx t v = gf.valueType host ctx' t v := by
  have text : jsonText host ctx v = jsonText host ctx' v := by
    rw [jsonText, jsonText, same.world, same.free]
  cases v with
  | object id => simp only [GoFunc.valueType, same.world, text]
  | pointer p | lightfunc f => simp only [GoFunc.valueType, text]
  | _ => rfl

/-- What is packed for a value arrives with the type of the value. -/
theorem Carries.arrival {turn : Ctx H} {v : JsVal} {out : NativeArg}
    (carries : Carries host turn v out) (t : GoType) :
    gf.arrival t out = gf.valueType host turn t v := by
  have json : ∀ {w : JsVal} {array}, handedAsJson turn w = some array →
      gf.valueType host turn t w = gf.jsonArrival t (jsonText host turn w) := by
    intro w array asJson
    cases w with
    | object id =>
      rw [handedAsJson] at asJson
      split at asJson
      · cases asJson
      · next neither =>
        rw [Bool.or_eq_true, not_or] at neither
        rw [GoFunc.valueType, if_neg neither.1, if_neg neither.2]
    | pointer p | lightfunc f => rfl
    | _ => cases asJson
  cases carries with
  | function isFunction saved => simp [GoFunc.valueType, isFunction, GoFunc.arrival, NativeArg.word]
  | bufferObject noFunction isBuffer =>
    simp [GoFunc.valueType, noFunction, isBuffer, GoFunc.arrival, NativeArg.bytes]
  | @json _ array text w reserved asJson encoded =>
    rw [json asJson, jsonText, encoded]
    cases array <;> rfl
  | @noJson _ array w reserved asJson encoded =>
    rw [json asJson, jsonText, encoded]
    cases array <;> rfl
  | _ => rfl

/-- Of what is packed an invocation is made exactly if the count fits and each argument passes. -/
theorem invocation_ok_iff {outs : List NativeArg} {args : NativeArgs} (packed : Packed outs args) :
    (∃ argv, gf.invocation (some args) = .ok argv) ↔
      gf.Admits outs.length ∧ ∀ i out, outs[i]? = some out → gf.Passes i out := by
  by_cases admitted : gf.Admits outs.length
  · rw [invocation_packed packed admitted]
    rcases decodeRounds_outcome (f := gf) packed (Nat.le_refl _) with
      ⟨⟨loop, reached⟩, passed⟩ | ⟨stop, stopped, i, out, here, stops, _⟩
    · rw [reached]
      refine iff_of_true ⟨_, rfl⟩ ⟨admitted, fun i out here => ?_⟩
      exact passed i (List.getElem?_eq_some_iff.mp here).1 out here
    · rw [stopped]
      refine iff_of_false (fun impossible => ?_) fun passes => ?_
      · obtain ⟨argv, impossible⟩ := impossible
        cases impossible
      · obtain ⟨t, arrives, converts⟩ := passes.2 i out here
        cases stops with
        | untyped untyped => exact Option.some_ne_none t (arrives.symm.trans untyped)
        | refused refuses =>
          obtain ⟨t', arrives', unconverted⟩ := refuses
          rw [arrives] at arrives'
          cases arrives'
          exact Bool.noConfusion (unconverted.symm.trans converts)
  · refine iff_of_false ?_ fun both => admitted both.1
    rintro ⟨argv, invoked⟩
    have length : args.chars.length = outs.length := by rw [packed.chars, List.length_map]
    rw [GoFunc.invocation, length] at invoked
    rw [if_neg admitted] at invoked
    cases invoked

/-- The bridge and `callGoFunc` get to the call exactly with arguments that the function takes. -/
theorem takes_iff (plain : PlainHandles host) {values : List JsVal} {entry : Ctx H}
    (stack : entry.stack = values.reverse) : gf.Takes host values entry ↔
      ∃ args mid argv, marshalArgs host values.length entry = .ok args mid ∧
        gf.invocation (some args) = .ok argv := by
  -- once every argument is packed
  have packs : ∀ {args mid}, marshalArgs host values.length entry = .ok args mid →
      ((∃ argv, gf.invocation (some args) = .ok argv) ↔ gf.Takes host values entry) := by
    intro args mid returned
    have handed := (marshalArgs_returns_iff plain stack).mp ⟨args, mid, returned⟩
    obtain ⟨outs, marshalled, packed, _⟩ := marshalArgs_packed stack returned
    have count : outs.length = values.length := marshalled.length
    have written := marshalled.written stack
    -- an argument passes as its value converts in its turn
    have passes : ∀ i (within : i < values.length) out, outs[i]? = some out →
        (gf.Passes i out ↔ gf.Converts host (turnAt host values entry i) i
          (values.get ⟨i, within⟩)) := by
      intro i within out here
      obtain ⟨loop, turn, out', ran, here', carries⟩ := written.carries i within
      rw [here] at here'
      cases here'
      have state := marshalRounds_turn plain stack (Nat.le_of_lt within) ran
      rw [GoFunc.Passes, GoFunc.Converts, carries.arrival, state.valueType]
    rw [invocation_ok_iff packed, count]
    constructor
    · rintro ⟨admits, all⟩
      refine ⟨handed, admits, fun i within => ?_⟩
      have here := List.getElem?_eq_getElem (count ▸ within : i < outs.length)
      exact (passes i within _ here).mp (all i _ here)
    · intro takes
      refine ⟨takes.admits, fun i out here => ?_⟩
      have within : i < values.length := by
        rw [← count]
        exact (List.getElem?_eq_some_iff.mp here).1
      exact (passes i within out here).mpr (takes.converts i within)
  constructor
  · intro takes
    obtain ⟨args, mid, returned⟩ := (marshalArgs_returns_iff plain stack).mpr takes.handed
    obtain ⟨argv, invoked⟩ := (packs returned).mpr takes
    exact ⟨args, mid, argv, returned, invoked⟩
  · rintro ⟨args, mid, argv, returned, invoked⟩
    exact (packs returned).mp ⟨argv, invoked⟩

end DukBridge
