import DukBridge.CallGoFunc
import DukBridge.Lib.SlotWalk
import DukBridge.NativeBridge

/-!
# Slots written by native_func_bridge and read by callGoFunc

The bridge writes one slot or two for each argument of a script's call. `callGoFunc`
walks over them again, with an index that moves by the format characters.
-/
namespace DukBridge

open Effect SlotWalk

variable {H : Type} {host : Host H}

/-! ### What is written for a value -/

/-- The values handed over as JSON, and whether as an array. -/
def handedAsJson (ctx : Ctx H) : JsVal → Option Bool
  | .object id =>
    let shape := (ctx.world.objects id).shape
    if shape.ecmascriptFunction || shape.bufferData.isSome then none else some shape.array
  | .pointer _ | .lightfunc _ => some false
  | _ => none

/-- The kind, the length and the payload of a value, in the state in which its turn comes. -/
inductive Carries (host : Host H) (ctx : Ctx H) : JsVal → NativeArg → Prop where
  | undefined : Carries host ctx .undefined (.word .none 0)
  | null : Carries host ctx .null (.word .none 0)
  | boolean (b : Bool) : Carries host ctx (.boolean b) (.word .bool (if b then 1 else 0))
  | number (d : Float) : Carries host ctx (.number d) (.word .double (double2voidp d))
  | string (s : Bytes) :
      Carries host ctx (.string s) (.bytes .lstring (host.address ctx.world (.string s)) s)
  | buffer (data : Bytes) :
      Carries host ctx (.buffer data) (.bytes .buffer (host.address ctx.world (.buffer data)) data)
  | function {id h after} (isFunction : (ctx.world.objects id).shape.ecmascriptFunction = true)
      (saved : saveTopObject host (ctx.pushed (.object id)) = .ok h after) :
      Carries host ctx (.object id) (.word .ecmafunc h)
  | bufferObject {id data}
      (noFunction : (ctx.world.objects id).shape.ecmascriptFunction = false)
      (isBuffer : (ctx.world.objects id).shape.bufferData = some data) :
      Carries host ctx (.object id) (.bytes .buffer (host.address ctx.world (.object id)) data)
  | json {v array text w reserved} (asJson : handedAsJson ctx v = some array)
      (encoded : host.jsonEncode ctx.world ctx.free v = .returns (some text) w reserved) :
      Carries host ctx v (.bytes (if array then .jarray else .jobject)
        (host.address w (.string text)) text)
  | noJson {v array w reserved} (asJson : handedAsJson ctx v = some array)
      (encoded : host.jsonEncode ctx.world ctx.free v = .returns none w reserved) :
      Carries host ctx v ⟨if array then .jarray else .jobject, [.word 0, .word 0]⟩

/-- The formats of the bridge, with as many slots as their characters stand for. -/
def slotsDecoded : ArgFormat → Option Nat
  | .none | .bool | .double | .ecmafunc => some 1
  | .lstring | .buffer | .jarray | .jobject => some 2
  | .int | .zstring | .error | .mobject => none

theorem Carries.width {ctx : Ctx H} {v : JsVal} {out : NativeArg} (carries : Carries host ctx v out) :
    slotsDecoded out.fmt = some out.slots.length := by
  cases carries with
  | @json _ array _ _ _ _ _ | @noJson _ array _ _ _ _ => cases array <;> rfl
  | _ => rfl

theorem slots_le {out : NativeArg} (width : slotsDecoded out.fmt = some out.slots.length) :
    out.slots.length ≤ 2 := by
  cases fmt : out.fmt <;> simp [slotsDecoded, fmt] at width <;> omega

/-- Below the argument's own place the frame stays as it is. -/
structure SameFrame (ctx ctx' : Ctx H) (k : Nat) : Prop where
  height : ctx'.height = ctx.height
  others : ∀ m, m ≠ k → ctx'.get m = ctx.get m

theorem SameFrame.refl (ctx : Ctx H) (k : Nat) : SameFrame ctx ctx k := ⟨rfl, fun _ _ => rfl⟩

theorem marshalJson_ok {ctx ctx' : Ctx H} {k : Nat} {array : Bool} {out : NativeArg}
    (inside : k < ctx.height) (asJson : handedAsJson ctx (ctx.get k) = some array)
    (returned : marshalJson host k array ctx = .ok out ctx') :
    Carries host ctx (ctx.get k) out ∧ SameFrame ctx ctx' k := by
  obtain ⟨_, mid, encoded, rest⟩ := bind_eq_ok.mp returned
  rw [jsonEncode, bind_run, get_run] at encoded
  obtain ⟨text, ran, encoded, replaced⟩ := bind_eq_ok.mp encoded
  obtain ⟨w, reserved, outcome, rfl⟩ := outcome_run_eq_ok.mp encoded
  have frame : ∀ v, SameFrame ctx ⟨ctx.stack.set k v, ctx.reserve + reserved, w⟩ k := by
    intro v
    refine ⟨List.length_set, fun m other => ?_⟩
    simp only [Ctx.get, List.getD_eq_getElem?_getD]
    rw [List.getElem?_set_ne (Ne.symm other)]
  have place : ∀ v, (ctx.stack.set k v).getD k .undefined = v := by
    intro v
    rw [List.getD_eq_getElem?_getD, List.getElem?_set_self inside, Option.getD_some]
  cases text with
  | none =>
    cases replaced
    simp only [bind_run, get_run, Ctx.get, place] at rest
    cases rest
    exact ⟨.noJson asJson outcome, frame _⟩
  | some text =>
    cases replaced
    simp only [bind_run, get_run, Ctx.get, place] at rest
    cases rest
    exact ⟨.json asJson outcome, frame _⟩

theorem marshalArg_ok {ctx ctx' : Ctx H} {k : Nat} {out : NativeArg} (inside : k < ctx.height)
    (returned : marshalArg host k ctx = .ok out ctx') :
    Carries host ctx (ctx.get k) out ∧ SameFrame ctx ctx' k := by
  rw [marshalArg, bind_run, get_run] at returned
  cases v : ctx.get k with
  | undefined =>
    simp only [v] at returned
    cases returned
    exact ⟨.undefined, .refl ctx k⟩
  | null =>
    simp only [v] at returned
    cases returned
    exact ⟨.null, .refl ctx k⟩
  | boolean b =>
    simp only [v] at returned
    cases returned
    exact ⟨.boolean b, .refl ctx k⟩
  | number d =>
    simp only [v] at returned
    cases returned
    exact ⟨.number d, .refl ctx k⟩
  | string s =>
    simp only [v] at returned
    cases returned
    exact ⟨.string s, .refl ctx k⟩
  | buffer data =>
    simp only [v] at returned
    cases returned
    exact ⟨.buffer data, .refl ctx k⟩
  | pointer p | lightfunc f =>
    simp only [v] at returned
    rw [← v]
    exact marshalJson_ok inside (by rw [v]; rfl) returned
  | object id =>
    simp only [v] at returned
    by_cases isFunction : (ctx.world.objects id).shape.ecmascriptFunction = true
    · simp only [isFunction, if_true] at returned
      obtain ⟨_, pushed, room, returned⟩ := bind_eq_ok.mp returned
      obtain ⟨_, rfl⟩ := push_eq_ok.mp room
      rw [bind_ok (setAt_run 0 _)] at returned
      obtain ⟨h, after, saved, stored⟩ := bind_eq_ok.mp returned
      cases stored
      -- the copy is gone again when the save returns
      obtain ⟨_, popped⟩ := saveTopObject_stack saved
      have stack : ctx'.stack = ctx.stack := (List.cons.inj popped).2.symm
      refine ⟨.function isFunction saved, congrArg List.length stack, fun m _ => ?_⟩
      rw [Ctx.get, stack]
      rfl
    · have noFunction := Bool.eq_false_iff.mpr isFunction
      simp only [noFunction, Bool.false_eq_true, if_false] at returned
      cases isBuffer : (ctx.world.objects id).shape.bufferData with
      | some data =>
        simp only [isBuffer] at returned
        cases returned
        exact ⟨.bufferObject noFunction isBuffer, .refl ctx k⟩
      | none =>
        simp only [isBuffer] at returned
        have asJson : handedAsJson ctx (.object id) = some (ctx.world.objects id).shape.array := by
          simp [handedAsJson, noFunction, isBuffer]
        rw [← v] at asJson ⊢
        exact marshalJson_ok inside asJson returned

/-- The argument can be packed when its turn comes: a function has to be saved, and what is not
packed as it is goes through JSON. -/
def HandsOver (host : Host H) (ctx : Ctx H) (v : JsVal) : Prop :=
  match v with
  | .undefined | .null | .boolean _ | .number _ | .string _ | .buffer _ => True
  | .object id =>
    let shape := (ctx.world.objects id).shape
    if shape.ecmascriptFunction then Savable host ctx
    else if shape.bufferData.isSome then True
    else JsonReturns host ctx v
  | .pointer _ | .lightfunc _ => JsonReturns host ctx v

theorem marshalJson_returns {ctx : Ctx H} {k : Nat} (array : Bool) :
    Returns (marshalJson host k array) ctx ↔ JsonReturns host ctx (ctx.get k) := by
  rw [← jsonEncode_returns]
  apply returns_bind_total
  intro _ s
  rw [returns_bind_of_ok (get_run s)]
  split <;> exact returns_pure _ _

theorem marshalArg_returns (plain : PlainHandles host) {ctx : Ctx H} {k : Nat} :
    Returns (marshalArg host k) ctx ↔ HandsOver host ctx (ctx.get k) := by
  have json : ∀ array, Returns (marshalJson host k array) ctx ↔
      JsonReturns host ctx (ctx.get k) := fun array => marshalJson_returns array
  rw [marshalArg, returns_bind_of_ok (get_run ctx)]
  cases v : ctx.get k with
  | object id =>
    rw [v] at json
    rw [HandsOver]
    dsimp only
    by_cases isFunction : (ctx.world.objects id).shape.ecmascriptFunction = true
    · rw [if_pos isFunction, if_pos isFunction]
      exact copyAndSave_returns plain _ _
    · rw [if_neg isFunction, if_neg isFunction]
      cases isBuffer : (ctx.world.objects id).shape.bufferData with
      | some data => exact iff_of_true (returns_pure _ _) trivial
      | none => exact json _
  | pointer p | lightfunc f =>
    rw [v] at json
    exact json false
  | _ => exact iff_of_true (returns_pure _ _) trivial

/-! ### The loop of the bridge -/

theorem update_after {α : Type} (done : List α) (x : α) :
    Function.update (fun k => done[k]?) done.length (some x) = fun k => (done ++ [x])[k]? := by
  funext k
  rcases Nat.lt_trichotomy k done.length with before | rfl | behind
  · rw [Function.update_of_ne (by omega), List.getElem?_append_left before]
  · rw [Function.update_self, List.getElem?_concat_length]
  · have none : (done ++ [x])[k]? = none := List.getElem?_eq_none (by simp; omega)
    rw [Function.update_of_ne (by omega), none, List.getElem?_eq_none (by omega)]

theorem writeSlots_after (slots done : List SlotVal) :
    writeSlots slots done.length (fun k => done[k]?) = fun k => (done ++ slots)[k]? := by
  induction slots generalizing done with
  | nil => rw [List.append_nil]; rfl
  | cons slot slots ih =>
    have next := ih (done ++ [slot])
    rw [List.length_append, List.append_assoc] at next
    rw [writeSlots, update_after]
    exact next

/-- The variables of the loop after the arguments `outs`. -/
structure Filled (outs : List NativeArg) (loop : MarshalLoop) : Prop where
  i : loop.i = outs.length
  j : loop.j = (outs.map NativeArg.slots).flatten.length
  fmt : loop.fmt = fun k => (outs.map fun out => out.fmt.code)[k]?
  args : loop.args = fun k => (outs.map NativeArg.slots).flatten[k]?

theorem filled_store {outs : List NativeArg} {loop : MarshalLoop} (filled : Filled outs loop)
    (out : NativeArg) : Filled (outs ++ [out]) (loop.store out) := by
  obtain ⟨i, j, fmt, args⟩ := filled
  refine ⟨?_, ?_, ?_, ?_⟩
  · simp [MarshalLoop.store, i]
  · simp [MarshalLoop.store, j]
  · have codes := update_after (outs.map fun out => out.fmt.code) out.fmt.code
    rw [List.length_map] at codes
    rw [MarshalLoop.store, i, fmt, codes, List.map_append]
    rfl
  · rw [MarshalLoop.store, j, args, writeSlots_after, List.map_append, List.flatten_append]
    simp

/-- `n` rounds over the arguments of `entry` have written `outs`. -/
structure Marshalled (host : Host H) (entry : Ctx H) (n : Nat) (outs : List NativeArg) : Prop where
  length : outs.length = n
  rounds : ∀ i ≤ n, ∃ loop turn,
    marshalRounds host entry.height i entry = .ok loop turn ∧ Filled (outs.take i) loop
  carries : ∀ i < n, ∃ loop turn out, marshalRounds host entry.height i entry = .ok loop turn ∧
    outs[i]? = some out ∧ Carries host turn (entry.get (entry.height - 1 - i)) out

theorem marshalled_zero (entry : Ctx H) : Marshalled host entry 0 [] := by
  refine ⟨rfl, ?_, fun i within => absurd within (Nat.not_lt_zero i)⟩
  intro i within
  obtain rfl := Nat.le_zero.mp within
  exact ⟨.start, entry, rfl, rfl, rfl, rfl, rfl⟩

/-- What `n` rounds leave: the arguments whose turn has not come lie where they were. -/
theorem marshalRounds_ok {entry ctx : Ctx H} {n : Nat} {loop : MarshalLoop} (within : n ≤ entry.height)
    (returned : marshalRounds host entry.height n entry = .ok loop ctx) :
    ∃ outs, Marshalled host entry n outs ∧ ctx.height = entry.height ∧
      ∀ k < entry.height - n, ctx.get k = entry.get k := by
  -- over the rounds; the later arguments stay where they are until their turn
  induction n generalizing loop ctx with
  | zero =>
    cases returned
    exact ⟨[], marshalled_zero entry, rfl, fun _ _ => rfl⟩
  | succ n ih =>
    obtain ⟨before, mid, first, returned'⟩ := bind_eq_ok.mp returned
    obtain ⟨out, after, round, stored⟩ := bind_eq_ok.mp returned'
    cases stored
    obtain ⟨outs, marshalled, height, later⟩ := ih (by omega) first
    obtain ⟨loop, turn, ran, filled⟩ := marshalled.rounds n (Nat.le_refl n)
    rw [first] at ran
    cases ran
    rw [List.take_of_length_le (Nat.le_of_eq marshalled.length)] at filled
    have i : before.i = n := filled.i.trans marshalled.length
    rw [i] at round
    obtain ⟨carries, frame⟩ := marshalArg_ok (by omega) round
    rw [later _ (by omega)] at carries
    refine ⟨outs ++ [out], ⟨?_, ?_, ?_⟩, frame.height.trans height, ?_⟩
    · rw [List.length_append, marshalled.length]
      rfl
    · intro m bound
      rcases Nat.lt_or_eq_of_le bound with earlier | rfl
      · rw [List.take_append_of_le_length (by rw [marshalled.length]; omega)]
        exact marshalled.rounds m (by omega)
      · -- this round
        refine ⟨_, _, returned, ?_⟩
        rw [List.take_of_length_le (by simp [marshalled.length])]
        exact filled_store filled out
    · intro m bound
      rcases Nat.lt_or_eq_of_le (Nat.lt_succ_iff.mp bound) with earlier | rfl
      · obtain ⟨loop, turn, other, ran, here, held⟩ := marshalled.carries m earlier
        refine ⟨loop, turn, other, ran, ?_, held⟩
        rw [List.getElem?_append_left (by rw [marshalled.length]; omega)]
        exact here
      · refine ⟨_, _, out, first, ?_, carries⟩
        rw [← marshalled.length, List.getElem?_concat_length]
    · intro k bound
      rw [frame.others k (by omega)]
      exact later k (by omega)

/-- An argument counts from the bottom of the frame. -/
theorem get_argument {entry : Ctx H} {values : List JsVal} (stack : entry.stack = values.reverse)
    {i : Nat} (within : i < values.length) :
    entry.get (values.length - 1 - i) = values.get ⟨i, within⟩ := by
  have place : values.length - 1 - (values.length - 1 - i) = i := by omega
  rw [Ctx.get, stack, List.getD_eq_getElem?_getD, List.getElem?_reverse (by omega), place,
    List.getElem?_eq_getElem within, Option.getD_some, List.get_eq_getElem]

/-- The next round comes back exactly when the argument whose turn it is can be packed. -/
theorem marshalRounds_next (plain : PlainHandles host) {entry turn : Ctx H} {values : List JsVal}
    (stack : entry.stack = values.reverse) {i : Nat} (within : i < values.length)
    {written : MarshalLoop} (ran : marshalRounds host values.length i entry = .ok written turn) :
    Returns (marshalRounds host values.length (i + 1)) entry ↔
      HandsOver host turn (values.get ⟨i, within⟩) := by
  have height : entry.height = values.length := by rw [Ctx.height, stack, List.length_reverse]
  have ran' := ran
  rw [← height] at ran'
  obtain ⟨outs, marshalled, _, later⟩ := marshalRounds_ok (by omega) ran'
  obtain ⟨_, _, same, filled⟩ := marshalled.rounds i (Nat.le_refl i)
  rw [ran'] at same
  cases same
  rw [List.take_of_length_le (Nat.le_of_eq marshalled.length)] at filled
  have index : written.i = i := filled.i.trans marshalled.length
  rw [marshalRounds, returns_bind_of_ok ran, returns_bind_total fun _ s => returns_pure _ s,
    marshalArg_returns plain, index, later _ (by omega), get_argument stack within]

/-- The loop gets through exactly when each argument can be packed in the state it comes to. -/
theorem marshalArgs_returns (plain : PlainHandles host) {entry : Ctx H} {values : List JsVal}
    (stack : entry.stack = values.reverse) :
    Returns (marshalArgs host values.length) entry ↔
      ∀ i (within : i < values.length) written turn,
        marshalRounds host values.length i entry = .ok written turn →
        HandsOver host turn (values.get ⟨i, within⟩) := by
  rw [marshalArgs, returns_bind_total fun _ s => returns_pure _ s]
  constructor
  · rintro ⟨loop, ctx, returned⟩ i within written turn ran
    rw [← marshalRounds_next plain stack within ran]
    have height : entry.height = values.length := by rw [Ctx.height, stack, List.length_reverse]
    rw [← height] at returned ⊢
    obtain ⟨outs, marshalled, _⟩ := marshalRounds_ok (Nat.le_refl _) returned
    obtain ⟨loop', turn', next, _⟩ := marshalled.rounds (i + 1) (by omega)
    exact ⟨loop', turn', next⟩
  · intro each
    -- round after round, as far as there are arguments
    have progress : ∀ n ≤ values.length, Returns (marshalRounds host values.length n) entry := by
      intro n
      induction n with
      | zero => exact fun _ => ⟨.start, entry, rfl⟩
      | succ n ih =>
        intro within
        obtain ⟨written, turn, ran⟩ := ih (by omega)
        exact (marshalRounds_next plain stack within ran).mpr (each n within written turn ran)
    exact progress _ (Nat.le_refl _)

theorem Marshalled.widths {entry : Ctx H} {n : Nat} {outs : List NativeArg}
    (marshalled : Marshalled host entry n outs) :
    ∀ out ∈ outs, slotsDecoded out.fmt = some out.slots.length := by
  intro out member
  obtain ⟨i, here⟩ := List.mem_iff_getElem?.mp member
  have within : i < n := by
    rw [← marshalled.length]
    exact (List.getElem?_eq_some_iff.mp here).1
  obtain ⟨_, _, other, _, held, carries⟩ := marshalled.carries i within
  rw [here] at held
  cases held
  exact carries.width

/-- Every slot a round writes lies below two for each argument so far. -/
theorem Filled.bounded {outs : List NativeArg} {loop : MarshalLoop} (filled : Filled outs loop)
    (widths : ∀ out ∈ outs, slotsDecoded out.fmt = some out.slots.length) {k : Nat}
    (written : loop.args k ≠ none) : k < 2 * outs.length := by
  have narrow : ∀ slots ∈ outs.map NativeArg.slots, slots.length ≤ 2 := by
    intro slots member
    obtain ⟨out, held, rfl⟩ := List.mem_map.mp member
    exact slots_le (widths out held)
  have total := length_flatten_le narrow
  rw [filled.args] at written
  have inside := List.getElem?_eq_none_iff.not.mp written
  rw [List.length_map] at total
  omega

/-! ### The loop of callGoFunc -/

variable {mem : Memory} {S : Type} (f : GoFunc mem S)

/-- The argument that the slots of one JavaScript argument give a parameter of type `t`. -/
def NativeArg.decoded (t : GoType) (out : NativeArg) : Option GoArg :=
  (decodeArg f out.fmt.code t out.slots 0).map Prod.fst

/-- A round that starts at an argument's slots sees that argument only, and ends after them. -/
theorem decodeArg_at (t : GoType) {out : NativeArg}
    (width : slotsDecoded out.fmt = some out.slots.length) {arr : List SlotVal} {j : Nat}
    (cells : ∀ k < out.slots.length, arr[j + k]? = out.slots[k]?) :
    decodeArg f out.fmt.code t arr j =
      (out.decoded f t).map fun arg => (arg, j + out.slots.length) := by
  obtain ⟨fmt, slots⟩ := out
  rcases slots with _ | ⟨first, _ | ⟨second, _ | ⟨third, more⟩⟩⟩
  · cases fmt <;> simp [slotsDecoded] at width
  · -- one slot
    have cell := cells 0 (by simp)
    simp only [Nat.add_zero, List.getElem?_cons_zero] at cell
    cases fmt with
    | none | bool | double | ecmafunc => simp [NativeArg.decoded, decodeArg, cell]
    | _ => simp [slotsDecoded] at width
  · -- a length and an address
    have cell := cells 0 (by simp)
    have next := cells 1 (by simp)
    simp only [Nat.add_zero, List.getElem?_cons_zero, List.getElem?_cons_succ] at cell next
    cases fmt with
    | lstring | buffer | jarray | jobject => simp [NativeArg.decoded, decodeArg, cell, next]
    | _ => simp [slotsDecoded] at width
  · cases fmt <;> simp [slotsDecoded] at width

/-- The loop stands at the slots of argument `i`, and has decoded each earlier argument from its
own slots. -/
structure InStep (outs : List NativeArg) (n : Nat) (loop : DecodeLoop) : Prop where
  i : loop.i = n
  j : loop.j = offset (outs.map NativeArg.slots) n
  count : loop.argv.length = n
  args : ∀ m < n, ∀ out, outs[m]? = some out → loop.argv[m]? = out.decoded f (f.argType m)

/-- A loop in step decodes the next argument from that argument's slots. -/
theorem InStep.decodes {outs : List NativeArg} {i : Nat} {loop : DecodeLoop}
    (inStep : InStep f outs i loop) {out : NativeArg} (here : outs[i]? = some out)
    (width : slotsDecoded out.fmt = some out.slots.length) (after : List SlotVal) :
    decodeArg f ((outs.map fun out => out.fmt.code).getD loop.i 0) (f.argType loop.i)
        ((outs.map NativeArg.slots).flatten ++ after) loop.j =
      (out.decoded f (f.argType i)).map fun arg => (arg, loop.j + out.slots.length) := by
  have item : (outs.map NativeArg.slots)[i]? = some out.slots := by simp [here]
  have char : (outs.map fun out => out.fmt.code).getD i 0 = out.fmt.code := by
    rw [List.getD_eq_getElem?_getD, List.getElem?_map, here]
    rfl
  rw [inStep.i, inStep.j, char]
  exact decodeArg_at f (f.argType i) width fun k inside => packed_get item after inside

theorem decodeRounds_inStep {outs : List NativeArg} {bft : Bytes} {after : List SlotVal}
    (widths : ∀ out ∈ outs, slotsDecoded out.fmt = some out.slots.length)
    (chars : bft = outs.map fun out => out.fmt.code) {i : Nat} (within : i ≤ outs.length)
    {loop : DecodeLoop}
    (reached : decodeRounds f bft ((outs.map NativeArg.slots).flatten ++ after) i = .ok loop) :
    InStep f outs i loop := by
  induction i generalizing loop with
  | zero =>
    cases reached
    exact ⟨rfl, rfl, rfl, fun m impossible => absurd impossible (Nat.not_lt_zero m)⟩
  | succ i ih =>
    rw [decodeRounds] at reached
    cases first : decodeRounds f bft ((outs.map NativeArg.slots).flatten ++ after) i with
    | error stop =>
      rw [first] at reached
      cases reached
    | ok before =>
      rw [first] at reached
      change decodeRound f bft _ before = .ok loop at reached
      -- the invariant puts the loop at this argument's slots
      have inStep := ih (by omega) first
      obtain ⟨out, here⟩ : ∃ out, outs[i]? = some out :=
        ⟨_, List.getElem?_eq_getElem (by omega)⟩
      have item : (outs.map NativeArg.slots)[i]? = some out.slots := by simp [here]
      have round := inStep.decodes f here (widths out (List.mem_of_getElem? here)) after
      obtain ⟨at', start, count, args⟩ := inStep
      rw [← chars] at round
      rw [decodeRound, round, at', start] at reached
      cases decoded : out.decoded f (f.argType i) with
      | none =>
        rw [decoded] at reached
        cases reached
      | some arg =>
        rw [decoded] at reached
        cases type : arg.type with
        | none =>
          -- asking the zero Value for its type panics
          simp only [Option.map_some, type] at reached
          cases reached
        | some t =>
          simp only [Option.map_some, type] at reached
          split at reached
          · cases reached
            refine ⟨rfl, (offset_succ item).symm, by simp [count], ?_⟩
            intro m bound other held
            rcases Nat.lt_or_eq_of_le (Nat.lt_succ_iff.mp bound) with earlier | rfl
            · rw [List.getElem?_append_left (by rw [count]; exact earlier)]
              exact args m earlier other held
            · rw [here] at held
              cases held
              rw [← count, List.getElem?_concat_length, count, decoded]
          · cases reached

/-! ### Both loops -/

theorem formatChars_eq {fmt : Nat → Option UInt8} {codes : Bytes} (nonzero : ∀ c ∈ codes, c ≠ 0)
    {fuel i : Nat} (enough : codes.length < fuel)
    (stored : ∀ k ≤ codes.length, fmt (i + k) = (codes ++ [0])[k]?) :
    formatChars fmt fuel i = codes := by
  induction codes generalizing fuel i with
  | nil =>
    obtain ⟨fuel, rfl⟩ := Nat.exists_eq_succ_of_ne_zero (Nat.ne_zero_of_lt enough)
    have nul := stored 0 (Nat.le_refl 0)
    simp only [Nat.add_zero, List.nil_append, List.getElem?_cons_zero] at nul
    simp [formatChars, nul]
  | cons c codes ih =>
    obtain ⟨fuel, rfl⟩ := Nat.exists_eq_succ_of_ne_zero (Nat.ne_zero_of_lt enough)
    have first := stored 0 (Nat.zero_le _)
    simp only [Nat.add_zero, List.cons_append, List.getElem?_cons_zero] at first
    have rest : formatChars fmt fuel (i + 1) = codes := by
      apply ih (fun d member => nonzero d (List.mem_cons_of_mem c member))
      · simp only [List.length_cons] at enough
        omega
      · intro k bound
        have shifted := stored (k + 1) (by simpa using bound)
        rw [Nat.add_assoc, Nat.add_comm 1 k]
        simpa using shifted
    simp [formatChars, first, nonzero c List.mem_cons_self, rest]

theorem toPointerArray_eq {args : NativeArgs} {slots : List SlotVal}
    (stored : args.args = fun k => slots[k]?) {length : Nat} (room : slots.length ≤ length) :
    args.toPointerArray length = slots ++ List.replicate (length - slots.length) (.word 0) := by
  apply List.ext_getElem?
  intro k
  rw [NativeArgs.toPointerArray, stored]
  rcases Nat.lt_or_ge k slots.length with inside | behind
  · rw [List.getElem?_append_left inside, List.getElem?_map, List.getElem?_range (by omega)]
    simp [List.getElem?_eq_getElem inside]
  · rw [List.getElem?_append_right behind, List.getElem?_map]
    rcases Nat.lt_or_ge k length with below | above
    · rw [List.getElem?_range below, List.getElem?_replicate_of_lt (by omega)]
      simp [List.getElem?_eq_none behind]
    · rw [List.getElem?_eq_none (by simpa using above), List.getElem?_eq_none (by simp; omega)]
      rfl

/-- Where the arguments `values` of a native call lie, as the bridge and `callGoFunc` see them. -/
structure NativeLayout (host : Host H) (f : GoFunc mem S) (values : List JsVal) (entry : Ctx H)
    (args : NativeArgs) : Prop where
  slots : ∀ k, args.args k ≠ none → k < 2 * values.length
  format : ∃ codes : Bytes, codes.length = values.length ∧ (∀ c ∈ codes, c ≠ 0) ∧
    ∀ k, args.fmt k = (codes ++ [0])[k]?
  strlen : args.chars.length = values.length
  /-- Where the decoding loop gets, its index is the one at which the bridge stored. -/
  index : ∀ i ≤ values.length, ∀ loop,
    decodeRounds f args.chars (args.toPointerArray (2 * values.length)) i = .ok loop →
      ∃ written turn, marshalRounds host values.length i entry = .ok written turn ∧
        loop.j = written.j
  /-- A loop that ran to its end decoded each parameter from the argument at its position. -/
  params : ∀ loop,
    decodeRounds f args.chars (args.toPointerArray (2 * values.length)) values.length = .ok loop →
      ∀ i (within : i < values.length), ∃ written turn out,
        marshalRounds host values.length i entry = .ok written turn ∧
          Carries host turn (values.get ⟨i, within⟩) out ∧
          loop.argv[i]? = out.decoded f (f.argType i)

/-- The block holds the arguments `outs` one after the other. -/
structure Packed (outs : List NativeArg) (args : NativeArgs) : Prop where
  widths : ∀ out ∈ outs, slotsDecoded out.fmt = some out.slots.length
  format : args.fmt = fun k => (outs.map (fun out => out.fmt.code) ++ [0])[k]?
  chars : args.chars = outs.map fun out => out.fmt.code
  array : args.toPointerArray (2 * outs.length) = (outs.map NativeArg.slots).flatten ++
    List.replicate (2 * outs.length - (outs.map NativeArg.slots).flatten.length) (.word 0)

theorem codes_ne_zero (outs : List NativeArg) :
    ∀ c ∈ outs.map (fun out => out.fmt.code), c ≠ 0 := by
  intro c member
  obtain ⟨out, _, rfl⟩ := List.mem_map.mp member
  exact ArgFormat.code_ne_zero _

theorem Filled.packed {outs : List NativeArg} {loop : MarshalLoop} (filled : Filled outs loop)
    (widths : ∀ out ∈ outs, slotsDecoded out.fmt = some out.slots.length) :
    Packed outs ⟨outs.length, Function.update loop.fmt outs.length (some 0), loop.args⟩ := by
  have format : Function.update loop.fmt outs.length (some 0) =
      fun k => (outs.map (fun out => out.fmt.code) ++ [0])[k]? := by
    have nul := update_after (outs.map fun out => out.fmt.code) 0
    rw [List.length_map] at nul
    rw [filled.fmt, nul]
  refine ⟨widths, format, ?_, ?_⟩
  · refine formatChars_eq (codes_ne_zero outs) ?_ fun k _ => by rw [Nat.zero_add, format]
    rw [List.length_map]
    exact Nat.lt_succ_self _
  · have narrow : ∀ slots ∈ outs.map NativeArg.slots, slots.length ≤ 2 := by
      intro slots member
      obtain ⟨out, held, rfl⟩ := List.mem_map.mp member
      exact slots_le (widths out held)
    have total := length_flatten_le narrow
    rw [List.length_map] at total
    exact toPointerArray_eq filled.args (by omega)

theorem Marshalled.layout {values : List JsVal} {entry : Ctx H} {outs : List NativeArg}
    (stack : entry.stack = values.reverse)
    (marshalled : Marshalled host entry values.length outs) {args : NativeArgs}
    {loop : MarshalLoop} (filled : Filled outs loop)
    (block : args = ⟨values.length, Function.update loop.fmt values.length (some 0), loop.args⟩) :
    NativeLayout host f values entry args := by
  have height : entry.height = values.length := by rw [Ctx.height, stack, List.length_reverse]
  have length := marshalled.length
  have widths := marshalled.widths
  have bounded := fun k => filled.bounded widths (k := k)
  have packed : Packed outs args := by
    rw [block, ← length]
    exact filled.packed widths
  have chars := packed.chars
  have arr := packed.array
  rw [length] at arr
  refine ⟨?_, ⟨_, by rw [List.length_map, length], codes_ne_zero outs,
    fun k => by rw [packed.format]⟩, by rw [chars, List.length_map, length], ?_, ?_⟩
  · intro k written
    rw [← length]
    exact bounded k (by rwa [block] at written)
  · intro i within loop' reached
    -- the decoder's position is the one the bridge wrote this argument at
    rw [arr] at reached
    have inStep := decodeRounds_inStep f widths chars (by omega) reached
    obtain ⟨written, turn, ran, sofar⟩ := marshalled.rounds i within
    rw [height] at ran
    refine ⟨written, turn, ran, ?_⟩
    rw [inStep.j, sofar.j, offset_eq, List.map_take]
  · intro loop' reached i within
    rw [arr] at reached
    have inStep := decodeRounds_inStep f widths chars (by omega) reached
    obtain ⟨written, turn, out, ran, here, carries⟩ := marshalled.carries i within
    rw [height] at ran carries
    rw [get_argument stack within] at carries
    exact ⟨written, turn, out, ran, carries, inStep.args i within out here⟩

/-- What the loop of the bridge returns is a block with one argument for each value. -/
theorem marshalArgs_packed {values : List JsVal} {entry ctx : Ctx H} {args : NativeArgs}
    (stack : entry.stack = values.reverse)
    (returned : marshalArgs host values.length entry = .ok args ctx) :
    ∃ outs, Marshalled host entry values.length outs ∧ Packed outs args ∧
      ∃ loop, Filled outs loop ∧
        args = ⟨values.length, Function.update loop.fmt values.length (some 0), loop.args⟩ := by
  have height : entry.height = values.length := by rw [Ctx.height, stack, List.length_reverse]
  obtain ⟨loop, after, rounds, block⟩ := bind_eq_ok.mp returned
  cases block
  rw [← height] at rounds
  obtain ⟨outs, marshalled, _, _⟩ := marshalRounds_ok (Nat.le_refl _) rounds
  obtain ⟨_, _, ran, filled⟩ := marshalled.rounds _ (Nat.le_refl _)
  rw [rounds] at ran
  cases ran
  rw [List.take_of_length_le (Nat.le_of_eq marshalled.length)] at filled
  rw [height] at marshalled
  refine ⟨outs, marshalled, ?_, loop, filled, rfl⟩
  rw [← marshalled.length]
  exact filled.packed marshalled.widths

/-- The look-up before the loop leaves the arguments on the stack. -/
theorem getNativeFunc_stack {self : JsVal} {entry ctx : Ctx H} {found : Word × Word}
    (returned : getNativeFunc host self entry = .ok found ctx) : ctx.stack = entry.stack := by
  obtain ⟨_, a, pushed, returned⟩ := bind_eq_ok.mp returned
  obtain ⟨_, rfl⟩ := push_eq_ok.mp pushed
  obtain ⟨_, b, first, returned⟩ := bind_eq_ok.mp returned
  obtain ⟨_, c, second, returned⟩ := bind_eq_ok.mp returned
  obtain ⟨v, one⟩ := getPropString_stack first
  obtain ⟨w, two⟩ := getPropString_stack second
  simp only [bind_run, getAt_run, popN_run] at returned
  split at returned
  · next popped =>
    split at popped
    · -- the function and its two properties are gone again
      cases popped
      cases returned
      simp [two, one]
    · cases popped
  · cases returned

/-- For every list of arguments of a native call the bridge stays inside its block, gets through
as long as each argument can be packed, and the index of the decoding loop is the one at which
the bridge stored. -/
theorem nativeFuncBridge_layout (f : GoFunc mem S) (self : JsVal) (values : List JsVal)
    (call entry : Ctx H) (found : Word × Word) (stack : call.stack = values.reverse)
    (looked : getNativeFunc host self call = .ok found entry) :
    (∀ n ≤ values.length, ∀ loop ctx, marshalRounds host values.length n entry = .ok loop ctx →
      ∀ k, loop.args k ≠ none → k < 2 * values.length) ∧
    (PlainHandles host → (Returns (marshalArgs host values.length) entry ↔
      ∀ i (within : i < values.length) written turn,
        marshalRounds host values.length i entry = .ok written turn →
        HandsOver host turn (values.get ⟨i, within⟩))) ∧
    ∀ args ctx, marshalArgs host values.length entry = .ok args ctx →
      NativeLayout host f values entry args := by
  have arguments : entry.stack = values.reverse := (getNativeFunc_stack looked).trans stack
  have height : entry.height = values.length := by rw [Ctx.height, arguments, List.length_reverse]
  refine ⟨?_, fun plain => marshalArgs_returns plain arguments, ?_⟩
  · intro n within loop ctx returned k written
    rw [← height] at returned
    obtain ⟨outs, marshalled, _, _⟩ := marshalRounds_ok (by omega) returned
    obtain ⟨_, _, ran, filled⟩ := marshalled.rounds n (Nat.le_refl n)
    rw [returned] at ran
    cases ran
    rw [List.take_of_length_le (Nat.le_of_eq marshalled.length)] at filled
    have bounded := filled.bounded marshalled.widths written
    rw [marshalled.length] at bounded
    omega
  · intro args ctx returned
    obtain ⟨outs, marshalled, _, loop, filled, block⟩ := marshalArgs_packed arguments returned
    exact marshalled.layout f arguments filled block

/-- func(string, *EcmaObject, bool) -/
def threeParameters : GoFunc (fun _ => 0) Unit where
  params := [.string, .ecmaObjectPtr, .bool]
  variadic := false
  call _ := []
  implements _ _ := false
  unmarshal _ := none

/-- A native function, an ECMAScript function, and three arguments on the stack. -/
def threeArguments : Ctx Unit where
  stack := [.boolean true, .object 2, .string (ascii "hi")]
  reserve := 67
  world :=
    { objects := fun id => ⟨⟨id == 2, none, false, false⟩, fun _ => none, true, none⟩
      nextId := 3, reads := 0, heap := () }

theorem nativeFuncBridge_layout_threeArguments :
    ∃ found entry args ctx loop,
      getNativeFunc (idleHost fun _ => ⟨0, 5⟩) (.object 1) threeArguments = .ok found entry ∧
      marshalArgs (idleHost fun _ => ⟨0, 5⟩) 3 entry = .ok args ctx ∧
      decodeRounds threeParameters args.chars (args.toPointerArray 6) 3 = .ok loop ∧ loop.j = 4 ∧
      NativeLayout (idleHost fun _ => ⟨0, 5⟩) threeParameters
        [.string (ascii "hi"), .object 2, .boolean true] entry args := by
  refine ⟨_, _, _, _, _, rfl, rfl, rfl, rfl, ?_⟩
  exact (nativeFuncBridge_layout threeParameters (.object 1) _ threeArguments _ _ rfl rfl).2.2 _ _ rfl

end DukBridge
