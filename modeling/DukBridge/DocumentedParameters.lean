import DukBridge.ArgumentPanics
import DukBridge.HandleAccounts

/-!
# The parameter types of the README

A registered Go function may take primitive types, strings, byte slices, slices of these, maps with
string keys and functions. The values a script passes for them are compared with what `callGoFunc`
makes of their slots.
-/
namespace DukBridge

open Binary64 Effect

variable {H : Type} {host : Host H} {S : Type}

/-! ### Values for a parameter -/

/-- The value of an element or of a member is one of the Go type. -/
def GoJson.Fits : GoType → GoJson → Prop
  | .bool, .bool _ => True
  | .int k, .number d => ∃ n, Is d n ∧ k.contains n
  | .float32, .number _ | .float64, .number _ => True
  | .string, .string _ => True
  | .slice e, .array elems => ∀ j ∈ elems, Fits e j
  | .map .string v, .object members => ∀ m ∈ members, Fits v m.2
  | .interface methods, _ => methods = []
  | _, _ => False

/-- The element types of documented slices. -/
def GoType.primitive : GoType → Bool
  | .bool | .int _ | .float32 | .float64 | .string => true
  | _ => false

/-- The bytes of a buffer, or of a buffer object. -/
def Ctx.bufferBytes (ctx : Ctx H) : JsVal → Option Bytes
  | .buffer data => some data
  | .object id =>
    let shape := (ctx.world.objects id).shape
    if shape.ecmascriptFunction then none else shape.bufferData
  | _ => none

-- the data of an array or of an object
variable (content : World H → JsVal → GoJson → Prop)

/-- A documented parameter type, and a value of the matching kind. -/
inductive Matches (turn : Ctx H) : JsVal → GoType → Prop where
  | boolean (b : Bool) : Matches turn (.boolean b) .bool
  | integer {d k n} (integral : Is d n) (inRange : k.contains n) : Matches turn (.number d) (.int k)
  | float32 (d : Float) : Matches turn (.number d) .float32
  | float64 (d : Float) : Matches turn (.number d) .float64
  | string {s} (short : s.length ≤ maxStringLen) : Matches turn (.string s) .string
  | buffer {v data} (holds : turn.bufferBytes v = some data) (short : data.length ≤ maxBufferLen) :
      Matches turn v .byteSlice
  | array {v elems e} (primitive : e.primitive = true) (asArray : handedAsJson turn v = some true)
      (holds : content turn.world v (.array elems)) (fit : ∀ j ∈ elems, j.Fits e) :
      Matches turn v (.slice e)
  | object {v members e} (asObject : handedAsJson turn v = some false)
      (holds : content turn.world v (.object members)) (fit : ∀ m ∈ members, m.2.Fits e) :
      Matches turn v (.map .string e)
  | function {v} (function : turn.EcmascriptFunction v) : Matches turn v .ecmaObjectPtr

/-- What the text of an array or of an object stands for in Go is what the script had, and the
text of an array has more bytes than the array has elements. -/
structure JsonRoundTrips (host : Host H) (gf : GoFunc host.mem S)
    (content : World H → JsVal → GoJson → Prop) : Prop where
  encodes : ∀ w free v j, content w v j → ∃ text w' reserved,
    host.jsonEncode w free v = .returns (some text) w' reserved ∧ text.length ≤ maxStringLen ∧
      gf.unmarshal text = some j
  longer : ∀ text elems, gf.unmarshal text = some (.array elems) → elems.length < text.length

/-! ### The values converted -/

namespace GoArg

def elements (mem : Memory) : GoArg → List GoJson
  | .byteSlice s len => (s.bytes mem len).map fun b => .number (ofInt b.toNat)
  | .json (.array elems) => elems
  | _ => []

def members : GoArg → List (Bytes × GoJson)
  | .json (.object members) => members
  | _ => []

end GoArg

/-- The argument has the type of the parameter, and is the value of the script. -/
inductive Converted (host : Host H) (turn : Ctx H) : JsVal → GoType → GoArg → Prop where
  | boolean (b : Bool) : Converted host turn (.boolean b) .bool (.bool b)
  | integer {d k n} (integral : Is d n) (inRange : k.contains n) :
      Converted host turn (.number d) (.int k) (.number (.int k) d)
  | float32 (d : Float) : Converted host turn (.number d) .float32 (.number .float32 d)
  | float64 (d : Float) : Converted host turn (.number d) .float64 (.number .float64 d)
  | string {s slot len} (same : slot.bytes host.mem len = s) :
      Converted host turn (.string s) .string (.string slot len)
  | buffer {v data slot len} (holds : turn.bufferBytes v = some data)
      (same : slot.bytes host.mem len = data) :
      Converted host turn v .byteSlice (.byteSlice slot len)
  | array {v elems e arg} (holds : content turn.world v (.array elems))
      (type : arg.type = some (.slice e)) (same : arg.elements host.mem = elems) :
      Converted host turn v (.slice e) arg
  | object {v members e arg} (holds : content turn.world v (.object members))
      (type : arg.type = some (.map .string e)) (same : arg.members = members) :
      Converted host turn v (.map .string e) arg
  | function {v h after} (function : turn.EcmascriptFunction v)
      (saved : saveTopObject host (turn.pushed v) = .ok h after) :
      Converted host turn v .ecmaObjectPtr (.ecmaObject h)

/-- What `callGoFunc` makes arguments of: no `uintptr`, for a slice the bytes of a buffer, and for
a map one whose values are of any type. -/
structure Handled (turn : Ctx H) (v : JsVal) (t : GoType) : Prop where
  notUintptr : t ≠ .int .uintptr
  noArray : t.kind = .slice → handedAsJson turn v = none
  anyValues : ∀ e, t = .map .string e → e = .emptyInterface

/-! ### One argument -/

section Argument

variable {content} {gf : GoFunc host.mem S} {turn : Ctx H} {v : JsVal} {t : GoType}
  {out : NativeArg}

/-- A length that fits a word, with its bytes. -/
theorem pair_bytes {mem : Memory} {addr : Word} {data : Bytes} (short : data.length < 2 ^ 64) :
    (SlotVal.heap addr data).bytes mem
      (SlotVal.word (UInt64.ofNat data.length)).toWord.toNat = data := by
  have length : (UInt64.ofNat data.length).toNat = data.length := by
    rw [UInt64.toNat_ofNat', Nat.mod_eq_of_lt short]
  rw [SlotVal.bytes, SlotVal.toWord, length, List.take_length]

theorem short_of_le {n bound : Nat} (short : n ≤ bound) (small : bound < 2 ^ 64) : n < 2 ^ 64 :=
  Nat.lt_of_le_of_lt short small

theorem handedAsJson_of_buffer {data : Bytes} (holds : turn.bufferBytes v = some data) :
    handedAsJson turn v = none := by
  cases v with
  | object id =>
    rw [Ctx.bufferBytes] at holds
    split at holds
    · cases holds
    · rw [handedAsJson]
      simp [holds]
  | buffer data => rfl
  | _ => cases holds

theorem carries_buffer {data : Bytes} (holds : turn.bufferBytes v = some data)
    (carries : Carries host turn v out) : ∃ addr, out = .bytes .buffer addr data := by
  cases carries with
  | buffer data' =>
    cases holds
    exact ⟨_, rfl⟩
  | bufferObject noFunction isBuffer =>
    simp only [Ctx.bufferBytes, noFunction, Bool.false_eq_true, if_false, isBuffer] at holds
    cases holds
    exact ⟨_, rfl⟩
  | function isFunction _ => simp [Ctx.bufferBytes, isFunction] at holds
  | json asJson _ | noJson asJson _ =>
    rw [handedAsJson_of_buffer holds] at asJson
    cases asJson
  | _ => cases holds

/-- A value that has content is packed as its text. -/
theorem carries_json (json : JsonRoundTrips host gf content) {array : Bool} {j : GoJson}
    (asJson : handedAsJson turn v = some array) (holds : content turn.world v j)
    (carries : Carries host turn v out) : ∃ addr text, text.length ≤ maxStringLen ∧
      gf.unmarshal text = some j ∧
      out = .bytes (if array then .jarray else .jobject) addr text := by
  obtain ⟨text, w, reserved, encodes, short, means⟩ := json.encodes turn.world turn.free v j holds
  cases carries with
  | json asJson' encoded =>
    rw [asJson] at asJson'
    cases asJson'
    rw [encodes] at encoded
    cases encoded
    exact ⟨_, text, short, means, rfl⟩
  | noJson _ encoded =>
    rw [encodes] at encoded
    cases encoded
  | function isFunction _ => simp [handedAsJson, isFunction] at asJson
  | bufferObject noFunction isBuffer => simp [handedAsJson, noFunction, isBuffer] at asJson
  | _ => cases asJson

section Decoded

variable {array : Bool} {addr : Word} {text : Bytes}

/-- A parameter of slice kind gets the text itself. -/
theorem decoded_text (slice : t.kind = .slice) :
    (NativeArg.bytes (if array then .jarray else .jobject) addr text).decoded gf t =
      some (.byteSlice (.heap addr text)
        (SlotVal.word (UInt64.ofNat text.length)).toWord.toNat) := by
  cases array <;> simp [NativeArg.decoded, NativeArg.bytes, decodeArg, slice]

theorem decoded_value {j : GoJson} (noString : t.kind ≠ .string) (noSlice : t.kind ≠ .slice)
    (short : text.length ≤ maxStringLen) (means : gf.unmarshal text = some j) :
    (NativeArg.bytes (if array then .jarray else .jobject) addr text).decoded gf t =
      some (.json j) := by
  have bytes : (SlotVal.heap addr text).bytes host.mem
      (SlotVal.word (UInt64.ofNat text.length)).toWord.toNat = text :=
    pair_bytes (short_of_le short (by decide))
  cases array <;>
    simp [NativeArg.decoded, NativeArg.bytes, decodeArg, noString, noSlice, bytes, means]

theorem decoded_number (d : Float) :
    (NativeArg.word .double (double2voidp d)).decoded gf t = some (.number (numberFor t) d) := by
  have back : voidp2double (double2voidp d) = d := Float.ofBits_toBits d
  simp [NativeArg.decoded, NativeArg.word, decodeArg, back, SlotVal.toWord]

end Decoded

/-- A number is packed as its bits. -/
theorem carries_number {d : Float} (carries : Carries host turn (.number d) out) :
    out = .word .double (double2voidp d) := by
  cases carries with
  | number _ => rfl
  | json asJson _ | noJson asJson _ => cases asJson

/-- An argument that is handled comes as the value converted. -/
theorem decoded_converted (json : JsonRoundTrips host gf content) (matching : Matches content turn v t)
    (handled : Handled turn v t) (carries : Carries host turn v out) :
    ∃ arg, out.decoded gf t = some arg ∧ arg.type = some t ∧ Converted content host turn v t arg := by
  -- a value of each kind is packed in one form, and its parameter's type decides the rest
  cases matching with
  | boolean b =>
    cases carries with
    | boolean _ =>
      refine ⟨.bool b, ?_, rfl, .boolean b⟩
      cases b <;> rfl
    | json asJson _ | noJson asJson _ => cases asJson
  | @integer d k n integral inRange =>
    have own : numberFor (.int k) = .int k := by
      have other := handled.notUintptr
      cases k <;> first | rfl | exact absurd rfl other
    obtain rfl := carries_number carries
    refine ⟨.number (.int k) d, ?_, rfl, .integer integral inRange⟩
    rw [decoded_number, own]
  | float32 d =>
    obtain rfl := carries_number carries
    exact ⟨_, decoded_number d, rfl, .float32 d⟩
  | float64 d =>
    obtain rfl := carries_number carries
    exact ⟨_, decoded_number d, rfl, .float64 d⟩
  | @string s short =>
    cases carries with
    | string _ =>
      exact ⟨_, rfl, rfl, .string (pair_bytes (short_of_le short (by decide)))⟩
    | json asJson _ | noJson asJson _ => cases asJson
  | buffer holds short =>
    obtain ⟨addr, rfl⟩ := carries_buffer holds carries
    exact ⟨_, rfl, rfl, .buffer holds (pair_bytes (short_of_le short (by decide)))⟩
  | array _ asArray _ _ =>
    rw [handled.noArray rfl] at asArray
    cases asArray
  | @object _ members e asObject holds fit =>
    obtain rfl := handled.anyValues e rfl
    obtain ⟨addr, text, short, means, rfl⟩ := carries_json json asObject holds carries
    refine ⟨.json (.object members), ?_, rfl, .object holds rfl rfl⟩
    exact decoded_value (by decide) (by decide) short means
  | function function =>
    obtain ⟨h, after, rfl, saved⟩ := carries_function carries function
    exact ⟨_, rfl, rfl, .function function saved⟩

/-- The text of an array is not what the array holds. -/
theorem not_converted_text (json : JsonRoundTrips host gf content) {array : Bool} {e : GoType}
    {arg : GoArg} (asJson : handedAsJson turn v = some array) (carries : Carries host turn v out)
    (decoded : out.decoded gf (.slice e) = some arg) :
    ¬ Converted content host turn v (.slice e) arg := by
  intro converted
  cases converted with
  | buffer holds _ =>
    rw [handedAsJson_of_buffer holds] at asJson
    cases asJson
  | array holds _ same =>
    obtain ⟨addr, text, short, means, rfl⟩ := carries_json json asJson holds carries
    rw [decoded_text rfl] at decoded
    cases decoded
    have longer := json.longer text _ means
    rw [← same, GoArg.elements, pair_bytes (short_of_le short (by decide)), List.length_map] at longer
    exact Nat.lt_irrefl _ longer

/-- Any other argument does not. -/
theorem converted_handled (json : JsonRoundTrips host gf content) (matching : Matches content turn v t)
    (carries : Carries host turn v out) {arg : GoArg} (decoded : out.decoded gf t = some arg)
    (converted : Converted content host turn v t arg) : Handled turn v t := by
  refine ⟨?_, ?_, ?_⟩
  -- no decoded number has the type uintptr
  · rintro rfl
    cases matching with
    | integer _ _ =>
      obtain rfl := carries_number carries
      rw [decoded_number] at decoded
      cases converted
      cases decoded
  -- a slice gets the text of the array
  · intro slice
    cases asJson : handedAsJson turn v with
    | none => rfl
    | some array =>
      cases matching with
      | buffer _ _ => exact absurd converted (not_converted_text json asJson carries decoded)
      | array _ _ _ _ => exact absurd converted (not_converted_text json asJson carries decoded)
      | _ => cases slice
  -- every map is decoded as one of interfaces
  · rintro e rfl
    cases matching with
    | object asObject holds _ =>
      obtain ⟨addr, text, short, means, rfl⟩ := carries_json json asObject holds carries
      have kind : (GoType.map .string e).kind = .map := rfl
      rw [decoded_value (by simp [kind]) (by simp [kind]) short means] at decoded
      cases decoded
      cases converted with
      | object _ type _ =>
        cases type
        rfl

end Argument

/-! ### The call -/

section Call

variable {content} {gf : GoFunc host.mem S}
  {body : World H → Nat → List GoArg → Outcome H NativeResult} {nativeFunc udd : Word}
  {values : List JsVal} {entry ctx : Ctx H} {self : JsVal}

/-- The parameter at a position. -/
def GoFunc.param {mem : Memory} (f : GoFunc mem S) (i : Nat) : GoType :=
  f.params.getD i .unsafePointer

theorem target_param (fixed : gf.variadic = false) (i : Nat) :
    gf.argType i = gf.param i ∧ (i < gf.params.length → gf.target i = gf.param i) := by
  refine ⟨?_, fun within => ?_⟩
  · rw [GoFunc.argType, fixed]
    rfl
  · rw [GoFunc.target, GoFunc.fixed, fixed]
    exact if_pos within

variable (host) in
/-- What the native function is called with, and where. -/
inductive NativeCall (values : List JsVal) (ctx : Ctx H) : Option NativeArgs → Ctx H → Prop where
  | bare (empty : values = []) : NativeCall values ctx none ctx
  | packed {args mid} (block : AllocatesBlock host values)
      (marshalled : marshalArgs host values.length ctx = .ok args mid) :
      NativeCall values ctx (some args) mid

variable (host content gf values ctx) in
/-- The Go function is called with the values of the script, each converted when its turn came. -/
structure CalledWithValues (ft : Option NativeArgs) (mid : Ctx H) (argv : List GoArg) : Prop where
  native : NativeCall host values ctx ft mid
  invoked : gf.invocation ft = .ok argv
  assignable : gf.Assignable argv
  count : argv.length = values.length
  converted : ∀ i (within : i < values.length) (arg : GoArg), argv[i]? = some arg →
    ∃ written turn, marshalRounds host values.length i ctx = .ok written turn ∧
      Converted content host turn (values.get ⟨i, within⟩) (gf.param i) arg

theorem handsOver_of_matches {turn : Ctx H} {v : JsVal} {t : GoType}
    (json : JsonRoundTrips host gf content) (matching : Matches content turn v t)
    (savable : turn.EcmascriptFunction v → Savable host turn) : HandsOver host turn v := by
  -- what the documentation takes for an array or an object can be encoded
  have encodes : ∀ {array j}, handedAsJson turn v = some array → content turn.world v j →
      HandsOver host turn v := by
    intro array j asJson holds
    obtain ⟨text, w, reserved, encoded, _⟩ := json.encodes turn.world turn.free v j holds
    have returns : JsonReturns host turn v := ⟨_, _, _, encoded⟩
    cases v with
    | object id =>
      rw [handedAsJson] at asJson
      split at asJson
      · cases asJson
      · next neither =>
        rw [Bool.or_eq_true, not_or] at neither
        rw [HandsOver]
        simp only [neither.1, neither.2]
        exact returns
    | pointer p | lightfunc f => exact returns
    | _ => cases asJson
  cases matching with
  | buffer holds _ =>
    cases v with
    | object id =>
      rw [Ctx.bufferBytes] at holds
      split at holds
      · cases holds
      · next noFunction =>
        rw [HandsOver]
        simp [noFunction, holds]
    | buffer data => trivial
    | _ => cases holds
  | array _ asArray holds _ => exact encodes asArray holds
  | object asObject holds _ => exact encodes asObject holds
  | function function => exact (handsOver_of_function function).mpr (savable function)
  | _ => trivial

theorem assignableTo_self (implements : GoType → List String → Bool) (t : GoType) :
    t.assignableTo implements t = true := by
  simp [GoType.assignableTo]

theorem convertibleTo_self (implements : GoType → List String → Bool) (t : GoType) :
    t.convertibleTo implements t = true := by
  simp [GoType.convertibleTo]

/-- A list of arguments that all decode to the types of their parameters is taken as it is. -/
theorem invocation_of_decoded {outs : List NativeArg} {args : NativeArgs} (packed : Packed outs args)
    (admitted : gf.Admits outs.length)
    (each : ∀ i out, outs[i]? = some out →
      ∃ arg, out.decoded gf (gf.argType i) = some arg ∧ arg.type = some (gf.argType i)) :
    ∃ argv, gf.invocation (some args) = .ok argv := by
  rw [invocation_packed packed admitted]
  rcases decodeRounds_outcome (f := gf) packed (Nat.le_refl _) with
    ⟨⟨loop, reached⟩, _⟩ | ⟨stop, _, i, out, here, stops, _⟩
  · rw [reached]
    exact ⟨_, rfl⟩
  · obtain ⟨arg, decoded, type⟩ := each i out here
    obtain ⟨arg', decoded', arrives⟩ :=
      decoded_type (f := gf) (packed.widths out (List.mem_of_getElem? here)) (gf.argType i)
    rw [decoded] at decoded'
    cases decoded'
    rw [type] at arrives
    cases stops with
    | untyped untyped => cases arrives.trans untyped
    | refused refuses =>
      obtain ⟨t, refusedType, unconverted⟩ := refuses
      cases arrives.trans refusedType
      rw [convertibleTo_self] at unconverted
      cases unconverted

/-- Whatever the list was made of, each argument was decoded from its own slots. -/
theorem decoded_of_invocation {outs : List NativeArg} {args : NativeArgs} {argv : List GoArg}
    (packed : Packed outs args) (admitted : gf.Admits outs.length)
    (invoked : gf.invocation (some args) = .ok argv) :
    argv.length = outs.length ∧
      ∀ i (out : NativeArg), outs[i]? = some out → argv[i]? = out.decoded gf (gf.argType i) := by
  rw [invocation_packed packed admitted] at invoked
  cases reached : decodeRounds gf args.chars (args.toPointerArray (2 * outs.length)) outs.length with
  | error stop =>
    rw [reached] at invoked
    cases invoked
  | ok loop =>
    rw [reached] at invoked
    cases invoked
    rw [packed.array] at reached
    have inStep := decodeRounds_inStep gf packed.widths packed.chars (Nat.le_refl _) reached
    refine ⟨inStep.count, fun i out here => ?_⟩
    exact inStep.args i (List.getElem?_eq_some_iff.mp here).1 out here

variable (host gf values ctx) in
/-- When its turn comes each value is one for its parameter. -/
def MatchesInTurn (content : World H → JsVal → GoJson → Prop) : Prop :=
  ∀ i (within : i < values.length) written turn,
    marshalRounds host values.length i ctx = .ok written turn →
    Matches content turn (values.get ⟨i, within⟩) (gf.param i)

variable (host gf values ctx) in
/-- When its turn comes each value is one that is handled, and if it is a function it is saved. -/
def HandledInTurn : Prop :=
  ∀ i (within : i < values.length) written turn,
    marshalRounds host values.length i ctx = .ok written turn →
    (turn.EcmascriptFunction (values.get ⟨i, within⟩) → Savable host turn) ∧
      Handled turn (values.get ⟨i, within⟩) (gf.param i)

theorem admits_count (fixed : gf.variadic = false) (count : values.length = gf.params.length) {n : Nat}
    (same : n = values.length) : gf.Admits n := by
  rw [GoFunc.Admits, fixed, same, count]
  exact rfl

section Conditions

variable (plain : PlainHandles host) (json : JsonRoundTrips host gf content)
  (fixed : gf.variadic = false) (count : values.length = gf.params.length)
  (frame : ctx.stack = values.reverse) (matching : MatchesInTurn host gf values ctx content)
include plain json fixed count frame matching

omit plain count frame in
/-- Every argument comes as its value, with the type of its parameter. -/
theorem decoded_in_turn (handled : HandledInTurn host gf values ctx) {outs : List NativeArg}
    (written : Written host ctx values outs) {i : Nat} {out : NativeArg}
    (here : outs[i]? = some out) :
    ∃ (within : i < values.length) (loop : MarshalLoop) (turn : Ctx H) (arg : GoArg),
      marshalRounds host values.length i ctx = .ok loop turn ∧
      out.decoded gf (gf.argType i) = some arg ∧ arg.type = some (gf.param i) ∧
      Converted content host turn (values.get ⟨i, within⟩) (gf.param i) arg := by
  have within : i < values.length := by
    rw [← written.length]
    exact (List.getElem?_eq_some_iff.mp here).1
  obtain ⟨loop, turn, out', ran, here', carried⟩ := written.carries i within
  rw [here] at here'
  cases here'
  obtain ⟨arg, decoded, type, converted⟩ := decoded_converted json
    (matching i within loop turn ran) (handled i within loop turn ran).2 carried
  rw [← (target_param fixed i).1] at decoded
  exact ⟨within, loop, turn, arg, ran, decoded, type, converted⟩

theorem called_of_handled (block : values ≠ [] → AllocatesBlock host values)
    (handled : HandledInTurn host gf values ctx) :
    ∃ ft mid argv, CalledWithValues host content gf values ctx ft mid argv := by
  by_cases empty : values = []
  · -- no arguments, and none expected
    have none : gf.params.length = 0 := by rw [← count, empty, List.length_nil]
    refine ⟨Option.none, ctx, [], .bare empty, ?_, fun i arg here => (by cases here), ?_, ?_⟩
    · simp [GoFunc.invocation, none]
    · rw [empty]
      rfl
    · intro i within
      rw [empty] at within
      exact absurd within (Nat.not_lt_zero i)
  · obtain ⟨args, mid, marshalled⟩ := (marshalArgs_returns plain frame).mpr
      fun i within written turn ran => handsOver_of_matches json (matching i within written turn ran)
        (handled i within written turn ran).1
    obtain ⟨outs, rounds, packed, _⟩ := marshalArgs_packed frame marshalled
    have written := rounds.written frame
    have admitted : gf.Admits outs.length := admits_count fixed count written.length
    obtain ⟨argv, invoked⟩ := invocation_of_decoded packed admitted fun i out here => by
      obtain ⟨_, _, _, arg, _, decoded, type, _⟩ :=
        decoded_in_turn json fixed matching handled written here
      exact ⟨arg, decoded, (target_param fixed i).1 ▸ type⟩
    obtain ⟨same, positions⟩ := decoded_of_invocation packed admitted invoked
    -- what a position of the list holds was decoded there
    have stored : ∀ (i : Nat) (arg : GoArg), argv[i]? = some arg → ∃ out,
        outs[i]? = some out ∧ out.decoded gf (gf.argType i) = some arg := by
      intro i arg here
      have within : i < outs.length := same ▸ (List.getElem?_eq_some_iff.mp here).1
      have there := List.getElem?_eq_getElem within
      exact ⟨_, there, (positions i _ there).symm.trans here⟩
    refine ⟨some args, mid, argv, .packed (block empty) marshalled, invoked, ?_,
      same.trans written.length, ?_⟩
    · intro i arg here
      obtain ⟨out, there, decoded⟩ := stored i arg here
      obtain ⟨within, _, _, arg', _, decoded', type, _⟩ :=
        decoded_in_turn json fixed matching handled written there
      cases decoded.symm.trans decoded'
      refine ⟨gf.param i, type, ?_⟩
      rw [(target_param fixed i).2 (count ▸ within)]
      exact assignableTo_self _ _
    · intro i within arg here
      obtain ⟨out, there, decoded⟩ := stored i arg here
      obtain ⟨_, loop, turn, arg', ran, decoded', _, converted⟩ :=
        decoded_in_turn json fixed matching handled written there
      cases decoded.symm.trans decoded'
      exact ⟨loop, turn, ran, converted⟩

theorem handled_of_called {ft : Option NativeArgs} {mid : Ctx H} {argv : List GoArg}
    (called : CalledWithValues host content gf values ctx ft mid argv) :
    (values ≠ [] → AllocatesBlock host values) ∧ HandledInTurn host gf values ctx := by
  obtain ⟨native, invoked, _, length, converted⟩ := called
  cases native with
  | bare empty =>
    refine ⟨fun some => absurd empty some, fun i within => ?_⟩
    rw [empty] at within
    exact absurd within (Nat.not_lt_zero i)
  | packed block marshalled =>
    refine ⟨fun _ => block, fun i within written turn ran => ?_⟩
    have hands := (marshalArgs_returns plain frame).mp ⟨_, _, marshalled⟩ i within written turn ran
    obtain ⟨outs, rounds, packed, _⟩ := marshalArgs_packed frame marshalled
    obtain ⟨same, carries⟩ := rounds.written frame
    have admitted : gf.Admits outs.length := admits_count fixed count same
    obtain ⟨_, positions⟩ := decoded_of_invocation packed admitted invoked
    obtain ⟨_, _, out, ran', here, carried⟩ := carries i within
    rw [ran] at ran'
    cases ran'
    obtain ⟨arg, there⟩ : ∃ arg, argv[i]? = some arg :=
      ⟨_, List.getElem?_eq_getElem (length ▸ within)⟩
    obtain ⟨_, _, ran', value⟩ := converted i within arg there
    rw [ran] at ran'
    cases ran'
    have decoded := (positions i out here).symm.trans there
    rw [(target_param fixed i).1] at decoded
    -- a function was handed over, so it was saved
    exact ⟨fun function => (handsOver_of_function function).mp hands,
      converted_handled json (matching i within _ _ ran) carried decoded value⟩

end Conditions

/-- From there on everything is left to the function. -/
theorem nativeFuncBridge_of_called (stack : entry.stack = values.reverse)
    (found : getNativeFunc host self entry = .ok (nativeFunc, udd) ctx)
    (native : ∀ w free args,
      host.native w free nativeFunc udd args = goFuncBridge gf body w free args)
    {ft : Option NativeArgs} {mid : Ctx H} {argv : List GoArg}
    (called : CalledWithValues host content gf values ctx ft mid argv) :
    nativeFuncBridge host self entry =
      (do pushResult host (← (body mid.world mid.free argv).run)) mid := by
  have height : entry.height = values.length := by rw [Ctx.height, stack, List.length_reverse]
  have runs : ∀ {ft} {s : Ctx H}, gf.invocation ft = .ok argv → callAndPush host nativeFunc udd ft s =
      (do pushResult host (← (body s.world s.free argv).run)) s := by
    intro ft s invoked
    rw [callAndPush, bind_run, bind_run, callNative_run, native, goFuncBridge, invoked]
  rw [nativeFuncBridge_eq, bind_ok found, height, marshalAndCall]
  cases called.native with
  | bare empty =>
    rw [if_pos (List.length_eq_zero_iff.mpr empty)]
    exact runs called.invoked
  | packed block marshalled =>
    have some : values.length ≠ 0 := fun none => block.1 (List.length_eq_zero_iff.mp none)
    rw [if_neg some, if_pos block.2, bind_ok marshalled]
    exact runs called.invoked

end Call

/-- For every function whose parameters are all fixed, and values that match them: it is called, once
and with the values converted, exactly if there is a block for the arguments, every function among
them can be saved, no parameter is a `uintptr`, a slice is a byte slice and comes from a buffer,
and a map has values of any type. -/
theorem documented_call_iff (plain : PlainHandles host) (gf : GoFunc host.mem S)
    (content : World H → JsVal → GoJson → Prop) (json : JsonRoundTrips host gf content)
    (body : World H → Nat → List GoArg → Outcome H NativeResult) (values : List JsVal) (self : JsVal)
    (entry ctx : Ctx H) (nativeFunc udd : Word) (fixed : gf.variadic = false)
    (count : values.length = gf.params.length) (stack : entry.stack = values.reverse)
    (found : getNativeFunc host self entry = .ok (nativeFunc, udd) ctx)
    (native : ∀ w free args,
      host.native w free nativeFunc udd args = goFuncBridge gf body w free args)
    (matching : MatchesInTurn host gf values ctx content) :
    (∃ ft mid argv, CalledWithValues host content gf values ctx ft mid argv ∧
      nativeFuncBridge host self entry =
        (do pushResult host (← (body mid.world mid.free argv).run)) mid) ↔
    (values ≠ [] → AllocatesBlock host values) ∧ HandledInTurn host gf values ctx := by
  have frame : ctx.stack = values.reverse := (getNativeFunc_stack found).trans stack
  constructor
  · rintro ⟨ft, mid, argv, called, _⟩
    exact handled_of_called plain json fixed count frame matching called
  · rintro ⟨block, handled⟩
    obtain ⟨ft, mid, argv, called⟩ :=
      called_of_handled plain json fixed count frame matching block handled
    exact ⟨ft, mid, argv, called, nativeFuncBridge_of_called stack found native called⟩

/-! ### An array and an object -/

def arrayText : Bytes := ascii "[true]"

def objectText : Bytes := ascii "\x7b\"a\":true\x7d"

/-- Object 1 is an array of one element, and object 3 has one member. -/
def oneEach (_ : World Unit) (v : JsVal) (j : GoJson) : Prop :=
  v = .object 1 ∧ j = .array [.bool true] ∨ v = .object 3 ∧ j = .object [(ascii "a", .bool true)]

/-- A Go function with these parameters. -/
def anyFunc (params : List GoType) : GoFunc (fun _ => 0) Unit where
  params
  variadic := false
  call _ := []
  implements _ _ := false
  unmarshal text :=
    if text = arrayText then some (.array [.bool true])
    else if text = objectText then some (.object [(ascii "a", .bool true)])
    else none

/-- Whenever the function is called, the script gets true. -/
def trueBody (w : World Unit) (_ : Nat) (_ : List GoArg) : Outcome Unit NativeResult :=
  .returns (.word .bool 1) w 0

def anyFuncHost (params : List GoType) : Host Unit :=
  { stillHost with
    jsonEncode := fun w _ v =>
      .returns (if v = .object 1 then some arrayText else some objectText) w 0
    native := fun w free _ _ args => goFuncBridge (anyFunc params) trueBody w free args }

/-- A frame in which object 2, the native function, is called with these arguments. -/
def anyFuncFrame (values : List JsVal) : Ctx Unit where
  stack := values.reverse
  reserve := values.length + 64
  world := adderWorld.setObject 1 ⟨{ ObjShape.plain with array := true }, fun _ => none, true, none⟩

theorem anyFunc_roundTrips (params : List GoType) :
    JsonRoundTrips (anyFuncHost params) (anyFunc params) oneEach where
  encodes w free v j holds := by
    rcases holds with ⟨rfl, rfl⟩ | ⟨rfl, rfl⟩
    · exact ⟨arrayText, w, 0, rfl, by decide, rfl⟩
    · exact ⟨objectText, w, 0, rfl, by decide, rfl⟩
  longer text elems means := by
    rw [anyFunc] at means
    dsimp only at means
    split at means
    · next same =>
      cases means
      rw [same]
      decide
    · split at means <;> cases means

theorem not_called_of_rejected {content : World H → JsVal → GoJson → Prop} {gf : GoFunc host.mem S}
    {values : List JsVal} {ctx mid : Ctx H} {args : NativeArgs} (nonempty : values ≠ [])
    (marshalled : marshalArgs host values.length ctx = .ok args mid)
    (rejected : gf.invocation (some args) = .error .rejected) :
    ¬ ∃ ft mid argv, CalledWithValues host content gf values ctx ft mid argv := by
  rintro ⟨ft, mid', argv, called⟩
  have invoked := called.invoked
  cases called.native with
  | bare empty => exact nonempty empty
  | packed _ marshalled' =>
    rw [marshalled] at marshalled'
    cases marshalled'
    rw [rejected] at invoked
    cases invoked

/-- `f([true])` for func([]bool), and `f({a: true})` for func(map[string]bool): the script gets
undefined, and nothing is called. -/
theorem documented_call_rejected :
    (∃ ctx s, getNativeFunc (anyFuncHost [.slice .bool]) (.object 2) (anyFuncFrame [.object 1]) =
        .ok (12288, 0) ctx ∧ Matches oneEach ctx (.object 1) (.slice .bool) ∧
      nativeFuncBridge (anyFuncHost [.slice .bool]) (.object 2) (anyFuncFrame [.object 1]) = .ok 0 s ∧
      ¬ ∃ ft mid argv, CalledWithValues (anyFuncHost [.slice .bool]) oneEach (anyFunc [.slice .bool])
        [.object 1] ctx ft mid argv) ∧
    ∃ ctx s, getNativeFunc (anyFuncHost [.map .string .bool]) (.object 2) (anyFuncFrame [.object 3]) =
        .ok (12288, 0) ctx ∧ Matches oneEach ctx (.object 3) (.map .string .bool) ∧
      nativeFuncBridge (anyFuncHost [.map .string .bool]) (.object 2) (anyFuncFrame [.object 3]) =
        .ok 0 s ∧
      ¬ ∃ ft mid argv, CalledWithValues (anyFuncHost [.map .string .bool]) oneEach
        (anyFunc [.map .string .bool]) [.object 3] ctx ft mid argv := by
  refine ⟨⟨_, _, rfl, ?_, rfl, ?_⟩, _, _, rfl, ?_, rfl, ?_⟩
  · refine .array rfl rfl (.inl ⟨rfl, rfl⟩) fun j member => ?_
    cases List.mem_singleton.mp member
    trivial
  · exact not_called_of_rejected (by simp) rfl rfl
  · refine .object rfl (.inr ⟨rfl, rfl⟩) fun m member => ?_
    cases List.mem_singleton.mp member
    trivial
  · exact not_called_of_rejected (by simp) rfl rfl

/-- func(bool, map[string]interface{}) is called. -/
theorem documented_call_values : ∃ ctx ft mid argv,
    CalledWithValues (anyFuncHost [.bool, .map .string .emptyInterface]) oneEach
      (anyFunc [.bool, .map .string .emptyInterface]) [.boolean true, .object 3] ctx ft mid argv ∧
    nativeFuncBridge (anyFuncHost [.bool, .map .string .emptyInterface]) (.object 2)
        (anyFuncFrame [.boolean true, .object 3]) =
      (do pushResult (anyFuncHost [.bool, .map .string .emptyInterface])
            (← (trueBody mid.world mid.free argv).run)) mid := by
  have plain : PlainHandles (anyFuncHost [.bool, .map .string .emptyInterface]) :=
    ⟨fun _ _ _ => rfl, fun _ _ _ _ => rfl⟩
  have called := documented_call_iff plain (anyFunc [.bool, .map .string .emptyInterface]) oneEach
    (anyFunc_roundTrips _) trueBody [.boolean true, .object 3] (.object 2)
    (anyFuncFrame [.boolean true, .object 3]) _ _ _ rfl rfl rfl rfl (fun _ _ _ => rfl)
  refine ⟨_, (called ?_).mpr ⟨fun _ => ⟨by simp, rfl⟩, ?_⟩⟩
  · intro i within written turn ran
    match i with
    | 0 => exact .boolean true
    | 1 =>
      cases ran
      refine .object rfl (.inr ⟨rfl, rfl⟩) fun m member => ?_
      cases List.mem_singleton.mp member
      rfl
  · intro i within written turn ran
    match i with
    | 0 =>
      refine ⟨fun function => function.elim, by decide, fun slice => ?_, fun e same => ?_⟩
      · exact absurd slice (by decide)
      · cases same
    | 1 =>
      cases ran
      refine ⟨fun function => (by cases function), by decide, fun slice => ?_, fun e same => ?_⟩
      · exact absurd slice (by decide)
      · cases same
        rfl

end DukBridge
