import DukBridge.ArgumentLayout
import DukBridge.GoInvocation

/-!
# When callGoFunc panics on its arguments

The loop tests whether an argument can be converted to the type of its parameter, and
`Value.Call` whether it can be assigned. A value whose text is `null` has no type to test.
-/
namespace DukBridge

open Effect

variable {H : Type} {host : Host H} {mem : Memory} {S σ : Type}

/-! ### The types arguments arrive with -/

/-- The bytes at the address of a pair. -/
def NativeArg.text (mem : Memory) (out : NativeArg) : Bytes :=
  (out.slots.getD 1 (.word 0)).bytes mem (out.slots.getD 0 (.word 0)).toWord.toNat

namespace GoFunc

/-- What arrives as JSON: the text itself, the value it stands for, or a zero value. The null of
JSON has no type. -/
def jsonArrival (f : GoFunc mem S) (t : GoType) (text : Bytes) : Option GoType :=
  if t.kind = .string then some .string
  else if t.kind = .slice then some .byteSlice
  else
    match f.unmarshal text with
    | some o => o.type
    | none => some t

/-- The dynamic type of an argument for a parameter of type `t`. -/
def arrival (f : GoFunc mem S) (t : GoType) (out : NativeArg) : Option GoType :=
  match out.fmt with
  | .none => some t
  | .bool => some .bool
  | .double => some (numberFor t)
  | .lstring => some (if t.kind = .slice then .byteSlice else .string)
  | .buffer => some (if t.kind = .string then .string else .byteSlice)
  | .jobject | .jarray => f.jsonArrival t (out.text mem)
  | .ecmafunc => some .ecmaObjectPtr
  | .int | .zstring | .error | .mobject => none

/-- The argument at position `i` is one the loop stops at without a panic. -/
def Refuses (f : GoFunc mem S) (i : Nat) (out : NativeArg) : Prop :=
  ∃ t, f.arrival (f.argType i) out = some t ∧
    t.convertibleTo f.implements (f.argType i) = false

/-- The number of arguments is wrong, or an argument is refused before one without a type comes,
or every argument can be assigned to its parameter. -/
def Tolerates (f : GoFunc mem S) (outs : List NativeArg) : Prop :=
  ¬ f.Admits outs.length ∨
  (∃ i out, outs[i]? = some out ∧ f.Refuses i out ∧
    ∀ m < i, ∀ earlier, outs[m]? = some earlier → f.arrival (f.argType m) earlier ≠ none) ∨
  ∀ i out, outs[i]? = some out → ∃ t, f.arrival (f.argType i) out = some t ∧
    t.assignableTo f.implements (f.target i) = true

/-- `callGoFunc` calls with a list that `Value.Call` takes, or gives up without a call. -/
def SafeOnArguments (go : GoRuntime mem S σ) (f : GoFunc mem S) (ft : Option NativeArgs) : Prop :=
  (∃ argv, f.invocation ft = .ok argv ∧ f.Assignable argv ∧
    callGoFunc go f ft = encodeResults go (f.call argv)) ∨
  (f.invocation ft = .error .rejected ∧ callGoFunc go f ft = pure (some .none))

end GoFunc

variable {f : GoFunc mem S}

/-- Decoding gives every argument of the bridge the type it arrives with. -/
theorem decoded_type {out : NativeArg} (width : slotsDecoded out.fmt = some out.slots.length)
    (t : GoType) : ∃ arg, out.decoded f t = some arg ∧ arg.type = f.arrival t out := by
  obtain ⟨fmt, slots⟩ := out
  rcases slots with _ | ⟨first, _ | ⟨second, _ | ⟨third, more⟩⟩⟩
  · cases fmt <;> simp [slotsDecoded] at width
  · cases fmt with
    | none | bool | double | ecmafunc => exact ⟨_, rfl, rfl⟩
    | _ => simp [slotsDecoded] at width
  · cases fmt with
    | lstring | buffer =>
      refine ⟨_, rfl, ?_⟩
      rw [GoFunc.arrival]
      split <;> rfl
    | jarray | jobject =>
      refine ⟨_, rfl, ?_⟩
      change _ = f.jsonArrival t (second.bytes mem first.toWord.toNat)
      rw [GoFunc.jsonArrival]
      by_cases string : t.kind = .string
      · rw [if_pos string, if_pos string]
        rfl
      · by_cases slice : t.kind = .slice
        · rw [if_neg string, if_neg string, if_pos slice, if_pos slice]
          rfl
        · rw [if_neg string, if_neg string, if_neg slice, if_neg slice]
          cases f.unmarshal (second.bytes mem first.toWord.toNat) <;> rfl
    | _ => simp [slotsDecoded] at width
  · cases fmt <;> simp [slotsDecoded] at width

/-! ### The loop -/

/-- The argument at position `i` gets past the test in its round. -/
def GoFunc.Passes (f : GoFunc mem S) (i : Nat) (out : NativeArg) : Prop :=
  ∃ t, f.arrival (f.argType i) out = some t ∧ t.convertibleTo f.implements (f.argType i) = true

/-- The reason for which the loop stops at the argument at position `i`. -/
inductive StopsAt (f : GoFunc mem S) (i : Nat) (out : NativeArg) : DecodeStop → Prop where
  | untyped (untyped : f.arrival (f.argType i) out = none) : StopsAt f i out .panicked
  | refused (refuses : f.Refuses i out) : StopsAt f i out .rejected

/-- One round more, where the loop has come to an argument. -/
theorem decodeRounds_step {outs : List NativeArg} {args : NativeArgs} (packed : Packed outs args)
    {i : Nat} {out : NativeArg} (here : outs[i]? = some out) {loop : DecodeLoop}
    (reached : decodeRounds f args.chars (args.toPointerArray (2 * outs.length)) i = .ok loop) :
    (f.Passes i out ∧ ∃ loop',
      decodeRounds f args.chars (args.toPointerArray (2 * outs.length)) (i + 1) = .ok loop') ∨
    ∃ stop, StopsAt f i out stop ∧
      decodeRounds f args.chars (args.toPointerArray (2 * outs.length)) (i + 1) = .error stop := by
  have within : i < outs.length := (List.getElem?_eq_some_iff.mp here).1
  have reached' := reached
  rw [packed.array] at reached'
  have inStep := decodeRounds_inStep f packed.widths packed.chars (Nat.le_of_lt within) reached'
  have width := packed.widths out (List.mem_of_getElem? here)
  obtain ⟨arg, decoded, type⟩ := decoded_type (f := f) width (f.argType i)
  have round := inStep.decodes f here width (List.replicate
    (2 * outs.length - (outs.map NativeArg.slots).flatten.length) (.word 0))
  rw [← packed.chars, ← packed.array] at round
  rw [decodeRounds, reached]
  change _ ∧ (∃ loop', decodeRound f _ _ loop = .ok loop') ∨
    ∃ stop, _ ∧ decodeRound f _ _ loop = .error stop
  rw [decodeRound, round, decoded, inStep.i]
  simp only [Option.map_some, type]
  -- a panic for a value without a type, an error for a type that does not convert
  cases arrives : f.arrival (f.argType i) out with
  | none => exact .inr ⟨.panicked, .untyped arrives, rfl⟩
  | some t =>
    simp only
    by_cases converts : t.convertibleTo f.implements (f.argType i) = true
    · rw [if_pos converts]
      exact .inl ⟨⟨t, arrives, converts⟩, _, rfl⟩
    · rw [if_neg converts]
      exact .inr ⟨.rejected, .refused ⟨t, arrives, Bool.eq_false_iff.mpr converts⟩, rfl⟩

/-- The loop gets past the first `n` arguments, or stops at the first of them that it cannot take. -/
theorem decodeRounds_outcome {outs : List NativeArg} {args : NativeArgs} (packed : Packed outs args)
    {n : Nat} (within : n ≤ outs.length) :
    (∃ loop, decodeRounds f args.chars (args.toPointerArray (2 * outs.length)) n = .ok loop) ∧
      (∀ i < n, ∀ out, outs[i]? = some out → f.Passes i out) ∨
    ∃ stop, decodeRounds f args.chars (args.toPointerArray (2 * outs.length)) n = .error stop ∧
      ∃ i out, outs[i]? = some out ∧ StopsAt f i out stop ∧
        ∀ m < i, ∀ earlier, outs[m]? = some earlier → f.Passes m earlier := by
  induction n with
  | zero => exact .inl ⟨⟨_, rfl⟩, fun i impossible => absurd impossible (Nat.not_lt_zero i)⟩
  | succ n ih =>
    rcases ih (by omega) with ⟨⟨loop, reached⟩, passed⟩ | ⟨stop, stopped, place⟩
    · obtain ⟨out, here⟩ : ∃ out, outs[n]? = some out := ⟨_, List.getElem?_eq_getElem (by omega)⟩
      rcases decodeRounds_step packed here reached with ⟨passes, next⟩ | ⟨stop, stops, next⟩
      · refine .inl ⟨next, fun i before other held => ?_⟩
        rcases Nat.lt_or_eq_of_le (Nat.lt_succ_iff.mp before) with earlier | rfl
        · exact passed i earlier other held
        · rw [here] at held
          cases held
          exact passes
      · exact .inr ⟨stop, next, n, out, here, stops, passed⟩
    · -- a loop that has stopped makes no more rounds
      refine .inr ⟨stop, ?_, place⟩
      rw [decodeRounds, stopped]
      rfl

/-! ### The call -/

/-- What the list of a finished loop offers `Value.Call`. -/
theorem assignable_iff {outs : List NativeArg} {args : NativeArgs} (packed : Packed outs args)
    {loop : DecodeLoop} (reached : decodeRounds f args.chars (args.toPointerArray (2 * outs.length))
      outs.length = .ok loop) :
    f.Assignable loop.argv ↔ ∀ i out, outs[i]? = some out →
      ∃ t, f.arrival (f.argType i) out = some t ∧ t.assignableTo f.implements (f.target i) = true := by
  rw [packed.array] at reached
  have inStep := decodeRounds_inStep f packed.widths packed.chars (Nat.le_refl _) reached
  -- the argument at a position, with its type
  have stored : ∀ i out, outs[i]? = some out → ∃ arg, loop.argv[i]? = some arg ∧
      arg.type = f.arrival (f.argType i) out := by
    intro i out here
    obtain ⟨arg, decoded, type⟩ :=
      decoded_type (f := f) (packed.widths out (List.mem_of_getElem? here)) (f.argType i)
    have within : i < outs.length := (List.getElem?_eq_some_iff.mp here).1
    exact ⟨arg, (inStep.args i within out here).trans decoded, type⟩
  constructor
  · intro each i out here
    obtain ⟨arg, held, type⟩ := stored i out here
    obtain ⟨t, typed, assignable⟩ := each i arg held
    exact ⟨t, type.symm.trans typed, assignable⟩
  · intro each i arg held
    have within : i < outs.length := by
      rw [← inStep.count]
      exact (List.getElem?_eq_some_iff.mp held).1
    have here := List.getElem?_eq_getElem within
    obtain ⟨arg', held', type⟩ := stored i _ here
    rw [held] at held'
    cases held'
    obtain ⟨t, typed, assignable⟩ := each i _ here
    exact ⟨t, type.trans typed, assignable⟩

theorem invocation_packed {outs : List NativeArg} {args : NativeArgs} (packed : Packed outs args)
    (admitted : f.Admits outs.length) : f.invocation (some args) =
      (decodeRounds f args.chars (args.toPointerArray (2 * outs.length)) outs.length).map
        DecodeLoop.argv := by
  have count : args.chars.length = outs.length := by rw [packed.chars, List.length_map]
  rw [GoFunc.invocation, count]
  exact if_pos admitted

/-- The phase ends without a panic: there is a list that `Value.Call` takes, or none at all. -/
def GoFunc.InvokesSafely (f : GoFunc mem S) (ft : Option NativeArgs) : Prop :=
  (∃ argv, f.invocation ft = .ok argv ∧ f.Assignable argv) ∨ f.invocation ft = .error .rejected

theorem invokesSafely_iff {outs : List NativeArg} {args : NativeArgs} (packed : Packed outs args) :
    f.InvokesSafely (some args) ↔ f.Tolerates outs := by
  by_cases admitted : f.Admits outs.length
  · rw [GoFunc.InvokesSafely, invocation_packed packed admitted]
    rcases decodeRounds_outcome (f := f) packed (Nat.le_refl _) with
      ⟨⟨loop, reached⟩, passed⟩ | ⟨stop, stopped, i, out, here, stops, passed⟩
    · -- every argument has passed, so `Value.Call` decides
      rw [reached]
      constructor
      · rintro (⟨argv, list, assignable⟩ | impossible)
        · cases list
          exact .inr (.inr ((assignable_iff packed reached).mp assignable))
        · cases impossible
      · rintro (refused | ⟨i, out, here, ⟨t, arrives, unconverted⟩, _⟩ | assignable)
        · exact absurd admitted refused
        · obtain ⟨t', arrives', converts⟩ :=
            passed i (List.getElem?_eq_some_iff.mp here).1 out here
          rw [arrives] at arrives'
          cases arrives'
          exact Bool.noConfusion (unconverted.symm.trans converts)
        · exact .inl ⟨_, rfl, (assignable_iff packed reached).mpr assignable⟩
    · rw [stopped]
      cases stops with
      -- a refused argument ends the call before the later ones are looked at
      | refused refuses =>
        refine iff_of_true (.inr rfl) (.inr (.inl ⟨i, out, here, refuses, ?_⟩))
        intro m before earlier held untyped
        obtain ⟨t, arrives, _⟩ := passed m before earlier held
        exact Option.some_ne_none t (arrives.symm.trans untyped)
      | untyped untyped =>
        refine iff_of_false ?_ ?_
        · rintro (⟨argv, impossible, _⟩ | impossible) <;> cases impossible
        · rintro (refused | ⟨k, other, there, ⟨t, arrives, unconverted⟩, typed⟩ | assignable)
          · exact refused admitted
          · -- a refused argument lies neither before nor at nor after the one without a type
            rcases Nat.lt_trichotomy k i with before | rfl | after
            · obtain ⟨t', arrives', converts⟩ := passed k before other there
              rw [arrives] at arrives'
              cases arrives'
              exact Bool.noConfusion (unconverted.symm.trans converts)
            · rw [here] at there
              cases there
              exact Option.some_ne_none t (arrives.symm.trans untyped)
            · exact typed i after out here untyped
          · obtain ⟨t, arrives, _⟩ := assignable i out here
            exact Option.some_ne_none t (arrives.symm.trans untyped)
  · have count : args.chars.length = outs.length := by rw [packed.chars, List.length_map]
    refine iff_of_true (.inr ?_) (.inl admitted)
    rw [GoFunc.invocation, count]
    exact if_neg admitted

/-! ### From the script to the call -/

/-- What the bridge hands a native function for the arguments `values`: nothing, or its block. -/
inductive BridgePasses (host : Host H) (entry : Ctx H) : List JsVal → Option NativeArgs → Prop where
  | nothing : BridgePasses host entry [] none
  | block {values args ctx} (nonempty : values ≠ [])
      (returned : marshalArgs host values.length entry = .ok args ctx) :
      BridgePasses host entry values (some args)

/-- Each value was written as one of `outs` when its turn came. -/
structure Written (host : Host H) (entry : Ctx H) (values : List JsVal) (outs : List NativeArg) :
    Prop where
  length : outs.length = values.length
  carries : ∀ i (within : i < values.length), ∃ loop turn out,
    marshalRounds host values.length i entry = .ok loop turn ∧ outs[i]? = some out ∧
      Carries host turn (values.get ⟨i, within⟩) out

theorem Marshalled.written {values : List JsVal} {entry : Ctx H} {outs : List NativeArg}
    (stack : entry.stack = values.reverse)
    (marshalled : Marshalled host entry values.length outs) : Written host entry values outs := by
  have height : entry.height = values.length := by rw [Ctx.height, stack, List.length_reverse]
  refine ⟨marshalled.length, fun i within => ?_⟩
  obtain ⟨loop, turn, out, ran, here, carries⟩ := marshalled.carries i within
  rw [height] at ran carries
  rw [get_argument stack within] at carries
  exact ⟨loop, turn, out, ran, here, carries⟩

theorem callGoFunc_invokes (go : GoRuntime mem S σ) {ft : Option NativeArgs} :
    f.SafeOnArguments go ft ↔ f.InvokesSafely ft := by
  constructor
  · rintro (⟨argv, invoked, assignable, _⟩ | ⟨rejected, _⟩)
    · exact .inl ⟨argv, invoked, assignable⟩
    · exact .inr rejected
  · rintro (⟨argv, invoked, assignable⟩ | rejected)
    · refine .inl ⟨argv, invoked, assignable, ?_⟩
      rw [callGoFunc_eq, invoked, GoFunc.proceed, GoFunc.callWith,
        if_pos (accepts_iff.mpr assignable)]
    · refine .inr ⟨rejected, ?_⟩
      rw [callGoFunc_eq, rejected]
      rfl

/-- Otherwise the process panics. -/
theorem callGoFunc_panics (go : GoRuntime mem S σ) {ft : Option NativeArgs}
    (unsafe' : ¬ f.InvokesSafely ft) : callGoFunc go f ft = pure none := by
  rw [callGoFunc_eq]
  cases invoked : f.invocation ft with
  | ok argv =>
    have rejected : ¬ f.accepts argv = true := fun accepted =>
      unsafe' (.inl ⟨argv, invoked, accepts_iff.mp accepted⟩)
    rw [GoFunc.proceed, GoFunc.callWith, if_neg rejected]
  | error stop =>
    cases stop with
    | rejected => exact absurd (.inr invoked) unsafe'
    | panicked => rfl

/-- For every Go function and every block the bridge makes of a script's arguments, `callGoFunc`
calls with a list `Value.Call` takes, or does not call, exactly when the function tolerates the
arguments; otherwise it panics. -/
theorem callGoFunc_safe_iff (go : GoRuntime mem S σ) (f : GoFunc mem S) (values : List JsVal)
    (entry : Ctx H) (ft : Option NativeArgs) (stack : entry.stack = values.reverse)
    (passes : BridgePasses host entry values ft) :
    ∃ outs, Written host entry values outs ∧
      (f.SafeOnArguments go ft ↔ f.Tolerates outs) ∧
      (¬ f.Tolerates outs → callGoFunc go f ft = pure none) := by
  cases passes with
  | nothing =>
    have tolerates : f.Tolerates [] := .inr (.inr fun i out here => by cases here)
    refine ⟨[], ⟨rfl, fun i within => absurd within (Nat.not_lt_zero i)⟩, ?_,
      fun intolerant => absurd tolerates intolerant⟩
    refine iff_of_true ((callGoFunc_invokes go).mpr ?_) tolerates
    rw [GoFunc.InvokesSafely, GoFunc.invocation]
    split
    · exact .inl ⟨[], rfl, fun i arg here => by cases here⟩
    · exact .inr rfl
  | block _ returned =>
    obtain ⟨outs, marshalled, packed, _⟩ := marshalArgs_packed stack returned
    have safe := invokesSafely_iff (f := f) packed
    refine ⟨outs, marshalled.written stack, (callGoFunc_invokes go).trans safe, fun intolerant => ?_⟩
    exact callGoFunc_panics go fun invokes => intolerant (safe.mp invokes)

/-- func(time.Duration) -/
def sleep : GoFunc (fun _ => 0) Unit where
  params := [.defined "time.Duration" (.int .int64)]
  variadic := false
  call _ := []
  implements _ _ := false
  unmarshal _ := none

theorem callGoFunc_safe_iff_threeArguments :
    ∃ args outs, BridgePasses stillHost threeArguments
        [.string (ascii "hi"), .object 2, .boolean true] (some args) ∧
      Written stillHost threeArguments [.string (ascii "hi"), .object 2, .boolean true] outs ∧
      (threeParameters.SafeOnArguments (bareRuntime fun _ => 0) (some args) ↔
        threeParameters.Tolerates outs) := by
  obtain ⟨args, ctx, returned⟩ : ∃ args ctx, marshalArgs stillHost 3 threeArguments = .ok args ctx :=
    ⟨_, _, rfl⟩
  have passes : BridgePasses stillHost threeArguments
      [.string (ascii "hi"), .object 2, .boolean true] (some args) :=
    .block (by simp) returned
  obtain ⟨outs, written, safe, _⟩ := callGoFunc_safe_iff (bareRuntime fun _ => 0) threeParameters
    [.string (ascii "hi"), .object 2, .boolean true] threeArguments (some args) rfl passes
  exact ⟨args, outs, passes, written, safe⟩

/-- A script's call with one number. -/
def oneNumber : Ctx Unit := { freshEnvironment with stack := [.number 1] }

/-- The number arrives as an int64, which can be converted to a `time.Duration`, but not assigned
to one. -/
theorem number_for_duration_panics :
    ∃ args ctx, marshalArgs stillHost 1 oneNumber = .ok args ctx ∧
      ¬ sleep.SafeOnArguments (bareRuntime fun _ => 0) (some args) ∧
      callGoFunc (bareRuntime fun _ => 0) sleep (some args) = pure none := by
  refine ⟨_, _, rfl, ?_, rfl⟩
  rintro (⟨argv, invoked, assignable, _⟩ | ⟨rejected, _⟩)
  · cases invoked
    obtain ⟨t, type, assigns⟩ := assignable 0 _ rfl
    cases type
    exact absurd assigns (by decide)
  · cases rejected

end DukBridge
