import DukBridge.ArgumentLayout
import DukBridge.HostCalls
import DukBridge.PushRules
import DukBridge.StackHeights

/-!
# Call arguments and the slots of the value stack

`push_args_and_call_func` reserves nothing. What its loop may push is decided by the
slots that happen to be free, one argument after the other.
-/
namespace DukBridge

open Effect

variable {H : Type} {host : Host H}

/-! ### One argument -/

/-- The slots an argument finds, and what its bytes must be like, for its push to return. -/
def ArgFits (host : Host H) (ctx : Ctx H) : CArg → Prop
  | .none | .bool _ | .int _ | .double _ => ctx.height + 1 ≤ ctx.reserve
  | .zstring s => ctx.height + 1 ≤ ctx.reserve ∧
      (s ≠ 0 → (host.mem.zstring s (maxStringLen + 1)).length ≤ maxStringLen)
  | .lstring l s => ctx.height + 1 ≤ ctx.reserve ∧ (host.bytesAt s l).length ≤ maxStringLen
  | .error _ _ => False
  -- the object is pushed above the buffer it is made from
  | .buffer l s => ctx.height + 2 ≤ ctx.reserve ∧ isSymbol (host.bytesAt s l) = false ∧
      (host.bytesAt s l).length ≤ maxBufferLen ∧ l.toNat < 2 ^ 32
  -- the global object and the name go below a value that is found
  | .ecmafunc funcIndex =>
      ctx.height + (if (saved ctx funcIndex).isSome then 4 else 3) ≤ ctx.reserve
  | .mobject objUdd create =>
      if create = 0 then ctx.height + 1 ≤ ctx.reserve
      else ∃ created w reserved,
        host.createInstance ctx.world ctx.free create objUdd = .returns created w reserved ∧
          ctx.height + 1 ≤ ctx.reserve + reserved
  | .json l s => ctx.height + 1 ≤ ctx.reserve ∧ (host.bytesAt s l).length ≤ maxStringLen ∧
      ∃ v w reserved, host.jsonDecode ctx.world (ctx.pushed (.string (host.bytesAt s l))).free
        (host.bytesAt s l) = .returns v w reserved

/-- The state after the push of an argument that fits. -/
def afterArg (host : Host H) (ctx : Ctx H) : CArg → Ctx H
  | .none => ctx.pushed .null
  | .bool d => ctx.pushed (.boolean (d != 0))
  | .int d => ctx.pushed (.number (Binary64.ofInt d.toInt))
  | .double d => ctx.pushed (.number d)
  | .zstring s => ctx.pushed
      (if s = 0 then .null else .string (host.mem.zstring s (maxStringLen + 1)))
  | .lstring l s => ctx.pushed (.string (host.bytesAt s l))
  | .error _ _ => ctx
  | .buffer l s => ctx.withBuffer ((host.bytesAt s l).take l.toNat)
  | .ecmafunc funcIndex => ctx.pushed ((saved ctx funcIndex).getD .undefined)
  | .mobject objUdd create =>
      if create = 0 then ctx.pushed .undefined
      else
        match host.createInstance ctx.world ctx.free create objUdd with
        | .returns created w reserved =>
          ⟨created.getD .undefined :: ctx.stack, ctx.reserve + reserved, w⟩
        | _ => ctx
  | .json l s =>
      match host.jsonDecode ctx.world (ctx.pushed (.string (host.bytesAt s l))).free
        (host.bytesAt s l) with
      | .returns v w reserved => ⟨v :: ctx.stack, ctx.reserve + reserved, w⟩
      | _ => ctx

/-- Only a function is looked up in the table of handles. -/
theorem pushArg_eq_ok_of {ctx ctx' : Ctx H} {u : Unit} {arg : CArg}
    (plain : ∀ funcIndex, arg = .ecmafunc funcIndex → PlainHandles host) :
    pushArg host arg ctx = .ok u ctx' ↔ ArgFits host ctx arg ∧ ctx' = afterArg host ctx arg := by
  cases arg with
  | none | bool d | int d | double d => exact push_eq_ok
  | zstring s =>
    rw [pushArg, pushString_eq_ok, ArgFits, afterArg]
    by_cases null : s = 0 <;> simp [null, and_assoc]
  | lstring l s => rw [pushArg, pushLstring_eq_ok, ArgFits, and_assoc, afterArg]
  | error l s => simp [pushArg, ArgFits]
  | buffer l s => simp only [pushArg, pushNodeBuffer_eq_ok, ArgFits, and_assoc, afterArg]
  | ecmafunc funcIndex =>
    -- the loop does not look at what the look-up says
    have discards : pushArg host (.ecmafunc funcIndex) ctx = .ok u ctx' ↔
        ∃ found, loadObject host funcIndex ctx = .ok found ctx' := by
      constructor
      · intro returned
        obtain ⟨found, _, loaded, same⟩ := bind_eq_ok.mp returned
        cases same
        exact ⟨found, loaded⟩
      · rintro ⟨found, loaded⟩
        exact bind_eq_ok.mpr ⟨found, ctx', loaded, rfl⟩
    rw [discards, ArgFits, afterArg]
    cases held : saved ctx funcIndex with
    | some v =>
      rw [loadObject_live held]
      split <;> simp [*, eq_comm]
    | none =>
      rw [loadObject_gone (plain funcIndex rfl) held]
      split <;> simp [*, eq_comm]
  | mobject objUdd create =>
    rw [pushArg, pushInstance_eq_ok, ArgFits, afterArg]
    by_cases null : create = 0
    · simp only [null, if_true]
    · simp only [null, if_false]
      constructor
      · rintro ⟨created, w, reserved, outcome, room, rfl⟩
        exact ⟨⟨created, w, reserved, outcome, room⟩, by rw [outcome]⟩
      · rintro ⟨⟨created, w, reserved, outcome, room⟩, same⟩
        rw [outcome] at same
        exact ⟨created, w, reserved, outcome, room, same⟩
  | json l s =>
    rw [pushArg, pushJson_eq_ok, ArgFits, afterArg]
    constructor
    · rintro ⟨room, short, v, w, reserved, outcome, rfl⟩
      exact ⟨⟨room, short, v, w, reserved, outcome⟩, by rw [outcome]⟩
    · rintro ⟨⟨room, short, v, w, reserved, outcome⟩, same⟩
      rw [outcome] at same
      exact ⟨room, short, v, w, reserved, outcome, same⟩

theorem pushArg_eq_ok (plain : PlainHandles host) {ctx ctx' : Ctx H} {u : Unit} (arg : CArg) :
    pushArg host arg ctx = .ok u ctx' ↔ ArgFits host ctx arg ∧ ctx' = afterArg host ctx arg :=
  pushArg_eq_ok_of fun _ _ => plain

/-- A push that fits adds one value to what was there. -/
theorem afterArg_stack {ctx : Ctx H} {arg : CArg} (fits : ArgFits host ctx arg) :
    ∃ v, (afterArg host ctx arg).stack = v :: ctx.stack := by
  cases arg with
  | error l s => exact fits.elim
  | mobject objUdd create =>
    rw [ArgFits] at fits
    rw [afterArg]
    by_cases null : create = 0
    · rw [if_pos null]
      exact ⟨_, rfl⟩
    · rw [if_neg null] at fits ⊢
      obtain ⟨created, w, reserved, outcome, _⟩ := fits
      rw [outcome]
      exact ⟨_, rfl⟩
  | json l s =>
    obtain ⟨_, _, v, w, reserved, outcome⟩ := fits
    rw [afterArg, outcome]
    exact ⟨_, rfl⟩
  | _ => exact ⟨_, rfl⟩

theorem afterArg_reserve {ctx : Ctx H} {arg : CArg} (fits : ArgFits host ctx arg) :
    ctx.reserve ≤ (afterArg host ctx arg).reserve := by
  cases arg with
  | mobject objUdd create =>
    rw [ArgFits] at fits
    rw [afterArg]
    by_cases null : create = 0
    · rw [if_pos null]
      exact Nat.le_refl _
    · rw [if_neg null] at fits ⊢
      obtain ⟨created, w, reserved, outcome, _⟩ := fits
      rw [outcome]
      exact Nat.le_add_right _ _
  | json l s =>
    obtain ⟨_, _, v, w, reserved, outcome⟩ := fits
    rw [afterArg, outcome]
    exact Nat.le_add_right _ _
  | _ => exact Nat.le_refl _

/-! ### A list of arguments -/

/-- Each argument fits into what the ones before it leave. -/
def ArgsFit (host : Host H) : Ctx H → List CArg → Prop
  | _, [] => True
  | ctx, arg :: rest => ArgFits host ctx arg ∧ ArgsFit host (afterArg host ctx arg) rest

/-- The pushes of the loop, without its reading. -/
def pushAll (host : Host H) : List CArg → Duk H Unit
  | [] => return ()
  | arg :: rest => do
    pushArg host arg
    pushAll host rest

theorem pushAll_eq_ok (plain : PlainHandles host) {args : List CArg} {ctx ctx' : Ctx H} {u : Unit} :
    pushAll host args ctx = .ok u ctx' ↔
      ArgsFit host ctx args ∧ ctx' = args.foldl (afterArg host) ctx := by
  -- each push in the state the pushes before it leave
  induction args generalizing ctx with
  | nil => simp [pushAll, ArgsFit, eq_comm]
  | cons arg rest ih =>
    rw [pushAll, bind_eq_ok, ArgsFit, List.foldl_cons, and_assoc, ← ih]
    constructor
    · rintro ⟨_, mid, pushed, others⟩
      obtain ⟨fits, rfl⟩ := (pushArg_eq_ok plain arg).mp pushed
      exact ⟨fits, others⟩
    · rintro ⟨fits, others⟩
      exact ⟨(), _, (pushArg_eq_ok plain arg).mpr ⟨fits, rfl⟩, others⟩

theorem afterArgs_stack {args : List CArg} {ctx : Ctx H} (fit : ArgsFit host ctx args) :
    ∃ values, values.length = args.length ∧
      (args.foldl (afterArg host) ctx).stack = values ++ ctx.stack := by
  induction args generalizing ctx with
  | nil => exact ⟨[], rfl, rfl⟩
  | cons arg rest ih =>
    obtain ⟨first, others⟩ := fit
    obtain ⟨v, stack⟩ := afterArg_stack first
    obtain ⟨values, length, above⟩ := ih others
    -- the first argument lies lowest
    refine ⟨values ++ [v], by simp [length], ?_⟩
    rw [List.foldl_cons, above, stack, List.append_assoc, List.singleton_append]

theorem afterArgs_reserve {args : List CArg} {ctx : Ctx H} (fit : ArgsFit host ctx args) :
    ctx.reserve ≤ (args.foldl (afterArg host) ctx).reserve := by
  induction args generalizing ctx with
  | nil => exact Nat.le_refl _
  | cons arg rest ih =>
    obtain ⟨first, others⟩ := fit
    exact Nat.le_trans (afterArg_reserve first) (ih others)

theorem argsFit_append {first rest : List CArg} {ctx : Ctx H} :
    ArgsFit host ctx (first ++ rest) ↔
      ArgsFit host ctx first ∧ ArgsFit host (first.foldl (afterArg host) ctx) rest := by
  induction first generalizing ctx with
  | nil => simp [ArgsFit]
  | cons arg first ih => simp [ArgsFit, ih, and_assoc]

/-- Argument `i` fits into what the ones before it leave. -/
theorem argsFit_at {args : List CArg} {ctx : Ctx H} (fit : ArgsFit host ctx args) {i : Nat}
    {arg : CArg} (here : args[i]? = some arg) :
    ArgsFit host ctx (args.take i) ∧
      ArgFits host ((args.take i).foldl (afterArg host) ctx) arg ∧
      (args.take (i + 1)).foldl (afterArg host) ctx =
        afterArg host ((args.take i).foldl (afterArg host) ctx) arg := by
  have split : args.take (i + 1) = args.take i ++ [arg] := by
    rw [List.take_add_one, here]
    rfl
  have whole : args = args.take i ++ ([arg] ++ args.drop (i + 1)) := by
    rw [← List.append_assoc, ← split, List.take_append_drop]
  rw [whole, argsFit_append] at fit
  refine ⟨fit.1, fit.2.1, ?_⟩
  rw [split, List.foldl_append]
  rfl

def CArg.isScalar : CArg → Bool
  | .none | .bool _ | .int _ | .double _ => true
  | _ => false

/-- Scalars fit as long as there are as many slots as there are scalars. -/
theorem argsFit_scalars {args : List CArg} (scalars : ∀ arg ∈ args, arg.isScalar = true)
    {ctx : Ctx H} (within : ctx.height ≤ ctx.reserve) :
    ArgsFit host ctx args ↔ ctx.height + args.length ≤ ctx.reserve := by
  induction args generalizing ctx with
  | nil => simp [ArgsFit, within]
  | cons arg rest ih =>
    have scalar := scalars arg List.mem_cons_self
    have one : (ArgFits host ctx arg ↔ ctx.height + 1 ≤ ctx.reserve) ∧
        ∃ v, afterArg host ctx arg = ctx.pushed v := by
      cases arg with
      | none | bool d | int d | double d => exact ⟨Iff.rfl, _, rfl⟩
      | _ => cases scalar
    obtain ⟨fits, v, after⟩ := one
    rw [ArgsFit, fits, after, List.length_cons]
    have others : ctx.height + 1 ≤ ctx.reserve →
        (ArgsFit host (ctx.pushed v) rest ↔ ctx.height + 1 + rest.length ≤ ctx.reserve) :=
      fun room => ih (fun other member => scalars other (List.mem_cons_of_mem _ member)) room
    constructor
    · rintro ⟨room, fit⟩
      have more := (others room).mp fit
      omega
    · intro room
      have first : ctx.height + 1 ≤ ctx.reserve := by omega
      exact ⟨first, (others first).mpr (by omega)⟩

/-! ### The arguments of a Go call -/

variable {S σ : Type} (go : GoRuntime host.mem S σ)

variable (host) in
/-- The loop over what `parseArgs` stored pushes the payloads in order. -/
theorem pushArgs_stored (outs : List ParsedArg) (noErrors : ∀ out ∈ outs, out.argType ≠ .error)
    (done after : List Word) (argc : Nat) :
    pushArgs host (done ++ ((outs.map ParsedArg.cells).flatten ++ after))
        (outs.map (fun out => out.argType.code) ++ [0]) done.length argc =
      pushAll host (outs.map ParsedArg.payload) >>= fun _ => pure (argc + outs.length) := by
  induction outs generalizing done argc with
  | nil => simp [pushArgs, pushAll]
  | cons out rest ih =>
    have stored := noErrors out List.mem_cons_self
    have cells : ∀ k < out.cells.length, (done ++ (((out :: rest).map ParsedArg.cells).flatten ++
        after))[done.length + k]? = out.cells[k]? := by
      intro k inside
      rw [List.getElem?_append_right (Nat.le_add_right _ _), Nat.add_sub_cancel_left]
      rw [List.map_cons, List.flatten_cons, List.append_assoc, List.getElem?_append_left inside]
    -- the round reads this argument's cells and stops behind them
    have read := readArg_payload stored cells
    have next := readArg_index out.argType.code (done ++ (((out :: rest).map ParsedArg.cells).flatten
      ++ after)) done.length
    rw [(slotsRead_code out).mpr stored] at next
    have others := ih (fun other member => noErrors other (List.mem_cons_of_mem _ member))
      (done ++ out.cells) (argc + 1)
    rw [List.append_assoc, List.length_append] at others
    have codes : (out :: rest).map (fun out => out.argType.code) ++ [0] =
        out.argType.code :: (rest.map (fun out => out.argType.code) ++ [0]) := rfl
    rw [codes, pushArgs, if_neg (ArgFormat.code_ne_zero _), read, next]
    simp only [List.map_cons, List.flatten_cons, List.append_assoc] at others ⊢
    rw [others, pushAll, bind_assoc, List.length_cons]
    refine bind_congr fun _ => bind_congr fun _ => ?_
    rw [Nat.add_assoc, Nat.add_comm 1]

variable (host) in
/-- The NUL at the end stops the loop where the format ends anyway. -/
theorem pushArgs_terminated (argv : List Word) (fmt : Bytes) (i argc : Nat) :
    pushArgs host argv (fmt ++ [0]) i argc = pushArgs host argv fmt i argc := by
  induction fmt generalizing i argc with
  | nil => simp [pushArgs]
  | cons c rest ih =>
    rw [List.cons_append, pushArgs, pushArgs]
    simp only [ih]

/-- What each argument is to the C side. -/
def payloads (args : List (GoVal host.mem S)) (st : σ) : List CArg :=
  (outputs go args st).map ParsedArg.payload

theorem payloads_length (args : List (GoVal host.mem S)) (st : σ) :
    (payloads go args st).length = args.length := by
  rw [payloads, List.length_map, outputs_length]

theorem pushArgs_parseArgs (args : List (GoVal host.mem S))
    (noErrors : ∀ arg ∈ args, arg.isError = false) (st : σ) :
    pushArgs host ((parseArgs go args).run st).1.2.2 ((parseArgs go args).run st).1.2.1 0 0 =
      pushAll host (payloads go args st) >>= fun _ => pure args.length := by
  have kinds := (outputs_error go args st).mpr noErrors
  have pushes := pushArgs_stored host _ kinds [] (List.replicate (args.length * 2 -
    ((outputs go args st).map ParsedArg.cells).flatten.length) 0) 0
  rw [Nat.zero_add, outputs_length] at pushes
  rw [parseArgs_eq]
  exact pushes

/-- `js_call_registered_func` pushes `f` and one value for each of `n` arguments above it, and has
nothing left to do but the protected call. -/
def ReachesPcall (host : Host H) (funcName fmt : Bytes) (argv : List Word) (f : JsVal) (n : Nat)
    (ctx : Ctx H) : Prop :=
  ∃ found after values,
    getGlobalString host funcName ctx = .ok true found ∧ found.stack = f :: ctx.stack ∧
    pushArgs host argv fmt 0 0 found = .ok n after ∧
    values.length = n ∧ after.stack = values ++ found.stack ∧
    ∀ callFuncRes, jsCallRegisteredFunc host funcName callFuncRes (some fmt) argv ctx =
      callFunc host n callFuncRes after

/-- A call of a registered function gets to the protected call exactly when the look-up and each
argument in turn find the slots they need. -/
theorem reachesPcall_iff (plain : PlainHandles host) (args : List (GoVal host.mem S))
    (noErrors : ∀ arg ∈ args, arg.isError = false) (st : σ) (ctx : Ctx H) (funcName : Bytes)
    (f : JsVal) (writable configurable : Bool)
    (registered : ctx.global.own funcName = some (.data f writable configurable)) :
    ReachesPcall host funcName ((parseArgs go args).run st).1.2.1
        ((parseArgs go args).run st).1.2.2 f args.length ctx ↔
      ctx.height + 4 ≤ ctx.reserve ∧ ArgsFit host (ctx.pushed f) (payloads go args st) := by
  rw [ReachesPcall, pushArgs_parseArgs go args noErrors st, getGlobalString_data registered]
  constructor
  · rintro ⟨found, after, values, looked, _, pushed, _⟩
    by_cases room : ctx.height + 4 ≤ ctx.reserve
    · rw [if_pos room] at looked
      cases looked
      obtain ⟨_, _, pushes, _⟩ := bind_eq_ok.mp pushed
      exact ⟨room, ((pushAll_eq_ok plain).mp pushes).1⟩
    · rw [if_neg room] at looked
      cases looked
  · rintro ⟨room, fit⟩
    -- the decoder's pushes are those of the payloads, and the call follows
    obtain ⟨values, length, stack⟩ := afterArgs_stack fit
    have pushes := (pushAll_eq_ok plain (u := ())).mpr ⟨fit, rfl⟩
    refine ⟨ctx.pushed f, _, values, if_pos room, rfl, bind_ok pushes _, ?_, stack, ?_⟩
    · rw [length, payloads_length]
    · intro callFuncRes
      have looked : getGlobalString host funcName ctx = .ok true (ctx.pushed f) := by
        rw [getGlobalString_data registered, if_pos room]
      have arguments := bind_ok pushes fun _ => pure args.length
      rw [← pushArgs_parseArgs go args noErrors st] at arguments
      rw [jsCallRegisteredFunc, bind_ok looked]
      exact bind_ok arguments _

/-! ### A hundred and ten arguments -/

/-- A fresh environment with a function `f`. -/
def oneFunction : Ctx Unit where
  stack := []
  reserve := freshEnvironment.reserve
  world := freshEnvironment.world.setOwn globalId (ascii "f") (some (.data (.object 1) true true))

/-- With the function itself, 110 nulls need one slot more than a new heap reserves. -/
theorem hundred_ten_arguments_overflow :
    PlainHandles (idleHost fun _ => ⟨0, 5⟩) ∧ oneFunction.height = 0 ∧ oneFunction.reserve = 110 ∧
      ∃ args : List (GoVal (idleHost fun _ => ⟨0, 5⟩).mem Unit), args.length = 110 ∧
        ¬ ReachesPcall (idleHost fun _ => ⟨0, 5⟩) (ascii "f")
          ((parseArgs (bareRuntime _) args).run ()).1.2.1
          ((parseArgs (bareRuntime _) args).run ()).1.2.2 (.object 1) 110 oneFunction := by
  refine ⟨idleHost_plain _, rfl, rfl, List.replicate 110 .nil, List.length_replicate, ?_⟩
  rintro ⟨found, after, values, looked, _, pushed, _⟩
  have function : getGlobalString (idleHost fun _ => ⟨0, 5⟩) (ascii "f") oneFunction =
      .ok true (oneFunction.pushed (.object 1)) := rfl
  rw [function] at looked
  cases looked
  rw [pushArgs_parseArgs _ _ (by decide)] at pushed
  obtain ⟨_, _, pushes, _⟩ := bind_eq_ok.mp pushed
  have fit := ((pushAll_eq_ok (idleHost_plain _)).mp pushes).1
  -- 1 + 110 ≤ 110
  rw [argsFit_scalars (by decide) (by decide)] at fit
  exact absurd fit (by decide)

theorem reachesPcall_iff_two : ReachesPcall (idleHost fun _ => ⟨0, 5⟩) (ascii "f")
    ((parseArgs (bareRuntime (idleHost fun _ => ⟨0, 5⟩).mem) [.nil, .bool true]).run ()).1.2.1
    ((parseArgs (bareRuntime (idleHost fun _ => ⟨0, 5⟩).mem) [.nil, .bool true]).run ()).1.2.2
    (.object 1) 2 oneFunction := by
  apply (reachesPcall_iff (bareRuntime _) (idleHost_plain _) [.nil, .bool true] (by decide) ()
    oneFunction (ascii "f") (.object 1) true true rfl).mpr
  exact ⟨by decide, (argsFit_scalars (by decide) (by decide)).mpr (by decide)⟩

end DukBridge
