import DukBridge.ModuleAttrs

/-!
# When the pushes of one value return

Each rule says what a push needs of the stack and of its operands, and what it leaves.
-/
namespace DukBridge

open Effect

variable {H : Type} {host : Host H} {ctx ctx' : Ctx H} {u : Unit}

/-- The bytes at `addr`; a NULL pointer has none, whatever the length says. -/
def Host.bytesAt (host : Host H) (addr len : Word) : Bytes :=
  host.mem.read addr (if addr = 0 then 0 else len.toNat)

/-- Source code at `addr`; for the compiler a NULL pointer is none at all. -/
def Host.sourceAt (host : Host H) (addr len : Word) : Option Bytes :=
  if addr = 0 then none else some (host.bytesAt addr len)

/-- A length that is a C `int` gets at the bytes that Go stored. -/
theorem bytesAt_stored (b : GoBytes host.mem) (small : b.data.length < 2 ^ 31) :
    host.bytesAt b.addr (sizeOfInt (cInt b.data.length)) = b.data := by
  have length : (UInt64.ofNat b.data.length).toNat = b.data.length := by
    rw [UInt64.toNat_ofNat']
    omega
  rw [Host.bytesAt, sizeOfInt_cInt_of_lt small, length]
  by_cases null : b.addr = 0
  · -- only the empty slice may be nil
    have empty : b.data = [] := by
      by_contra data
      exact b.located data null
    rw [if_pos null, empty]
    rfl
  · rw [if_neg null]
    exact b.stored

theorem pushLstring_eq_ok {addr len : Word} : pushLstring host addr len ctx = .ok u ctx' ↔
    ctx.height + 1 ≤ ctx.reserve ∧ (host.bytesAt addr len).length ≤ maxStringLen ∧
      ctx' = ctx.pushed (.string (host.bytesAt addr len)) := by
  by_cases room : ctx.height + 1 ≤ ctx.reserve
  · simp only [pushLstring, bind_run, requireRoom_run, room, if_true, true_and, Host.bytesAt,
      Memory.length_read]
    by_cases short : (if addr = 0 then 0 else len.toNat) ≤ maxStringLen
    · simp [short, room]
    · simp [short]
  · simp [pushLstring, bind_run, requireRoom_run, room]

/-- A string becomes a plain buffer, under a second slot, unless it is a symbol. -/
theorem toBuffer_string {s : Bytes} {below : List JsVal} (stack : ctx.stack = .string s :: below) :
    toBuffer ctx = .ok u ctx' ↔ isSymbol s = false ∧ ctx.height + 1 ≤ ctx.reserve ∧
      s.length ≤ maxBufferLen ∧ ctx' = { ctx with stack := .buffer s :: below } := by
  have top : ctx.get 0 = .string s := by rw [Ctx.get, stack]; rfl
  have replaced : ctx.stack.set 0 (.buffer s) = .buffer s :: below := by rw [stack]; rfl
  rw [toBuffer, bind_ok (getAt_run 0), top]
  cases symbol : isSymbol s with
  | true => simp [symbol, bind_run]
  | false =>
    by_cases room : ctx.height + 1 ≤ ctx.reserve
    · by_cases short : s.length ≤ maxBufferLen
      · simp [symbol, bind_run, requireRoom_run, room, short, replaced, eq_comm]
      · simp [symbol, bind_run, requireRoom_run, room, short]
    · simp [symbol, bind_run, requireRoom_run, room]

namespace Ctx

/-- A new Buffer object on top. -/
def withBuffer (ctx : Ctx H) (data : Bytes) : Ctx H where
  stack := .object ctx.world.nextId :: ctx.stack
  reserve := ctx.reserve
  world :=
    { ctx.world.setObject ctx.world.nextId
        ⟨{ ObjShape.plain with bufferData := some data }, fun _ => none, true, none⟩ with
      nextId := ctx.world.nextId + 1 }

end Ctx

theorem pushBufferObject_buffer {len : Word} {data : Bytes} {below : List JsVal}
    (stack : ctx.stack = .buffer data :: below) : pushBufferObject len ctx = .ok u ctx' ↔
      len.toNat < 2 ^ 32 ∧ ctx.height + 1 ≤ ctx.reserve ∧
        ctx' = ctx.withBuffer (data.take len.toNat) := by
  have top : ctx.get 0 = .buffer data := by rw [Ctx.get, stack]; rfl
  rw [pushBufferObject, bind_ok (getAt_run 0), top]
  by_cases small : len.toNat < 2 ^ 32
  · by_cases room : ctx.height + 1 ≤ ctx.reserve
    · simp only [small, if_true, true_and, room, pushNew, bind_run, get_run, push_run]
      constructor
      · intro returned
        cases returned
        rfl
      · intro same
        rw [same]
        rfl
    · simp only [small, room, pushNew, bind_run, get_run, push_run, if_true, if_false, true_and,
        false_and, reduceCtorEq]
  · simp only [small, if_false, raise_run, false_and, reduceCtorEq]

/-- The four calls behind a Buffer object. The string, the plain buffer and the object are one
value in the end, but the object is pushed while the buffer is still there. -/
theorem pushNodeBuffer_eq_ok {addr len : Word} : pushNodeBuffer host addr len ctx = .ok u ctx' ↔
    ctx.height + 2 ≤ ctx.reserve ∧ isSymbol (host.bytesAt addr len) = false ∧
      (host.bytesAt addr len).length ≤ maxBufferLen ∧ len.toNat < 2 ^ 32 ∧
        ctx' = ctx.withBuffer ((host.bytesAt addr len).take len.toNat) := by
  constructor
  · intro returned
    -- the first push needs less than the object above it
    obtain ⟨_, a, pushed, returned⟩ := bind_eq_ok.mp returned
    obtain ⟨_, _, rfl⟩ := pushLstring_eq_ok.mp pushed
    obtain ⟨_, b, coerced, returned⟩ := bind_eq_ok.mp returned
    obtain ⟨symbol, room, short, rfl⟩ := (toBuffer_string rfl).mp coerced
    obtain ⟨_, c, wrapped, removed⟩ := bind_eq_ok.mp returned
    obtain ⟨small, _, rfl⟩ := (pushBufferObject_buffer rfl).mp wrapped
    obtain ⟨_, rfl⟩ := removeAt_eq_ok.mp removed
    exact ⟨room, symbol, short, small, rfl⟩
  · rintro ⟨room, symbol, short, small, rfl⟩
    -- a string may be one byte longer than a buffer
    have interned : (host.bytesAt addr len).length ≤ maxStringLen := by
      simp only [maxBufferLen, maxStringLen] at short ⊢
      omega
    have one : ctx.height + 1 ≤ ctx.reserve := by omega
    have pushed : pushLstring host addr len ctx =
        .ok () (ctx.pushed (.string (host.bytesAt addr len))) :=
      pushLstring_eq_ok.mpr ⟨one, interned, rfl⟩
    have coerced : toBuffer (ctx.pushed (.string (host.bytesAt addr len))) =
        .ok () (ctx.pushed (.buffer (host.bytesAt addr len))) :=
      (toBuffer_string rfl).mpr ⟨symbol, room, short, rfl⟩
    have wrapped : pushBufferObject len (ctx.pushed (.buffer (host.bytesAt addr len))) =
        .ok () ((ctx.pushed (.buffer (host.bytesAt addr len))).withBuffer
          ((host.bytesAt addr len).take len.toNat)) :=
      (pushBufferObject_buffer rfl).mpr ⟨small, room, rfl⟩
    refine bind_eq_ok.mpr ⟨(), _, pushed, ?_⟩
    refine bind_eq_ok.mpr ⟨(), _, coerced, ?_⟩
    refine bind_eq_ok.mpr ⟨(), _, wrapped, ?_⟩
    exact removeAt_eq_ok.mpr ⟨Nat.succ_lt_succ (Nat.zero_lt_succ _), rfl⟩

theorem jsonDecode_string {text : Bytes} {below : List JsVal}
    (stack : ctx.stack = .string text :: below) : jsonDecode host ctx = .ok u ctx' ↔
      ∃ v w reserved, host.jsonDecode ctx.world ctx.free text = .returns v w reserved ∧
        ctx' = ⟨v :: below, ctx.reserve + reserved, w⟩ := by
  have top : ctx.get 0 = .string text := by rw [Ctx.get, stack]; rfl
  have replaced : ∀ v, ctx.stack.set 0 v = v :: below := by intro v; rw [stack]; rfl
  rw [jsonDecode, bind_ok (get_run ctx), top]
  constructor
  · intro returned
    obtain ⟨v, mid, ran, stored⟩ := bind_eq_ok.mp returned
    obtain ⟨w, reserved, outcome, rfl⟩ := outcome_run_eq_ok.mp ran
    cases stored
    refine ⟨v, w, reserved, outcome, ?_⟩
    rw [← replaced v]
  · rintro ⟨v, w, reserved, outcome, rfl⟩
    refine bind_eq_ok.mpr ⟨v, _, outcome_run_eq_ok.mpr ⟨w, reserved, outcome, rfl⟩, ?_⟩
    rw [← replaced v]
    rfl

theorem pushJson_eq_ok {addr len : Word} : pushJson host addr len ctx = .ok u ctx' ↔
    ctx.height + 1 ≤ ctx.reserve ∧ (host.bytesAt addr len).length ≤ maxStringLen ∧
      ∃ v w reserved,
        host.jsonDecode ctx.world (ctx.pushed (.string (host.bytesAt addr len))).free
          (host.bytesAt addr len) = .returns v w reserved ∧
        ctx' = ⟨v :: ctx.stack, ctx.reserve + reserved, w⟩ := by
  constructor
  · intro returned
    obtain ⟨_, a, pushed, decoded⟩ := bind_eq_ok.mp returned
    obtain ⟨room, short, rfl⟩ := pushLstring_eq_ok.mp pushed
    exact ⟨room, short, (jsonDecode_string rfl).mp decoded⟩
  · rintro ⟨room, short, decoded⟩
    have pushed := pushLstring_eq_ok (u := ()).mpr ⟨room, short, rfl⟩
    exact bind_eq_ok.mpr ⟨(), _, pushed, (jsonDecode_string rfl).mpr decoded⟩

theorem pushString_eq_ok {addr : Word} : pushString host addr ctx = .ok u ctx' ↔
    ctx.height + 1 ≤ ctx.reserve ∧
      if addr = 0 then ctx' = ctx.pushed .null
      else (host.mem.zstring addr (maxStringLen + 1)).length ≤ maxStringLen ∧
        ctx' = ctx.pushed (.string (host.mem.zstring addr (maxStringLen + 1))) := by
  rw [pushString]
  by_cases null : addr = 0
  · simp [null, pushNull]
  · simp only [null, if_false, pushBytes, bind_run, requireRoom_run]
    by_cases room : ctx.height + 1 ≤ ctx.reserve
    · by_cases short : (host.mem.zstring addr (maxStringLen + 1)).length ≤ maxStringLen
      · simp only [room, if_true, short, push_eq_ok, true_and]
      · simp only [room, if_true, short, if_false, raise_run, reduceCtorEq, false_and, and_false]
    · simp only [room, if_false, reduceCtorEq, false_and]

theorem pushInstance_eq_ok {create udd : Word} : pushInstance host create udd ctx = .ok u ctx' ↔
    if create = 0 then ctx.height + 1 ≤ ctx.reserve ∧ ctx' = ctx.pushed .undefined
    else ∃ created w reserved,
      host.createInstance ctx.world ctx.free create udd = .returns created w reserved ∧
        ctx.height + 1 ≤ ctx.reserve + reserved ∧
        ctx' = ⟨created.getD .undefined :: ctx.stack, ctx.reserve + reserved, w⟩ := by
  rw [pushInstance]
  by_cases null : create = 0
  · simp only [null, if_true, pushUndefined, push_eq_ok]
  · simp only [null, if_false]
    constructor
    · intro returned
      rw [bind_ok (get_run ctx)] at returned
      obtain ⟨created, mid, ran, pushed⟩ := bind_eq_ok.mp returned
      obtain ⟨w, reserved, outcome, rfl⟩ := outcome_run_eq_ok.mp ran
      -- a callback that creates nothing has undefined pushed in its place
      cases created with
      | none =>
        obtain ⟨room, rfl⟩ := push_eq_ok.mp pushed
        exact ⟨none, w, reserved, outcome, room, rfl⟩
      | some v =>
        obtain ⟨room, rfl⟩ := push_eq_ok.mp pushed
        exact ⟨some v, w, reserved, outcome, room, rfl⟩
    · rintro ⟨created, w, reserved, outcome, room, rfl⟩
      rw [bind_ok (get_run ctx)]
      refine bind_eq_ok.mpr ⟨created, _, outcome_run_eq_ok.mpr ⟨w, reserved, outcome, rfl⟩, ?_⟩
      cases created with
      | none => exact push_eq_ok.mpr ⟨room, rfl⟩
      | some v => exact push_eq_ok.mpr ⟨room, rfl⟩

/-! ### Properties of the object under a value -/

theorem putPropString_eq_ok {key : Bytes} {v : JsVal} {id : Nat} {below : List JsVal}
    (stack : ctx.stack = v :: .object id :: below) :
    putPropString host 1 key ctx = .ok u ctx' ↔ ctx.height + 2 ≤ ctx.reserve ∧
      ∃ wrote, writeProp host (.object id) key v ctx = .ok () wrote ∧
        ctx' = { wrote with stack := .object id :: below } := by
  have target : ctx.get 1 = .object id := by rw [Ctx.get, stack]; rfl
  have top : ctx.get 0 = v := by rw [Ctx.get, stack]; rfl
  rw [putPropString]
  constructor
  · intro returned
    obtain ⟨_, a, room, rest⟩ := bind_eq_ok.mp returned
    obtain ⟨enough, rfl⟩ := requireRoom_eq_ok.mp room
    rw [bind_ok (getAt_run 1), bind_ok (getAt_run 0), target, top] at rest
    obtain ⟨_, wrote, write, popped⟩ := bind_eq_ok.mp rest
    obtain ⟨_, rfl⟩ := popN_eq_ok.mp popped
    refine ⟨enough, wrote, write, ?_⟩
    rw [keeps_writeProp host _ _ _ _ _ _ write, stack]
    rfl
  · rintro ⟨enough, wrote, write, rfl⟩
    have kept : wrote.stack = v :: .object id :: below :=
      (keeps_writeProp host _ _ _ _ _ _ write).trans stack
    rw [bind_ok (requireRoom_eq_ok (u := ()).mpr ⟨enough, rfl⟩), bind_ok (getAt_run 1),
      bind_ok (getAt_run 0), target, top]
    refine bind_eq_ok.mpr ⟨(), wrote, write, ?_⟩
    refine popN_eq_ok.mpr ⟨?_, ?_⟩
    · rw [Ctx.height, kept, List.length_cons]
      exact Nat.le_add_left 1 _
    · rw [kept]
      rfl

/-- What was pushed for an attribute is what its property holds. -/
theorem jsAddModuleAttr_own {attr : ModuleAttr} {v : JsVal} {id : Nat} {below : List JsVal}
    (stack : ctx.stack = .object id :: below)
    (pushed : pushAttr host attr ctx = .ok () (ctx.pushed v))
    (plain : ∀ w free v, host.writeThrough w free id attr.name v = none)
    (added : jsAddModuleAttr host attr ctx = .ok u ctx') :
    ∃ configurable,
      (ctx'.world.objects id).own attr.name = some (.data v true configurable) := by
  rw [jsAddModuleAttr, bind_ok pushed] at added
  have above : (ctx.pushed v).stack = v :: .object id :: below := by rw [Ctx.pushed_stack, stack]
  obtain ⟨_, wrote, write, rfl⟩ := (putPropString_eq_ok above).mp added
  obtain ⟨configurable, rfl⟩ := setOwn_of_writeProp (plain _ _ _) write
  exact ⟨configurable, by simp [World.setOwn, World.setObject]⟩

theorem jsRegisterVar_eq_ok {t : Ctx H} {varName : Bytes} {valType : ArgFormat}
    {val valSize : Word} {r : Int32} {v : JsVal} (room : ctx.height + 1 ≤ ctx.reserve)
    (pushed : pushAttr host ⟨varName, valType, val, valSize⟩ (ctx.pushed (.object globalId)) =
      .ok () ctx') (stack : ctx'.stack = v :: .object globalId :: ctx.stack) :
    jsRegisterVar host varName valType val valSize ctx = .ok r t ↔
      ctx'.height + 2 ≤ ctx'.reserve ∧ ∃ wrote,
        writeProp host (.object globalId) varName v ctx' = .ok () wrote ∧ r = 0 ∧
          t = { wrote with stack := ctx.stack } := by
  have global : pushGlobalObject ctx = .ok () (ctx.pushed (.object globalId)) :=
    push_eq_ok.mpr ⟨room, rfl⟩
  rw [jsRegisterVar, bind_ok global]
  constructor
  · intro returned
    obtain ⟨_, added, attr, rest⟩ := bind_eq_ok.mp returned
    rw [jsAddModuleAttr, bind_ok pushed] at attr
    obtain ⟨enough, wrote, write, rfl⟩ := (putPropString_eq_ok stack).mp attr
    obtain ⟨_, _, popped, same⟩ := bind_eq_ok.mp rest
    obtain ⟨_, rfl⟩ := popN_eq_ok.mp popped
    cases same
    exact ⟨enough, wrote, write, rfl, rfl⟩
  · rintro ⟨enough, wrote, write, rfl, rfl⟩
    have put := (putPropString_eq_ok (u := ()) stack).mpr ⟨enough, wrote, write, rfl⟩
    exact bind_eq_ok.mpr ⟨(), _, bind_eq_ok.mpr ⟨(), ctx', pushed, put⟩, rfl⟩

/-- Binding a variable comes back when the property of the global object takes the value. -/
theorem jsRegisterVar_returns {varName : Bytes} {valType : ArgFormat} {val valSize : Word}
    (room : ctx.height + 1 ≤ ctx.reserve) {v : JsVal}
    (pushed : pushAttr host ⟨varName, valType, val, valSize⟩ (ctx.pushed (.object globalId)) =
      .ok () ctx') (stack : ctx'.stack = v :: .object globalId :: ctx.stack) :
    Returns (jsRegisterVar host varName valType val valSize) ctx ↔
      ctx'.height + 2 ≤ ctx'.reserve ∧ TakesWrite host ctx' globalId varName v := by
  rw [← writeProp_returns]
  constructor
  · rintro ⟨_, _, returned⟩
    obtain ⟨enough, wrote, write, _⟩ := (jsRegisterVar_eq_ok room pushed stack).mp returned
    exact ⟨enough, (), wrote, write⟩
  · rintro ⟨enough, _, wrote, write⟩
    exact ⟨0, _, (jsRegisterVar_eq_ok room pushed stack).mpr ⟨enough, wrote, write, rfl, rfl⟩⟩

end DukBridge
