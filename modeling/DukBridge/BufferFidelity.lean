import DukBridge.ArgumentStack
import DukBridge.CallGoFunc
import DukBridge.GoAttrs

/-!
# Byte slices on their way to a script

Arguments, variables and results all take bytes through an interned string. A string
with certain first bytes is a Symbol, and a Symbol does not become a buffer.
-/
namespace DukBridge

open Effect

variable {H : Type} {host : Host H} {ctx : Ctx H}

/-- What Duktape makes a buffer of. -/
def Bufferable (b : Bytes) : Prop := isSymbol b = false ∧ b.length ≤ maxBufferLen

/-- A Buffer object with these bytes is on top. -/
def Ctx.HoldsBuffer (ctx : Ctx H) (b : Bytes) : Prop :=
  ∃ id, ctx.get 0 = .object id ∧ (ctx.world.objects id).shape.bufferData = some b

theorem withBuffer_holds {ctx : Ctx H} {data b : Bytes} :
    (ctx.withBuffer data).HoldsBuffer b ↔ data = b := by
  have held : ((ctx.withBuffer data).world.objects ctx.world.nextId).shape.bufferData =
      some data := by
    simp [Ctx.withBuffer, World.setObject]
  constructor
  · rintro ⟨id, top, same⟩
    cases top
    exact Option.some.inj (held.symm.trans same)
  · rintro rfl
    exact ⟨ctx.world.nextId, rfl, held⟩

/-- The push comes back with the bytes of the slice exactly when they can be a buffer. A length
that does not fit a C `int` never gets through: it is enormous, or the bytes are too few. -/
theorem pushNodeBuffer_holds (b : GoBytes host.mem) (ctx : Ctx H) :
    (∃ ctx', pushNodeBuffer host b.addr (sizeOfInt (cInt b.data.length)) ctx = .ok () ctx' ∧
      ctx'.HoldsBuffer b.data) ↔ ctx.height + 2 ≤ ctx.reserve ∧ Bufferable b.data := by
  constructor
  · rintro ⟨ctx', returned, holds⟩
    obtain ⟨room, symbol, short, _, rfl⟩ := pushNodeBuffer_eq_ok.mp returned
    have whole := withBuffer_holds.mp holds
    have small : b.data.length < 2 ^ 31 := by
      have length := congrArg List.length whole
      rw [List.length_take] at length
      rw [maxBufferLen] at short
      omega
    rw [bytesAt_stored b small] at symbol short
    exact ⟨room, symbol, short⟩
  · rintro ⟨room, symbol, short⟩
    have small : b.data.length < 2 ^ 31 := by
      rw [maxBufferLen] at short
      omega
    have length : (sizeOfInt (cInt b.data.length)).toNat = b.data.length := by
      rw [sizeOfInt_cInt_of_lt small, UInt64.toNat_ofNat']
      omega
    have returned : pushNodeBuffer host b.addr (sizeOfInt (cInt b.data.length)) ctx =
        .ok () (ctx.withBuffer b.data) := by
      refine pushNodeBuffer_eq_ok.mpr ?_
      rw [bytesAt_stored b small, length, List.take_length]
      exact ⟨room, symbol, short, by omega, rfl⟩
    exact ⟨_, returned, withBuffer_holds.mpr rfl⟩

/-! ### The three ways -/

variable {S σ : Type} (go : GoRuntime host.mem S σ)

/-- A round of the argument loop pushes a Buffer object with these bytes. -/
def ArgumentArrives (b : GoBytes host.mem) (out : ParsedArg) (st : σ) (ctx : Ctx H) : Prop :=
  ∃ after, pushArg host ((parseArg go (.bytes b) out).run st).1.payload ctx = .ok () after ∧
    after.HoldsBuffer b.data

/-- The property of the global object is a Buffer object with these bytes. -/
def World.ShowsBuffer (w : World H) (name b : Bytes) : Prop :=
  ∃ id configurable,
    (w.objects globalId).own name = some (.data (.object id) true configurable) ∧
      (w.objects id).shape.bufferData = some b

/-- `RegisterVar` comes back, what it binds is a Buffer object with these bytes, and so is the
property of the global object afterwards, unless an accessor takes the write. -/
structure VariableArrives (b : GoBytes host.mem) (name : Bytes) (st : σ) (ctx : Ctx H) : Prop where
  returns : Returns (registerVar host go name (.bytes b) st).1 ctx
  bound : ∃ bound, pushAttr host ((registerVarAttr host go name (.bytes b)).run st).1
    (ctx.pushed (.object globalId)) = .ok () bound ∧ bound.HoldsBuffer b.data
  shown : (∀ w free v, host.writeThrough w free globalId name v = none) →
    ∀ r after, (registerVar host go name (.bytes b) st).1 ctx = .ok r after →
      after.world.ShowsBuffer name b.data

/-- `callGoFunc` has a result, and the value it becomes is a Buffer object with these bytes. -/
def ResultArrives (b : GoBytes host.mem) (declaredInterface : Bool) (st : σ) (ctx : Ctx H) :
    Prop :=
  ∃ out after,
    ((encodeResults go [(declaredInterface, .bytes b)]).run st).1 = some out ∧
      pushResult host out ctx = .ok 1 after ∧ after.HoldsBuffer b.data

theorem argumentArrives_iff (b : GoBytes host.mem) (out : ParsedArg) (st : σ) (ctx : Ctx H) :
    ArgumentArrives go b out st ctx ↔ ctx.height + 2 ≤ ctx.reserve ∧ Bufferable b.data :=
  pushNodeBuffer_holds b ctx

theorem resultArrives_iff (b : GoBytes host.mem) (declaredInterface : Bool) (st : σ)
    (ctx : Ctx H) : ResultArrives go b declaredInterface st ctx ↔
      ctx.height + 2 ≤ ctx.reserve ∧ Bufferable b.data := by
  rw [← pushNodeBuffer_holds b ctx]
  constructor
  · rintro ⟨out, after, encoded, returned, holds⟩
    cases encoded
    obtain ⟨_, mid, pushed, same⟩ := bind_eq_ok.mp returned
    cases same
    exact ⟨after, pushed, holds⟩
  · rintro ⟨after, pushed, holds⟩
    exact ⟨_, after, rfl, bind_eq_ok.mpr ⟨(), after, pushed, rfl⟩, holds⟩

/-- What is bound where there is room for the global object, and the push of the bytes above it
comes back with all of them. -/
theorem pushAttr_buffer {b : GoBytes host.mem} {bound : Ctx H} (name : Bytes)
    (pushed : pushNodeBuffer host b.addr (sizeOfInt (cInt b.data.length)) ctx = .ok () bound)
    (holds : bound.HoldsBuffer b.data) :
    pushAttr host ⟨name, .buffer, b.addr, sizeOfInt (cInt b.data.length)⟩ ctx =
      .ok () (ctx.withBuffer b.data) := by
  obtain ⟨_, _, _, _, same⟩ := pushNodeBuffer_eq_ok.mp pushed
  rw [same, withBuffer_holds] at holds
  rw [holds] at same
  exact pushed.trans (by rw [same])

theorem setOwn_showsBuffer (ctx : Ctx H) (name data : Bytes) (configurable : Bool) :
    (World.setOwn (ctx.withBuffer data).world globalId name
      (some (.data (.object ctx.world.nextId) true configurable))).ShowsBuffer name data := by
  refine ⟨ctx.world.nextId, configurable, by rw [own_setOwn_self, Function.update_self], ?_⟩
  have holds : (ctx.withBuffer data).HoldsBuffer data := withBuffer_holds.mpr rfl
  obtain ⟨id, top, held⟩ := holds
  cases top
  rwa [shape_setOwn]

theorem variableArrives_iff (b : GoBytes host.mem) (name : Bytes) (st : σ) (ctx : Ctx H) :
    VariableArrives go b name st ctx ↔ ctx.height + 4 ≤ ctx.reserve ∧ Bufferable b.data ∧
      TakesWrite host ((ctx.pushed (.object globalId)).withBuffer b.data) globalId name
        (.object ctx.world.nextId) := by
  constructor
  · rintro ⟨returned, ⟨bound, pushed, holds⟩, _⟩
    have room : ctx.height + 1 ≤ ctx.reserve := by
      obtain ⟨_, _, ran⟩ := returned
      obtain ⟨_, _, global, _⟩ := bind_eq_ok.mp ran
      exact (push_eq_ok.mp global).1
    have bufferable := ((pushNodeBuffer_holds b _).mp ⟨bound, pushed, holds⟩).2
    have attr := pushAttr_buffer name pushed holds
    have returns := (jsRegisterVar_returns room attr rfl).mp returned
    exact ⟨returns.1, bufferable, returns.2⟩
  · rintro ⟨room, bufferable, takes⟩
    have above : (ctx.pushed (.object globalId)).height + 2 ≤ ctx.reserve := by
      rw [Ctx.pushed_height]
      omega
    obtain ⟨bound, pushed, holds⟩ := (pushNodeBuffer_holds b _).mpr ⟨above, bufferable⟩
    have attr := pushAttr_buffer name pushed holds
    have global : ctx.height + 1 ≤ ctx.reserve := by omega
    refine ⟨(jsRegisterVar_returns global attr rfl).mpr ⟨room, takes⟩, ⟨bound, pushed, holds⟩,
      fun plain r after returned => ?_⟩
    obtain ⟨_, wrote, write, _, rfl⟩ := (jsRegisterVar_eq_ok global attr rfl).mp returned
    obtain ⟨configurable, rfl⟩ := setOwn_of_writeProp (plain _ _ _) write
    exact setOwn_showsBuffer (ctx.pushed (.object globalId)) name b.data configurable

/-- On each of the three ways a byte slice arrives as it is exactly when Duktape can make a buffer
of its bytes, given the slots for the push and, for a variable, a property to bind. -/
theorem bytes_arrive_iff (b : GoBytes host.mem) (out : ParsedArg) (name : Bytes)
    (declaredInterface : Bool) (st : σ) (ctx : Ctx H) :
    (ArgumentArrives go b out st ctx ↔ ctx.height + 2 ≤ ctx.reserve ∧ Bufferable b.data) ∧
    (VariableArrives go b name st ctx ↔ ctx.height + 4 ≤ ctx.reserve ∧ Bufferable b.data ∧
      TakesWrite host ((ctx.pushed (.object globalId)).withBuffer b.data) globalId name
        (.object ctx.world.nextId)) ∧
    (ResultArrives go b declaredInterface st ctx ↔
      ctx.height + 2 ≤ ctx.reserve ∧ Bufferable b.data) :=
  ⟨argumentArrives_iff go b out st ctx, variableArrives_iff go b name st ctx,
    resultArrives_iff go b declaredInterface st ctx⟩

/-- The single byte 0x80 arrives on none of the ways, with all its slots free. -/
theorem symbol_byte_lost :
    ∃ (host : Host Unit) (go : GoRuntime host.mem Unit Unit) (b : GoBytes host.mem),
      b.data = [0x80] ∧ freshEnvironment.height + 110 = freshEnvironment.reserve ∧
      ¬ ArgumentArrives go b ⟨.none, 0, 0, 0⟩ () freshEnvironment ∧
      ¬ VariableArrives go b (ascii "x") () freshEnvironment ∧
      ¬ ResultArrives go b false () freshEnvironment := by
  let host : Host Unit := { idleHost fun _ => ⟨0, 5⟩ with mem := fun _ => 0x80 }
  let b : GoBytes host.mem := ⟨1, [0x80], rfl, by decide, fun _ => by decide⟩
  have lost : ¬ Bufferable b.data := fun bufferable => Bool.noConfusion bufferable.1
  refine ⟨host, bareRuntime host.mem, b, rfl, rfl, ?_, ?_, ?_⟩
  · rw [argumentArrives_iff]
    exact fun arrives => lost arrives.2
  · rw [variableArrives_iff]
    exact fun arrives => lost arrives.2.1
  · rw [resultArrives_iff]
    exact fun arrives => lost arrives.2

end DukBridge
