import DukBridge.ArgumentStack
import DukBridge.GoAttrs
import DukBridge.GoCalls

/-!
# Variables and call arguments

`RegisterVar` and `CallFunc` share `parseArg`. After it each has a switch of its own in
Go, and another one in C.
-/
namespace DukBridge

open Effect

variable {H : Type} {host : Host H} {S σ : Type}

/-! ### Two pushes of one value -/

/-- Whatever is neither an error nor a struct pointer is pushed by the same calls. -/
theorem pushAttr_eq_pushArg (host : Host H) {out : ParsedArg} (noError : out.argType ≠ .error)
    (noInstance : out.argType ≠ .mobject) (name : Bytes) :
    pushAttr host ⟨name, out.argType, out.varSlot, out.pLen⟩ = pushArg host out.payload := by
  obtain ⟨argType, val, p, pLen⟩ := out
  cases argType with
  | error => exact absurd rfl noError
  | mobject => exact absurd rfl noInstance
  | _ => rfl

/-- What a push needs does not depend on the value below it. -/
theorem argFits_above (ctx : Ctx H) (f g : JsVal) (arg : CArg) :
    ArgFits host (ctx.pushed f) arg ↔ ArgFits host (ctx.pushed g) arg := by
  cases arg <;> exact Iff.rfl

/-- The state after a push, with another value below the one that was pushed. -/
theorem afterArg_above {ctx : Ctx H} {f : JsVal} {arg : CArg}
    (fits : ArgFits host (ctx.pushed f) arg) (g : JsVal) :
    afterArg host (ctx.pushed g) arg =
      { afterArg host (ctx.pushed f) arg with
        stack := (afterArg host (ctx.pushed f) arg).get 0 :: g :: ctx.stack } := by
  cases arg with
  | error l s => exact fits.elim
  | mobject objUdd create =>
    rw [ArgFits] at fits
    simp only [afterArg]
    by_cases null : create = 0
    · simp only [null, if_true]
      rfl
    · rw [if_neg null] at fits
      obtain ⟨created, w, reserved, outcome, _⟩ := fits
      have outcome' : host.createInstance (ctx.pushed g).world (ctx.pushed g).free create objUdd =
          .returns created w reserved := outcome
      simp only [null, if_false, outcome, outcome']
      rfl
  | json l s =>
    obtain ⟨_, _, v, w, reserved, outcome⟩ := fits
    have outcome' : host.jsonDecode (ctx.pushed g).world
        ((ctx.pushed g).pushed (.string (host.bytesAt s l))).free (host.bytesAt s l) =
          .returns v w reserved := outcome
    simp only [afterArg, outcome, outcome']
    rfl
  | _ => rfl

/-! ### Binding a value to a name -/

/-- The name is bound to the value on the global object of `w`, and the value is the object that
it is in `before`. -/
def World.Binds (w before : World H) (name : Bytes) (v : JsVal) : Prop :=
  (∃ writable configurable,
    (w.objects globalId).own name = some (.data v writable configurable)) ∧
  ∀ id, v = .object id → id ≠ globalId → w.objects id = before.objects id

/-- A write of `v` to this name binds it: to a writable property, to a new one, or through a setter
that stores it. -/
def WriteBinds (host : Host H) (ctx : Ctx H) (name : Bytes) (v : JsVal) : Prop :=
  match (ctx.world.objects globalId).own name,
    host.writeThrough ctx.world ctx.free globalId name v with
  | some (.data _ writable _), _ => writable = true
  | _, some outcome => ∃ w reserved, outcome = .returns () w reserved ∧ w.Binds ctx.world name v
  | some (.accessor _), none => False
  | none, none => (ctx.world.objects globalId).extensible = true

theorem setOwn_binds (w : World H) (name : Bytes) (v : JsVal) (configurable : Bool) :
    (w.setOwn globalId name (some (.data v true configurable))).Binds w name v := by
  refine ⟨⟨true, configurable, by simp [World.setOwn, World.setObject]⟩, ?_⟩
  intro id _ other
  simp [World.setOwn, World.setObject, other]

theorem writeProp_binds {ctx : Ctx H} {name : Bytes} {v : JsVal} :
    (∃ wrote, writeProp host (.object globalId) name v ctx = .ok () wrote ∧
      wrote.world.Binds ctx.world name v) ↔ WriteBinds host ctx name v := by
  rw [writeProp_reaches (P := fun wrote => wrote.world.Binds ctx.world name v), WriteBinds]
  -- the object's own property holds what was written
  have binds := setOwn_binds ctx.world name v
  cases (ctx.world.objects globalId).own name with
  | none => cases host.writeThrough ctx.world ctx.free globalId name v <;> simp [binds]
  | some slot =>
    cases slot with
    | data value writable configurable => simp [binds]
    | accessor configurable =>
      cases host.writeThrough ctx.world ctx.free globalId name v <;> simp

/-! ### The agreement -/

variable (go : GoRuntime host.mem S σ)

/-- `CallFunc` finds the function and pushes its one argument, which is now on top. -/
def PassesArgument (funcName : Bytes) (val : GoVal host.mem S) (st : σ) (f : JsVal)
    (ctx after : Ctx H) : Prop :=
  getGlobalString host (cString funcName) ctx = .ok true (ctx.pushed f) ∧
  pushArgs host ((parseArgs go [val]).run st).1.2.2 ((parseArgs go [val]).run st).1.2.1 0 0
    (ctx.pushed f) = .ok 1 after

/-- `RegisterVar` comes back, and the name is bound to the value `v` of the state `after`. -/
def BindsVariable (name : Bytes) (val : GoVal host.mem S) (st : σ) (ctx after : Ctx H) (v : JsVal) :
    Prop :=
  ∃ t, (registerVar host go name val st).1 ctx = .ok 0 t ∧ t.world.Binds after.world name v

/-- An argument that was pushed is no error, and its value is the one on top. -/
theorem passesArgument_fits (plain : PlainHandles host) {funcName : Bytes} {val : GoVal host.mem S}
    {st : σ} {f : JsVal} {ctx after : Ctx H} (passes : PassesArgument go funcName val st f ctx after) :
    val.isError = false ∧ ArgFits host (ctx.pushed f)
      ((parseArg go val ⟨.none, 0, 0, 0⟩).run st).1.payload ∧
    after = afterArg host (ctx.pushed f) ((parseArg go val ⟨.none, 0, 0, 0⟩).run st).1.payload := by
  have pushed := passes.2
  cases isError : val.isError with
  | true =>
    cases val with
    | error text => cases pushed
    | _ => cases isError
  | false =>
    rw [pushArgs_parseArgs go [val] (by simpa using isError)] at pushed
    obtain ⟨_, _, pushes, same⟩ := bind_eq_ok.mp pushed
    cases same
    obtain ⟨⟨fits, _⟩, same⟩ := (pushAll_eq_ok plain).mp pushes
    exact ⟨rfl, fits, same⟩

/-- A struct pointer is sent as a NULL text, and the empty text is no JSON. -/
theorem registerVar_structPtr
    (emptyText : ∀ w free v w' reserved, host.jsonDecode w free [] ≠ .returns v w' reserved)
    (name : Bytes) (s : S) (st : σ) (ctx : Ctx H) :
    ¬ Returns (registerVar host go name (.structPtr s) st).1 ctx := by
  rintro ⟨_, _, returned⟩
  obtain ⟨_, _, _, returned⟩ := bind_eq_ok.mp returned
  obtain ⟨_, _, added, _⟩ := bind_eq_ok.mp returned
  obtain ⟨_, _, pushed, _⟩ := bind_eq_ok.mp added
  obtain ⟨_, _, v, w, reserved, outcome, _⟩ := pushJson_eq_ok.mp pushed
  exact emptyText _ _ _ _ _ outcome

/-- When `CallFunc` gets a Go value past its pushes, `RegisterVar` comes back with the name bound
to the same JavaScript value exactly if the value is no struct pointer and the global object takes
the write. -/
theorem variable_agrees_iff (plain : PlainHandles host)
    (emptyText : ∀ w free v w' reserved, host.jsonDecode w free [] ≠ .returns v w' reserved)
    (funcName name : Bytes) (val : GoVal host.mem S) (st : σ) (ctx after : Ctx H) (f : JsVal)
    (writable configurable : Bool)
    (registered : ctx.global.own (cString funcName) = some (.data f writable configurable))
    (passes : PassesArgument go funcName val st f ctx after) :
    BindsVariable go name val st ctx after (after.get 0) ↔
      val.isStructPtr = false ∧ WriteBinds host after name (after.get 0) := by
  obtain ⟨noError, fits, rfl⟩ := passesArgument_fits go plain passes
  have room : ctx.height + 4 ≤ ctx.reserve := by
    have looked := passes.1
    rw [getGlobalString_data registered] at looked
    split at looked
    · assumption
    · cases looked
  cases isStruct : val.isStructPtr with
  | true =>
    cases val with
    | structPtr s =>
      refine iff_of_false ?_ (fun both => Bool.noConfusion both.1)
      rintro ⟨t, returned, _⟩
      exact registerVar_structPtr go emptyText name s st ctx ⟨_, _, returned⟩
    | _ => cases isStruct
  | false =>
    have format := parseArg_error go val ⟨.none, 0, 0, 0⟩ st
    have instances := parseArg_structPtr go val ⟨.none, 0, 0, 0⟩ st
    rw [noError, Bool.false_eq_true, iff_false] at format
    rw [isStruct, Bool.false_eq_true, iff_false] at instances
    have call : (registerVar host go name val st).1 =
        jsRegisterVar host name ((parseArg go val ⟨.none, 0, 0, 0⟩).run st).1.argType
          ((parseArg go val ⟨.none, 0, 0, 0⟩).run st).1.varSlot
          ((parseArg go val ⟨.none, 0, 0, 0⟩).run st).1.pLen := rfl
    rw [BindsVariable, call]
    generalize ((parseArg go val ⟨.none, 0, 0, 0⟩).run st).1 = out at *
    -- the global object lies where the function lay
    have pushed := (pushArg_eq_ok plain (u := ()) out.payload).mpr
      ⟨(argFits_above ctx f (.object globalId) out.payload).mp fits, rfl⟩
    rw [afterArg_above fits, ← pushAttr_eq_pushArg host format instances name] at pushed
    obtain ⟨v, stack⟩ := afterArg_stack fits
    have reserve := afterArg_reserve fits
    generalize afterArg host (ctx.pushed f) out.payload = after at *
    have height : after.height = ctx.height + 2 := by rw [Ctx.height, stack]; rfl
    rw [Ctx.pushed_reserve] at reserve
    have free : (Ctx.mk (after.get 0 :: .object globalId :: ctx.stack) after.reserve after.world).free =
        after.free := by
      rw [Ctx.free, Ctx.free, stack]
      rfl
    have writes : WriteBinds host after name (after.get 0) ↔
        WriteBinds host ⟨after.get 0 :: .object globalId :: ctx.stack, after.reserve, after.world⟩
          name (after.get 0) := by
      rw [WriteBinds, WriteBinds, free]
    rw [writes, ← writeProp_binds]
    constructor
    · rintro ⟨t, returned, binds⟩
      obtain ⟨_, wrote, write, _, rfl⟩ := (jsRegisterVar_eq_ok (by omega) pushed rfl).mp returned
      exact ⟨rfl, wrote, write, binds⟩
    · rintro ⟨_, wrote, write, binds⟩
      refine ⟨_, (jsRegisterVar_eq_ok (by omega) pushed rfl).mpr ⟨?_, wrote, write, rfl, rfl⟩, binds⟩
      simp only [Ctx.height_mk, List.length_cons]
      rw [← Ctx.height]
      omega

/-! ### A struct pointer -/

/-- A host that creates instances, and for which the empty text is a SyntaxError. -/
def instanceHost : Host Unit :=
  { stillHost with
    createInstance := fun w _ _ _ => .returns (some (.object 2)) w 0
    jsonDecode := fun w _ text =>
      if text = [] then .throws (.string (ascii "SyntaxError")) w 0 else .returns .null w 0 }

theorem instanceHost_plain : PlainHandles instanceHost :=
  ⟨fun _ _ _ => rfl, fun _ _ _ _ => rfl⟩

theorem instanceHost_emptyText (w : World Unit) (free : Nat) (v : JsVal) (w' : World Unit)
    (reserved : Nat) : instanceHost.jsonDecode w free [] ≠ .returns v w' reserved := by
  intro returned
  cases returned

/-- A function gets the object created for a struct pointer, and the registration of the same
pointer ends in an error that nothing catches. -/
theorem structPtr_not_registered : ∃ (after t : Ctx Unit) (e : DukError),
    PassesArgument (bareRuntime instanceHost.mem) (ascii "f") (.structPtr ()) () (.object 1)
      oneFunction after ∧ after.get 0 = .object 2 ∧
    WriteBinds instanceHost after (ascii "x") (.object 2) ∧
    (registerVar instanceHost (bareRuntime _) (ascii "x") (.structPtr ()) ()).1 oneFunction =
      .error (.thrown e) t ∧
    ¬ BindsVariable (bareRuntime instanceHost.mem) (ascii "x") (.structPtr ()) () oneFunction after
      (.object 2) := by
  refine ⟨_, _, _, ⟨rfl, rfl⟩, rfl, rfl, rfl, ?_⟩
  rintro ⟨t, returned, _⟩
  cases returned

theorem variable_agrees_iff_bool : ∃ after,
    PassesArgument (bareRuntime instanceHost.mem) (ascii "f") (.bool true) () (.object 1)
      oneFunction after ∧
    BindsVariable (bareRuntime instanceHost.mem) (ascii "x") (.bool true) () oneFunction after
      (.boolean true) :=
  ⟨_, ⟨rfl, rfl⟩, (variable_agrees_iff (bareRuntime instanceHost.mem) instanceHost_plain
    instanceHost_emptyText (ascii "f") (ascii "x") (.bool true) () oneFunction _ (.object 1) true true
    rfl ⟨rfl, rfl⟩).mpr ⟨rfl, rfl⟩⟩

end DukBridge
