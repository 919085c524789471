import DukBridge.HostCalls

/-!
# What each call does to the height of the value stack

One rule for each call of the API, then one for each function of the bridge that is
built from them.
-/
namespace DukBridge

open Effect

variable {H α : Type}

/-- Values on the stack, as an integer that can fall. -/
def stackHeight (ctx : Ctx H) : Int := ctx.stack.length

/-- The program moves the height by `k` whenever it returns. -/
abbrev Moves (k : Int) (m : Duk H α) : Prop := Shifts stackHeight k m

theorem moves_of_keeps {m : Duk H α} (keeps : Keeps Ctx.stack m) : Moves 0 m :=
  keeps.shifts fun stack => (stack.length : Int)

theorem moves_raise (k : Int) (e : DukError) : Moves k (raise e : Duk H α) := .throw _

theorem moves_pure (a : α) : Moves 0 (pure a : Duk H α) := .pure a

/-! ### The API -/

theorem moves_requireRoom (n : Nat) : Moves 0 (requireRoom n : Duk H Unit) :=
  moves_of_keeps (keeps_requireRoom n)

theorem moves_push (v : JsVal) : Moves 1 (push v : Duk H Unit) := by
  intro s u t returned
  obtain ⟨_, rfl⟩ := push_eq_ok.mp returned
  exact Int.natCast_succ s.stack.length

theorem moves_popN (n : Nat) : Moves (-n) (popN n : Duk H Unit) := by
  intro s u t returned
  obtain ⟨enough, rfl⟩ := popN_eq_ok.mp returned
  simp only [Ctx.height] at enough
  simp only [stackHeight, List.length_drop]
  omega

theorem moves_pop : Moves (-1) (pop : Duk H Unit) := moves_popN 1

theorem moves_getAt (i : Nat) : Moves 0 (getAt i : Duk H JsVal) := moves_of_keeps (keeps_getAt i)

theorem moves_setAt (i : Nat) (v : JsVal) : Moves 0 (setAt i v : Duk H Unit) := by
  intro s u t returned
  cases returned
  simp [stackHeight]

theorem moves_removeAt (i : Nat) : Moves (-1) (removeAt i : Duk H Unit) := by
  intro s u t returned
  obtain ⟨within, rfl⟩ := removeAt_eq_ok.mp returned
  simp only [Ctx.height] at within
  simp only [stackHeight, List.length_eraseIdx_of_lt within]
  omega

theorem moves_run (outcome : Outcome H α) : Moves 0 outcome.run :=
  moves_of_keeps (keeps_run outcome)

theorem moves_protect (outcome : Outcome H JsVal) : Moves 0 outcome.protect := by
  intro s a t returned
  cases outcome with
  | returns v w reserved | throws v w reserved =>
    cases returned
    exact (Int.add_zero _).symm
  | never => cases returned

theorem moves_pushBytes (s : Bytes) : Moves 1 (pushBytes s : Duk H Unit) := by
  apply (moves_requireRoom 1).andThen
  exact .ite (moves_push _) (moves_raise _ _)

variable (host : Host H)

theorem moves_pushString (addr : Word) : Moves 1 (pushString host addr) :=
  .ite (moves_push _) (moves_pushBytes _)

theorem moves_pushLstring (addr len : Word) : Moves 1 (pushLstring host addr len) := by
  apply (moves_requireRoom 1).andThen
  exact .ite (moves_push _) (moves_raise _ _)

theorem moves_pushNew (shape : ObjShape) (native : Option (CFunction × Int32)) :
    Moves 1 (pushNew shape native : Duk H Unit) := by
  refine .get_next fun ctx => (moves_push _).next fun _ => ?_
  -- the object is created in the world, not on the stack
  intro s u t returned
  cases returned
  exact (Int.add_zero _).symm

theorem moves_pushCFunction (f : CFunction) (nargs : Int32) :
    Moves 1 (pushCFunction f nargs : Duk H Unit) :=
  .ite (moves_pushNew _ _) (moves_raise _ _)

theorem moves_toBuffer : Moves 0 (toBuffer : Duk H Unit) := by
  apply (moves_getAt 0).next
  intro v
  cases v with
  | string s =>
    refine .ite (moves_raise _ _) ?_
    apply (moves_requireRoom 1).andThen
    exact .ite (moves_setAt 0 _) (moves_raise _ _)
  | buffer data => exact moves_pure _
  | _ => exact moves_raise _ _

theorem moves_pushBufferObject (len : Word) : Moves 1 (pushBufferObject len : Duk H Unit) := by
  apply (moves_getAt 0).next
  intro v
  cases v with
  | buffer data => exact .ite (moves_pushNew _ _) (moves_raise _ _)
  | _ => exact moves_raise _ _

theorem moves_getPropString (i : Nat) (key : Bytes) : Moves 1 (getPropString host i key) := by
  intro s found t returned
  obtain ⟨v, stack⟩ := getPropString_stack returned
  rw [stackHeight, stack]
  exact Int.natCast_succ s.stack.length

theorem moves_putPropString (i : Nat) (key : Bytes) : Moves (-1) (putPropString host i key) := by
  apply (moves_requireRoom 2).andThen
  apply (moves_getAt i).next
  intro target
  apply (moves_getAt 0).next
  intro v
  apply (moves_of_keeps (keeps_writeProp host target key v)).andThen
  exact moves_pop

theorem moves_putProp : Moves (-2) (putProp host) := by
  apply (moves_requireRoom 1).andThen
  apply (moves_getAt 2).next
  intro target
  apply (moves_getAt 1).next
  intro key
  apply (moves_getAt 0).next
  intro v
  cases key with
  | string key =>
    apply (moves_of_keeps (keeps_writeProp host target key v)).andThen
    apply (moves_popN 2).andThen
    exact moves_pure _
  | _ => exact moves_raise _ _

theorem moves_delPropString (key : Bytes) : Moves 0 (delPropString key : Duk H Bool) := by
  apply (moves_requireRoom 3).andThen
  apply (moves_getAt 0).next
  intro target
  apply (moves_of_keeps (keeps_deleteProp target key)).andThen
  exact moves_pure _

theorem moves_getGlobalString (key : Bytes) : Moves 1 (getGlobalString host key) := by
  apply (moves_requireRoom 3).andThen
  apply (moves_of_keeps (keeps_readProp host _ key)).next
  rintro ⟨v, found⟩
  have pushed : Moves 1 (do push v; return found : Duk H Bool) :=
    (moves_push v).next fun _ => moves_pure _
  -- undefined is pushed for what is missing
  cases found with
  | false => exact pushed
  | true => exact (moves_requireRoom 4).next fun _ => pushed

theorem moves_pcall (nargs : Nat) : Moves (-nargs) (pcall host nargs) := by
  refine .get_next fun ctx => .ite ?_ (moves_raise _ _)
  apply (moves_protect _).next
  rintro ⟨v, rc⟩
  -- function and arguments make way for the result or the error
  apply (moves_popN (nargs + 1)).andThen
  apply (moves_push v).andThen
  exact (moves_pure rc).of_eq (by omega)

theorem moves_pcompileLstring (mode : CompileMode) (src : Option Bytes) :
    Moves 1 (pcompileLstring host mode src) := by
  refine (moves_requireRoom 1).next fun _ => .get_next fun ctx => ?_
  apply (moves_protect _).next
  rintro ⟨v, rc⟩
  apply (moves_push v).andThen
  exact moves_pure rc

theorem moves_pcompileLstringFilename (mode : CompileMode) (src : Option Bytes) :
    Moves 0 (pcompileLstringFilename host mode src) := by
  apply Shifts.get_next
  intro ctx
  split
  · refine (moves_protect _).next fun (v, rc) => ?_
    apply (moves_setAt 0 v).andThen
    exact moves_pure rc
  · exact moves_raise _ _

theorem moves_pevalLstring (src : Option Bytes) : Moves 1 (pevalLstring host src) := by
  -- an error of the compiler stays on the stack like one of the code
  refine (moves_pcompileLstring host .eval src).next fun rc => .ite ?_ (moves_pure rc)
  refine (moves_requireRoom 1).next fun _ => .get_next fun ctx => ?_
  apply (moves_protect _).next
  rintro ⟨v, rc⟩
  apply (moves_setAt 0 v).andThen
  exact moves_pure rc

theorem moves_jsonEncode (i : Nat) : Moves 0 (jsonEncode host i) := by
  refine .get_next fun ctx => (moves_run _).next fun text => ?_
  cases text with
  | some text => exact moves_setAt _ _
  | none => exact moves_setAt _ _

theorem moves_jsonDecode : Moves 0 (jsonDecode host) := by
  apply Shifts.get_next
  intro ctx
  split
  · exact (moves_run _).next fun v => moves_setAt 0 v
  · exact moves_raise _ _

theorem moves_pushErrorObject (message : Bytes) : Moves 1 (pushErrorObject host message) := by
  refine (moves_requireRoom 1).next fun _ => .get_next fun ctx => ?_
  exact (moves_run _).next fun v => moves_push v

theorem moves_safeToString : Moves 0 (safeToString host) := by
  apply (moves_requireRoom 1).andThen
  intro s a t returned
  rw [bind_run, get_run] at returned
  cases coerced : host.safeToString s.world s.free (s.get 0) with
  | none =>
    simp only [coerced] at returned
    cases returned
  | some result =>
    simp only [coerced] at returned
    cases returned
    simp [stackHeight]

/-! ### Pushes of the bridge -/

theorem moves_saveTopObject : Moves (-1) (saveTopObject host) := by
  intro s h t returned
  obtain ⟨v, stack⟩ := saveTopObject_stack returned
  simp only [stackHeight, stack, List.length_cons]
  omega

theorem moves_loadObject (funcIndex : Word) : Moves 1 (loadObject host funcIndex) :=
  moves_getGlobalString host _

theorem moves_destroyObject (funcIndex : Word) : Moves 0 (destroyObject funcIndex : Duk H Unit) := by
  apply (moves_push _).andThen
  apply (moves_delPropString _).andThen
  exact moves_pop

theorem moves_pushNodeBuffer (addr len : Word) : Moves 1 (pushNodeBuffer host addr len) := by
  apply (moves_pushLstring host addr len).andThen
  apply moves_toBuffer.andThen
  apply (moves_pushBufferObject len).andThen
  -- [ buffer, object ]
  exact moves_removeAt 1

theorem moves_pushJson (addr len : Word) : Moves 1 (pushJson host addr len) :=
  (moves_pushLstring host addr len).next fun _ => moves_jsonDecode host

theorem moves_pushInstance (createEcmascriptInstance udd : Word) :
    Moves 1 (pushInstance host createEcmascriptInstance udd) := by
  refine .ite (moves_push _) (.get_next fun ctx => (moves_run _).next fun created => ?_)
  cases created with
  | some v => exact moves_push v
  | none => exact moves_push _

theorem moves_pushArg (arg : CArg) : Moves 1 (pushArg host arg) := by
  cases arg with
  | none | bool d | int d | double d => exact moves_push _
  | zstring s => exact moves_pushString host s
  | lstring l s => exact moves_pushLstring host s l
  | error l s => exact moves_raise _ _
  | buffer l s => exact moves_pushNodeBuffer host s l
  | ecmafunc funcIndex => exact (moves_loadObject host funcIndex).next fun _ => moves_pure _
  | mobject objUdd create => exact moves_pushInstance host create objUdd
  | json l s => exact moves_pushJson host s l

/-- `argc` counts the values pushed. -/
theorem pushArgs_height {argv : List Word} {fmt : Bytes} {i argc n : Nat} {s t : Ctx H}
    (returned : pushArgs host argv fmt i argc s = .ok n t) :
    stackHeight t = stackHeight s + (n - argc) := by
  -- over the format string, from wherever the loop stands
  induction fmt generalizing i argc s with
  | nil =>
    cases returned
    omega
  | cons c fmt ih =>
    rw [pushArgs] at returned
    split at returned
    · -- the NUL
      cases returned
      omega
    · obtain ⟨_, mid, pushed, rest⟩ := bind_eq_ok.mp returned
      have first := moves_pushArg host _ _ _ _ pushed
      have others := ih rest
      omega

theorem moves_pushAttr (attr : ModuleAttr) : Moves 1 (pushAttr host attr) := by
  unfold pushAttr
  cases attr.fmt with
  | none | bool | int | double => exact moves_push _
  | zstring => exact moves_pushString host _
  | lstring => exact moves_pushLstring host _ _
  | buffer => exact moves_pushNodeBuffer host _ _
  | ecmafunc => exact (moves_loadObject host _).next fun _ => moves_pure _
  | jarray | jobject | error | mobject => exact moves_pushJson host _ _

theorem moves_deliverJson (array : Bool) : Moves 0 (deliverJson host array) := by
  refine (moves_jsonEncode host 0).next fun _ => .get_next fun ctx => ?_
  split <;> exact moves_pure _

/-- Whatever the value on top is, the callback leaves one value in its place. -/
theorem moves_callResultCallback : Moves 0 (callResultCallback host) := by
  apply Shifts.get_next
  intro ctx
  cases ctx.get 0 with
  | object id =>
    dsimp only
    apply Shifts.ite
    · -- the copy of a function is gone when it has been saved
      apply (moves_push _).andThen
      apply (moves_setAt 0 _).andThen
      exact (moves_saveTopObject host).next fun _ => moves_pure _
    · cases (ctx.world.objects id).shape.bufferData with
      | some data => exact moves_pure _
      | none =>
        refine .ite ?_ (moves_deliverJson host _)
        exact (moves_safeToString host).next fun _ => .get_next fun _ => moves_pure _
  | pointer p | lightfunc f => exact moves_deliverJson host false
  | _ => exact moves_pure _

theorem moves_deliver (callFuncRes : Bool) : Moves 0 (deliver host callFuncRes) :=
  .ite ((moves_callResultCallback host).next fun _ => moves_pure _) (moves_pure _)

theorem moves_callFunc (argc : Nat) (callFuncRes : Bool) :
    Moves (-argc - 1) (callFunc host argc callFuncRes) := by
  apply (moves_pcall host argc).next
  intro rc
  apply (moves_deliver host callFuncRes).next
  intro delivered
  apply moves_pop.andThen
  exact (moves_pure _).of_eq (by omega)

/-- The function and the arguments pushed for it are gone after the call. -/
theorem moves_pushArgsAndCallFunc (callFuncRes : Bool) (fmt : Option Bytes) (argv : List Word) :
    Moves (-1) (pushArgsAndCallFunc host callFuncRes fmt argv) := by
  cases fmt with
  | none => exact moves_callFunc host 0 callFuncRes
  | some fmt =>
    intro s a t returned
    obtain ⟨argc, mid, pushed, called⟩ := bind_eq_ok.mp returned
    have arguments := pushArgs_height host pushed
    have call := moves_callFunc host argc callFuncRes _ _ _ called
    omega

end DukBridge
