import DukBridge.DuktapeThreads
import DukBridge.IntegerFidelity
import DukBridge.VariableAgreement

/-!
# Fields of modules and call arguments

`go_getAttrsList` has a type switch of its own for the fields of a struct, over their Kinds.
`parseArg` switches over types, and `push_args_and_call_func` pushes what it chose.
-/
namespace DukBridge

open Effect Rendezvous KeyStore

variable {H L S σ : Type} {mem : Memory}

/-! ### A field as both switches see it -/

/-- A slice or map that is not nil is the value `Interface` returns. -/
def GoFieldVal.Holds (arg : GoVal mem S) : GoFieldVal mem S → Prop
  | .slice v | .map v => v = arg
  | .bool _ | .integer _ | .float _ | .string _ | .absent | .bytes _ | .other => True

/-- One value by its Kind and by the case of the type switch that takes it. -/
inductive TakenAs (isArray : Bool) : GoFieldVal mem S → GoVal mem S → Prop
  | bool (b : Bool) : TakenAs isArray (.bool b) (.bool b)
  | integer (n : GoInteger) : TakenAs isArray (.integer n) (.integer n)
  | float32 (f : Float32) : TakenAs isArray (.float f.toFloat) (.float32 f)
  | float64 (d : Float) : TakenAs isArray (.float d) (.float64 d)
  | string (s : GoBytes mem) : TakenAs isArray (.string s) (.string s)
  | nilBytes (b : GoBytes mem) (empty : b.data = []) : TakenAs isArray .absent (.bytes b)
  | nilSlice (id : Nat) : TakenAs isArray .absent (.slice id)
  | nilMap (id : Nat) : TakenAs isArray .absent (.map id)
  | bytes (b : GoBytes mem) (slice : isArray = false) : TakenAs isArray (.bytes b) (.bytes b)
  | slice (id : Nat) (slice : isArray = false) : TakenAs isArray (.slice (.slice id)) (.slice id)
  | map (id : Nat) : TakenAs isArray (.map (.map id)) (.map id)
  | error {val : GoFieldVal mem S} (text : GoBytes mem) (held : val.Holds (.error text)) :
      TakenAs isArray val (.error text)
  /-- A type that no case names. -/
  | other {val : GoFieldVal mem S} (id : Nat) (held : val.Holds (.other id))
      (noInteger : ∀ n, val ≠ .integer n) : TakenAs isArray val (.other id)
  /-- Pointers, interfaces and the other Kinds without a case in `go_getAttrsList`. -/
  | unlisted (arg : GoVal mem S) : TakenAs isArray .other arg

structure ModuleField (mem : Memory) (S : Type) extends StructField mem S where
  /-- What `Interface` returns. -/
  arg : GoVal mem S
  /-- The name with its first letter lower-cased, a letter of any script. -/
  lowered : Bytes
  named : name ≠ []
  takenAs : TakenAs isArray val arg
  lowered_ascii : ∀ c ∈ name.head?, c < 128 → lowered = lowerFirst name

/-- The Kind is bool, an integer, a float, string, slice, array or map. -/
def GoFieldVal.attributable : GoFieldVal mem S → Bool
  | .other => false
  | .bool _ | .integer _ | .float _ | .string _ | .absent | .bytes _ | .slice _ | .map _ => true

/-- `parseArg` marshals the value. -/
def GoVal.asText : GoVal mem S → Bool
  | .slice _ | .map _ | .other _ => true
  | .integer n => n.defined || n.kind == .uintptr
  | _ => false

/-- A capital letter passes the test of `go_getAttrsList`. -/
theorem ModuleField.exported_of_isExported (field : ModuleField mem S)
    (isExported : field.isExported = true) : field.exported = true := by
  have ascii := field.ascii_iff
  cases name : field.name with
  | nil => exact absurd name field.named
  | cons c rest =>
    rw [name] at ascii
    by_contra refused
    have first : ¬c.toNat = 95 → 97 ≤ c.toNat ∧ c.toNat ≤ 122 := by
      simpa [GoField.exported, name, UInt8.le_iff_toNat_le, ← UInt8.toNat_inj] using refused
    have small : c.toNat < 128 := by omega
    have capital : 65 ≤ c.toNat ∧ c.toNat ≤ 90 := (ascii c rfl small).mp isExported
    omega

/-! ### What a round sends -/

/-- What the switch of `js_add_module_attr` takes out of the structure. -/
def ModuleAttr.payload (attr : ModuleAttr) : CArg :=
  match attr.fmt with
  | .none => .none
  | .bool => .bool (intOfPtr attr.val)
  | .int => .int (intOfPtr attr.val)
  | .double => .double (voidp2double attr.val)
  | .zstring => .zstring attr.val
  | .lstring => .lstring attr.valLen attr.val
  | .buffer => .buffer attr.valLen attr.val
  | .ecmafunc => .ecmafunc attr.val
  | .jarray | .jobject | .error | .mobject => .json attr.valLen attr.val

theorem pushAttr_payload (host : Host H) (attr : ModuleAttr) :
    pushAttr host attr = pushArg host attr.payload := by
  obtain ⟨name, fmt, val, valLen⟩ := attr
  cases fmt <;> rfl

/-- What the switch of `go_getAttrsList` sends for a value. -/
def GoFieldVal.sent (go : GoRuntime mem S σ) (val : GoFieldVal mem S) : Option CArg :=
  ((⟨[], .none, 0, 0⟩ : ModuleAttr).setField go val).map ModuleAttr.payload

/-- The structure is used for all fields, and nothing of an earlier one is sent again. -/
theorem setField_payload (go : GoRuntime mem S σ) (attr : ModuleAttr) (val : GoFieldVal mem S) :
    (attr.setField go val).map ModuleAttr.payload = val.sent go := by
  unfold GoFieldVal.sent
  cases val with
  | integer n =>
    simp only [ModuleAttr.setField, ModuleAttr.setInteger]
    cases n.kind <;> rfl
  | slice v | map v =>
    simp only [ModuleAttr.setField, ModuleAttr.setJson]
    cases go.marshal v <;> rfl
  | _ => rfl

/-- A value is pushed above the object, and becomes its property. -/
def attach (host : Host H) (key : Bytes) (arg : CArg) : Duk H Unit := do
  pushArg host arg
  putPropString host 1 key

/-- One round of the loop, as far as C has a part in it. -/
def sendField (host : Host H) (go : GoRuntime host.mem S σ) (field : ModuleField host.mem S) :
    Duk H Unit :=
  if field.exported then
    match field.val.sent go with
    | some arg => attach host (lowerFirst field.name) arg
    | none => pure ()
  else pure ()

theorem goGetAttrsList_eq_each (host : Host H) (go : GoRuntime host.mem S σ)
    (fields : List (ModuleField host.mem S)) (attr : ModuleAttr) :
    goGetAttrsList host go (fields.map fun f => f.toGoField) attr =
      each (sendField host go) fields := by
  induction fields generalizing attr with
  | nil => rfl
  | cons field rest ih =>
    rw [List.map_cons, goGetAttrsList, each, sendField]
    by_cases exported : field.exported = true
    · simp only [exported, if_true]
      have sent := setField_payload go { attr with name := lowerFirst field.name } field.val
      cases set : ({ attr with name := lowerFirst field.name } : ModuleAttr).setField go field.val with
      | none =>
        rw [set] at sent
        rw [← sent]
        exact ih _
      | some filled =>
        rw [set] at sent
        rw [← sent]
        simp only [Option.map_some, ih, jsAddModuleAttr, pushAttr_payload, attach]
        rw [(setField_name set).1]
    · simp only [exported]
      exact ih attr

/-! ### One attribute -/

section Attaching

variable {host : Host H} {ctx mid next : Ctx H} {id : Nat}

/-- The object on top has room above it, and none of these properties: it is extensible, and
inherits no setter and no read-only property under the names. -/
structure Attachable (host : Host H) (id : Nat) (keys : List Bytes) (ctx : Ctx H) : Prop where
  top : ctx.get 0 = .object id
  room : ctx.height + 3 ≤ ctx.reserve
  old : id < ctx.world.nextId
  extensible : (ctx.world.objects id).extensible = true
  fresh : ∀ key ∈ keys, (ctx.world.objects id).own key = none
  plain : ∀ key ∈ keys, ∀ w free v, host.writeThrough w free id key v = none

/-- The pushes of `js_add_module_attr` that `go_getAttrsList` asks for. -/
def CArg.isSent : CArg → Bool
  | .none | .bool _ | .int _ | .double _ | .lstring _ _ | .json _ _ => true
  | .zstring _ | .error _ _ | .buffer _ _ | .ecmafunc _ | .mobject _ _ => false

theorem isSent_of_sent {go : GoRuntime mem S σ} {val : GoFieldVal mem S} {arg : CArg}
    (sent : val.sent go = some arg) : arg.isSent = true := by
  unfold GoFieldVal.sent at sent
  cases val with
  | integer n =>
    simp only [ModuleAttr.setField, ModuleAttr.setInteger] at sent
    cases kind : n.kind <;> rw [kind] at sent <;> cases sent <;> rfl
  | slice v | map v =>
    simp only [ModuleAttr.setField, ModuleAttr.setJson] at sent
    cases marshalled : go.marshal v <;> rw [marshalled] at sent <;> cases sent <;> rfl
  | other => cases sent
  | _ =>
    cases sent
    rfl

/-- A push of one of these changes no object that was there. -/
theorem afterArg_spares {arg : CArg} (decodes : DecodesAfresh host) (sent : arg.isSent = true)
    (fits : ArgFits host ctx arg) : ctx.world.nextId ≤ (afterArg host ctx arg).world.nextId ∧
      ∀ i < ctx.world.nextId, (afterArg host ctx arg).world.objects i = ctx.world.objects i := by
  cases arg with
  | json l s =>
    obtain ⟨_, _, v, w, reserved, outcome⟩ := fits
    rw [afterArg, outcome]
    exact decodes _ _ _ _ _ _ outcome
  | none | bool d | int d | double d | lstring l s => exact ⟨Nat.le_refl _, fun _ _ => rfl⟩
  | _ => cases sent

/-- The state in which the value that was pushed has become a property. -/
def attached (host : Host H) (id : Nat) (key : Bytes) (arg : CArg) (ctx : Ctx H) : Ctx H where
  stack := ctx.stack
  reserve := (afterArg host ctx arg).reserve
  world := (afterArg host ctx arg).world.setOwn id key
    (some (.data ((afterArg host ctx arg).get 0) true true))

theorem attach_eq_ok {key : Bytes} {keys : List Bytes} {arg : CArg} (decodes : DecodesAfresh host)
    (sent : arg.isSent = true) (ready : Attachable host id keys ctx) (member : key ∈ keys) :
    attach host key arg ctx = .ok () next ↔
      ArgFits host ctx arg ∧ next = attached host id key arg ctx := by
  have pushes : ∀ {mid}, pushArg host arg ctx = .ok () mid ↔
      ArgFits host ctx arg ∧ mid = afterArg host ctx arg :=
    pushArg_eq_ok_of (by rintro i rfl; cases sent)
  -- decoding leaves the object alone, so that the property is still a new one
  have puts : ArgFits host ctx arg → (putPropString host 1 key (afterArg host ctx arg) = .ok () next ↔
      next = attached host id key arg ctx) := by
    intro fits
    obtain ⟨below, stack⟩ := stack_of_top ready.top
    obtain ⟨v, above⟩ := afterArg_stack fits
    have reserve := afterArg_reserve fits
    have same := (afterArg_spares decodes sent fits).2 id ready.old
    have room : (afterArg host ctx arg).height + 2 ≤ (afterArg host ctx arg).reserve := by
      have room := ready.room
      rw [Ctx.height, above, List.length_cons, ← Ctx.height]
      omega
    have value : (afterArg host ctx arg).get 0 = v := by rw [Ctx.get, above]; rfl
    have accepts : ((afterArg host ctx arg).world.objects id).accepts key = some true := by
      simp [ObjectRec.accepts, same, ready.fresh key member, ready.extensible]
    rw [stack] at above
    rw [putPropString_eq_ok above, writeProp_run (ready.plain key member _ _ _), accepts]
    constructor
    · rintro ⟨_, wrote, write, rfl⟩
      cases write
      rw [attached, value, stack]
    · rintro rfl
      refine ⟨room, _, rfl, ?_⟩
      rw [attached, value, stack]
  constructor
  · intro returned
    obtain ⟨_, mid, pushed, put⟩ := bind_eq_ok.mp returned
    obtain ⟨fits, rfl⟩ := pushes.mp pushed
    exact ⟨fits, (puts fits).mp put⟩
  · rintro ⟨fits, same⟩
    exact bind_eq_ok.mpr ⟨(), _, pushes.mpr ⟨fits, rfl⟩, (puts fits).mpr same⟩

theorem attached_touches (key : Bytes) {arg : CArg} (decodes : DecodesAfresh host)
    (sent : arg.isSent = true) (old : id < ctx.world.nextId) (fits : ArgFits host ctx arg) :
    Touches id [key] ctx.world (attached host id key arg ctx).world := by
  obtain ⟨grows, same⟩ := afterArg_spares decodes sent fits
  have pushed : Touches id [] ctx.world (afterArg host ctx arg).world := by
    refine ⟨grows, fun i before _ => same i before, fun other _ => ?_⟩
    rw [same id old]
  exact pushed.then_setOwn key _

/-- The properties that are still to come find the object as the first one did. -/
theorem attachable_attached {key : Bytes} {keys : List Bytes} {arg : CArg}
    (decodes : DecodesAfresh host) (sent : arg.isSent = true) (fits : ArgFits host ctx arg)
    (ready : Attachable host id (key :: keys) ctx) (distinct : key ∉ keys) :
    Attachable host id keys (attached host id key arg ctx) := by
  have touches := attached_touches key decodes sent ready.old fits
  have same := (afterArg_spares decodes sent fits).2 id ready.old
  constructor
  · exact ready.top
  · exact ready.room.trans (afterArg_reserve fits)
  · exact ready.old.trans_le touches.grows
  · simp [attached, World.setOwn, World.setObject, same, ready.extensible]
  · intro other member
    have apart : other ∉ [key] := by
      rw [List.mem_singleton]
      rintro rfl
      exact distinct member
    rw [touches.own other apart]
    exact ready.fresh other (List.mem_cons_of_mem _ member)
  · exact fun other member => ready.plain other (List.mem_cons_of_mem _ member)

/-! ### The rounds -/

/-- The names of the properties, in the order of the fields. -/
def attrKeys (fields : List (ModuleField mem S)) : List Bytes :=
  (fields.filter fun f => f.exported).map fun f => lowerFirst f.name

/-- Before the rounds of these fields. -/
def AttachableAll (host : Host H) (id : Nat) (fields : List (ModuleField host.mem S))
    (ctx : Ctx H) : Prop :=
  (attrKeys fields).Nodup ∧ Attachable host id (attrKeys fields) ctx

variable {go : GoRuntime host.mem S σ} {field : ModuleField host.mem S}
  {rest : List (ModuleField host.mem S)}

theorem attrKeys_cons (field : ModuleField mem S) (rest : List (ModuleField mem S)) :
    attrKeys (field :: rest) =
      if field.exported then lowerFirst field.name :: attrKeys rest else attrKeys rest := by
  unfold attrKeys
  rw [List.filter_cons]
  split <;> rfl

/-- A round attaches what it sends, and does nothing where it sends nothing. -/
theorem sendField_eq_ok (decodes : DecodesAfresh host)
    (ready : AttachableAll host id (field :: rest) ctx) :
    sendField host go field ctx = .ok () next ↔
      match field.exported, field.val.sent go with
      | true, some arg => ArgFits host ctx arg ∧
          next = attached host id (lowerFirst field.name) arg ctx
      | _, _ => next = ctx := by
  have nothing : (pure () : Duk H Unit) ctx = .ok () next ↔ next = ctx := by
    simp [eq_comm]
  rw [sendField]
  cases exported : field.exported with
  | false => exact nothing
  | true =>
    cases sent : field.val.sent go with
    | none => exact nothing
    | some arg =>
      have ready := ready.2
      rw [attrKeys_cons, if_pos exported] at ready
      exact attach_eq_ok decodes (isSent_of_sent sent) ready List.mem_cons_self

theorem Attachable.mono {keys fewer : List Bytes} (ready : Attachable host id keys ctx)
    (sub : ∀ key ∈ fewer, key ∈ keys) : Attachable host id fewer ctx :=
  ⟨ready.top, ready.room, ready.old, ready.extensible,
    fun key member => ready.fresh key (sub key member),
    fun key member => ready.plain key (sub key member)⟩

/-- A round leaves the object fit for the later ones, and touches no property but its own. -/
theorem sendField_keeps (decodes : DecodesAfresh host)
    (ready : AttachableAll host id (field :: rest) ctx)
    (ran : sendField host go field ctx = .ok () next) :
    AttachableAll host id rest next ∧ Touches id (attrKeys [field]) ctx.world next.world := by
  have effect := (sendField_eq_ok decodes ready).mp ran
  obtain ⟨distinct, ready⟩ := ready
  rw [attrKeys_cons] at distinct ready
  rw [attrKeys_cons]
  cases exported : field.exported with
  | false =>
    rw [exported] at effect distinct ready
    cases effect
    exact ⟨⟨distinct, ready⟩, touches_refl ..⟩
  | true =>
    rw [exported] at effect distinct ready
    obtain ⟨fresh, distinct⟩ := List.nodup_cons.mp distinct
    cases sent : field.val.sent go with
    | none =>
      rw [sent] at effect
      cases effect
      exact ⟨⟨distinct, ready.mono fun _ => List.mem_cons_of_mem _⟩, touches_refl ..⟩
    | some arg =>
      rw [sent] at effect
      obtain ⟨fits, rfl⟩ := effect
      have isSent := isSent_of_sent sent
      exact ⟨⟨distinct, attachable_attached decodes isSent fits ready fresh⟩,
        attached_touches _ decodes isSent ready.old fits⟩

theorem each_sendField_touches (decodes : DecodesAfresh host)
    {fields : List (ModuleField host.mem S)} (ready : AttachableAll host id fields ctx)
    (ran : each (sendField host go) fields ctx = .ok () next) :
    Touches id (attrKeys fields) ctx.world next.world := by
  induction fields generalizing ctx with
  | nil =>
    cases ran
    exact touches_refl ..
  | cons field rest ih =>
    obtain ⟨mid, first, others⟩ := each_cons_eq_ok.mp ran
    obtain ⟨ready, touches⟩ := sendField_keeps decodes ready first
    refine (touches.trans (ih ready others)).mono ?_
    simp only [attrKeys_cons]
    split <;> simp [attrKeys]

/-! ### The same value as an argument -/

/-- `parseArgs` and the loop of `push_args_and_call_func` on one argument, without the function. -/
def PushesArgument (go : GoRuntime host.mem S σ) (st : σ) (arg : GoVal host.mem S)
    (ctx after : Ctx H) : Prop :=
  pushArgs host ((parseArgs go [arg]).run st).1.2.2 ((parseArgs go [arg]).run st).1.2.1 0 0 ctx =
    .ok 1 after

/-- What C reads of the bytes of Go; a length goes through a C `int`. -/
def Host.received (host : Host H) (s : GoBytes host.mem) : Bytes :=
  host.bytesAt s.addr (sizeOfInt (cInt s.data.length))

def Interns (host : Host H) (s : GoBytes host.mem) : Prop :=
  (host.received s).length ≤ maxStringLen

/-- `json.Marshal` has a text for the value, and this state decodes it to `v`. -/
def DecodesTo (go : GoRuntime host.mem S σ) (ctx : Ctx H) (arg : GoVal host.mem S) (v : JsVal) :
    Prop :=
  ∃ text, go.marshal arg = some text ∧ Interns host text ∧ ∃ w reserved,
    host.jsonDecode ctx.world (ctx.pushed (.string (host.received text))).free
      (host.received text) = .returns v w reserved

/-- What `parseArg` sends for a value that it marshals. -/
def textArg (go : GoRuntime mem S σ) (arg : GoVal mem S) : CArg :=
  match go.marshal arg with
  | some text => .json (sizeOfInt (cInt text.data.length)) text.addr
  | none => .none

/-- What `parseArg` sends for any value. -/
def argSent (go : GoRuntime mem S σ) (st : σ) (arg : GoVal mem S) : CArg :=
  ((parseArg go arg ⟨.none, 0, 0, 0⟩).run st).1.payload

theorem argSent_asText (st : σ) {arg : GoVal mem S} {go : GoRuntime mem S σ}
    (text : arg.asText = true) : argSent go st arg = textArg go arg := by
  have json : ∀ out fmt (arg : GoVal mem S), fmt = .jobject ∨ fmt = .jarray →
      (ParsedArg.setJson go out fmt arg).payload = textArg go arg := by
    rintro out fmt arg (rfl | rfl) <;>
    · simp only [ParsedArg.setJson, textArg]
      cases go.marshal arg <;> rfl
  cases arg with
  | slice id => exact json _ _ _ (.inr rfl)
  | map id | other id => exact json _ _ _ (.inl rfl)
  | integer n =>
    change (parseInteger go n ⟨.none, 0, 0, 0⟩).payload = _
    unfold parseInteger
    cases defined : n.defined with
    | true => exact json _ _ _ (.inl rfl)
    | false =>
      -- of the predeclared types `uintptr` alone has no case
      have kind : n.kind = .uintptr := by simpa [GoVal.asText, defined] using text
      rw [if_neg (by simp), kind]
      exact json _ _ _ (.inl rfl)
  | _ => cases text

/-- Only an `*EcmaObject` is sent as a function. -/
theorem argSent_ecmafunc {st : σ} {arg : GoVal mem S} {go : GoRuntime mem S σ} {funcIndex : Word}
    (sent : argSent go st arg = .ecmafunc funcIndex) : ∃ ecmaObj, arg = .ecmaObject ecmaObj := by
  have format := parseArg_format go arg ⟨.none, 0, 0, 0⟩ st
  have kind : ((parseArg go arg ⟨.none, 0, 0, 0⟩).run st).1.argType = .ecmafunc := by
    revert sent
    rw [argSent]
    generalize ((parseArg go arg ⟨.none, 0, 0, 0⟩).run st).1 = out
    obtain ⟨argType, val, p, pLen⟩ := out
    cases argType <;> simp [ParsedArg.payload]
  rw [kind] at format
  cases arg <;> simp [GoVal.formats] at format ⊢

/-- An error is raised. Any other value is pushed, if it fits. -/
theorem pushesArgument_iff {st : σ} {arg : GoVal host.mem S} {after : Ctx H}
    (noFunction : ∀ ecmaObj, arg ≠ .ecmaObject ecmaObj) : PushesArgument go st arg ctx after ↔
      arg.isError = false ∧ ArgFits host ctx (argSent go st arg) ∧
        after = afterArg host ctx (argSent go st arg) := by
  have functions : ∀ i, argSent go st arg = .ecmafunc i → PlainHandles host := by
    intro i sent
    obtain ⟨ecmaObj, same⟩ := argSent_ecmafunc sent
    exact absurd same (noFunction ecmaObj)
  cases isError : arg.isError with
  | true =>
    cases arg with
    | error text => exact iff_of_false (fun pushed => by cases pushed) (by simp)
    | _ => cases isError
  | false =>
    rw [PushesArgument, pushArgs_parseArgs go [arg] (by simpa using isError)]
    have one : pushAll host (payloads go [arg] st) =
        (pushArg host (argSent go st arg) >>= fun _ => pure ()) := rfl
    rw [one]
    simp only [bind_assoc, pure_bind, true_and]
    rw [← pushArg_eq_ok_of (u := ()) functions]
    constructor
    · intro returned
      obtain ⟨_, _, pushed, same⟩ := bind_eq_ok.mp returned
      cases same
      exact pushed
    · exact fun pushed => bind_eq_ok.mpr ⟨(), _, pushed, rfl⟩

/-! ### One value by two switches -/

/-- Both are pushed, and the value is the same; if it is an object, so are all objects, that with
the number `id` apart. -/
structure PushAgrees (host : Host H) (id : Nat) (ctx : Ctx H) (sent arg : CArg) : Prop where
  fits : ArgFits host ctx sent
  argFits : ArgFits host ctx arg
  value : (afterArg host ctx sent).get 0 = (afterArg host ctx arg).get 0
  objects : ∀ j, (afterArg host ctx arg).get 0 = .object j →
    ∀ i ≠ id, (afterArg host ctx sent).world.objects i = (afterArg host ctx arg).world.objects i

/-- When the value of a field is pushed as the argument would be: what the Kinds that have a case
send without a text must be what the text of the value says, if the argument is sent as a text. -/
def ValueAgrees (go : GoRuntime host.mem S σ) (ctx : Ctx H) (arg : GoVal host.mem S) :
    GoFieldVal host.mem S → Prop
  | .bool b => arg.asText = true → DecodesTo go ctx arg (.boolean b)
  | .integer n => n.kind ≠ .uintptr ∧
      (arg.asText = true → DecodesTo go ctx arg (.number n.number))
  | .float d => arg.asText = true → DecodesTo go ctx arg (.number d)
  | .string s => Interns host s ∧
      (arg.asText = true → DecodesTo go ctx arg (.string (host.received s)))
  | .absent => arg.asText = true ∧ (go.marshal arg = none ∨ DecodesTo go ctx arg .null)
  -- not if the argument is a slice of bytes, which becomes a Buffer
  | .bytes b => Interns host b ∧ arg.asText = true ∧
      DecodesTo go ctx arg (.string (host.received b))
  | .slice _ | .map _ => ∃ v, DecodesTo go ctx arg v
  | .other => True

theorem pushAgrees_self {arg : CArg} : PushAgrees host id ctx arg arg ↔ ArgFits host ctx arg :=
  ⟨PushAgrees.fits, fun fits => ⟨fits, fits, rfl, fun _ _ _ _ => rfl⟩⟩

theorem argFits_json_iff {text : GoBytes host.mem} (room : ctx.height + 1 ≤ ctx.reserve) :
    ArgFits host ctx (.json (sizeOfInt (cInt text.data.length)) text.addr) ↔
      Interns host text ∧ ∃ v w reserved, host.jsonDecode ctx.world
        (ctx.pushed (.string (host.received text))).free (host.received text) =
          .returns v w reserved := by
  rw [ArgFits, and_iff_right room]
  rfl

theorem afterArg_json {text : GoBytes host.mem} {v : JsVal} {w : World H} {reserved : Nat}
    (outcome : host.jsonDecode ctx.world (ctx.pushed (.string (host.received text))).free
      (host.received text) = .returns v w reserved) :
    afterArg host ctx (.json (sizeOfInt (cInt text.data.length)) text.addr) =
      ⟨v :: ctx.stack, ctx.reserve + reserved, w⟩ := by
  unfold Host.received at outcome
  rw [afterArg, outcome]

/-- A value that is no object, against a text. -/
theorem pushAgrees_text {sent : CArg} {arg : GoVal host.mem S} (v : JsVal)
    (room : ctx.height + 1 ≤ ctx.reserve) (pushes : afterArg host ctx sent = ctx.pushed v)
    (noObject : ∀ j, v ≠ .object j) : PushAgrees host id ctx sent (textArg go arg) ↔
      ArgFits host ctx sent ∧
        ((go.marshal arg = none ∧ v = .null) ∨ DecodesTo go ctx arg v) := by
  unfold textArg DecodesTo
  cases marshalled : go.marshal arg with
  | none =>
    -- `parseArg` hands on NULL for what is not marshalled
    simp only [true_and, reduceCtorEq, false_and, exists_false, or_false]
    constructor
    · intro agrees
      have same := agrees.value
      rw [pushes] at same
      exact ⟨agrees.fits, same⟩
    · rintro ⟨fits, rfl⟩
      refine ⟨fits, room, ?_, ?_⟩
      · rw [pushes]
        rfl
      · intro j object
        cases object
  | some text =>
    simp only [reduceCtorEq, false_and, false_or, Option.some.injEq, exists_eq_left']
    constructor
    · intro agrees
      obtain ⟨interns, v', w, reserved, outcome⟩ := (argFits_json_iff room).mp agrees.argFits
      have same := agrees.value
      rw [pushes, afterArg_json outcome] at same
      have same : v = v' := same
      rw [← same] at outcome
      exact ⟨agrees.fits, interns, w, reserved, outcome⟩
    · rintro ⟨fits, interns, w, reserved, outcome⟩
      refine ⟨fits, (argFits_json_iff room).mpr ⟨interns, v, w, reserved, outcome⟩, ?_, ?_⟩
      · rw [pushes, afterArg_json outcome]
        rfl
      · intro j object
        rw [afterArg_json outcome] at object
        exact absurd object (noObject j)

/-! ### When the switches agree -/

/-- The empty text is no JSON. -/
def EmptyTextFails (host : Host H) : Prop :=
  ∀ w free v w' reserved, host.jsonDecode w free [] ≠ .returns v w' reserved

/-- A slice or a map that is not nil is marshalled by both; a failure leaves NULL in a field. -/
theorem pushAgrees_marshalled {sent : CArg} {arg : GoVal host.mem S}
    (emptyText : EmptyTextFails host) (room : ctx.height + 1 ≤ ctx.reserve)
    (is : sent = match go.marshal arg with
      | some text => .json (sizeOfInt (cInt text.data.length)) text.addr
      | none => .json 0 0) :
    PushAgrees host id ctx sent (textArg go arg) ↔ ∃ v, DecodesTo go ctx arg v := by
  subst is
  unfold textArg DecodesTo
  cases marshalled : go.marshal arg with
  | none =>
    simp only [reduceCtorEq, false_and, exists_false, iff_false]
    intro agrees
    obtain ⟨_, _, v, w, reserved, outcome⟩ := agrees.fits
    exact emptyText _ _ _ _ _ outcome
  | some text =>
    simp only [Option.some.injEq, exists_eq_left', pushAgrees_self, argFits_json_iff room]
    constructor
    · rintro ⟨interns, v, decoded⟩
      exact ⟨v, interns, decoded⟩
    · rintro ⟨v, interns, decoded⟩
      exact ⟨interns, v, decoded⟩

/-- A round sends something for the value, and the argument has the same value. -/
def SendsArgument (go : GoRuntime host.mem S σ) (st : σ) (id : Nat) (ctx : Ctx H)
    (val : GoFieldVal host.mem S) (arg : GoVal host.mem S) : Prop :=
  ∃ sent, val.sent go = some sent ∧ PushAgrees host id ctx sent (argSent go st arg)

theorem sendsArgument_of_sent {st : σ} {val : GoFieldVal host.mem S} {arg : GoVal host.mem S}
    (sent : CArg) (is : val.sent go = some sent) :
    SendsArgument go st id ctx val arg ↔ PushAgrees host id ctx sent (argSent go st arg) := by
  simp [SendsArgument, is]

/-- A value whose case needs no text, but whose argument may be one. -/
theorem sendsArgument_direct {st : σ} {val : GoFieldVal host.mem S} {arg : GoVal host.mem S}
    (sent : CArg) (v : JsVal) (is : val.sent go = some sent) (room : ctx.height + 1 ≤ ctx.reserve)
    (pushes : afterArg host ctx sent = ctx.pushed v) (noObject : ∀ j, v ≠ .object j)
    (notNull : v ≠ .null) (same : arg.asText = false → argSent go st arg = sent) :
    SendsArgument go st id ctx val arg ↔
      ArgFits host ctx sent ∧ (arg.asText = true → DecodesTo go ctx arg v) := by
  rw [sendsArgument_of_sent sent is]
  cases text : arg.asText with
  | true => simp [argSent_asText st text, pushAgrees_text v room pushes noObject, notNull]
  | false => simp [same text, pushAgrees_self]

theorem sent_integer (host : Host H) (go : GoRuntime host.mem S σ) (ctx : Ctx H) {n : GoInteger}
    (named : n.kind ≠ .uintptr) :
    ∃ sent, (GoFieldVal.integer n : GoFieldVal host.mem S).sent go = some sent ∧
      (ArgFits host ctx sent ↔ ctx.height + 1 ≤ ctx.reserve) ∧
      afterArg host ctx sent = ctx.pushed (.number n.number) ∧
      ∀ st : σ, n.defined = false → argSent go st (.integer n) = sent := by
  have parsed : ∀ st : σ, argSent go st (.integer n) = (parseInteger go n ⟨.none, 0, 0, 0⟩).payload :=
    fun _ => rfl
  simp only [GoFieldVal.sent, ModuleAttr.setField, ModuleAttr.setInteger, parsed, parseInteger,
    GoInteger.number, GoInteger.slot]
  cases kind : n.kind with
  | uintptr => exact absurd kind named
  | _ =>
    refine ⟨_, rfl, Iff.rfl, rfl, ?_⟩
    intro _ predeclared
    simp only [predeclared, Bool.false_eq_true, if_false]
    rfl

theorem TakenAs.marshalled {isArray : Bool} {val : GoFieldVal mem S} {v arg : GoVal mem S}
    (taken : TakenAs isArray val arg) (held : val = .slice v ∨ val = .map v)
    (noError : arg.isError = false) : v = arg ∧ arg.asText = true := by
  cases taken with
  | slice id | map id =>
    rcases held with same | same <;> cases same
    exact ⟨rfl, rfl⟩
  | error => cases noError
  | other id holds =>
    rcases held with rfl | rfl <;> exact ⟨holds, rfl⟩
  | _ => rcases held with same | same <;> cases same

theorem sendsArgument_iff {st : σ} {isArray : Bool} {val : GoFieldVal host.mem S}
    {arg : GoVal host.mem S} (emptyText : EmptyTextFails host)
    (room : ctx.height + 1 ≤ ctx.reserve) (taken : TakenAs isArray val arg)
    (noError : arg.isError = false) (attributable : val.attributable = true) :
    SendsArgument go st id ctx val arg ↔ ValueAgrees go ctx arg val := by
  cases val with
  | other => cases attributable
  | bool b =>
    have value : (intOfPtr (if b then 1 else 0) != 0) = b := by cases b <;> rfl
    have pushes : afterArg host ctx (.bool (intOfPtr (if b then 1 else 0))) =
        ctx.pushed (.boolean b) := by rw [afterArg, value]
    rw [sendsArgument_direct (.bool (intOfPtr (if b then 1 else 0))) (.boolean b) rfl room
      pushes (by simp) (by simp), ArgFits, and_iff_right room]
    · rfl
    · intro direct
      cases taken with
      | bool => rfl
      | error => cases noError
      | other => cases direct
  | integer n =>
    by_cases named : n.kind = .uintptr
    · -- no case of the switch takes it
      have unsent : (GoFieldVal.integer n : GoFieldVal host.mem S).sent go = none := by
        simp only [GoFieldVal.sent, ModuleAttr.setField, ModuleAttr.setInteger, named]
        rfl
      simp [SendsArgument, unsent, ValueAgrees, named]
    · obtain ⟨sent, is, fits, pushes, same⟩ := sent_integer host go ctx named
      rw [sendsArgument_direct sent _ is room pushes (by simp) (by simp), fits, and_iff_right room]
      · exact (and_iff_right named).symm
      · intro direct
        cases taken with
        | integer =>
          refine same st ?_
          simpa [GoVal.asText, named] using direct
        | error => cases noError
        | other _ _ noInteger => exact absurd rfl (noInteger n)
  | float d =>
    have value : voidp2double (double2voidp d) = d := Float.ofBits_toBits d
    have pushes : afterArg host ctx (.double (voidp2double (double2voidp d))) =
        ctx.pushed (.number d) := by rw [afterArg, value]
    rw [sendsArgument_direct (.double (voidp2double (double2voidp d))) (.number d) rfl room
      pushes (by simp) (by simp), ArgFits, and_iff_right room]
    · rfl
    · intro direct
      cases taken with
      | float32 | float64 => rfl
      | error => cases noError
      | other => cases direct
  | string s =>
    rw [sendsArgument_direct (.lstring (sizeOfInt (cInt s.data.length)) s.addr)
      (.string (host.received s)) rfl room rfl (by simp) (by simp), ArgFits, and_iff_right room]
    · rfl
    · intro direct
      cases taken with
      | string => rfl
      | error => cases noError
      | other => cases direct
  | absent =>
    rw [sendsArgument_of_sent .none rfl, ValueAgrees]
    cases text : arg.asText with
    | true =>
      rw [argSent_asText st text, pushAgrees_text .null room rfl (by simp), ArgFits,
        and_iff_right room]
      simp
    | false =>
      cases taken with
      | nilBytes b empty =>
        refine iff_of_false ?_ (by simp)
        intro agrees
        cases agrees.value
      | error => cases noError
      | nilSlice | nilMap | other => cases text
  | bytes b =>
    rw [sendsArgument_of_sent (.lstring (sizeOfInt (cInt b.data.length)) b.addr) rfl,
      ValueAgrees]
    cases text : arg.asText with
    | true =>
      rw [argSent_asText st text, pushAgrees_text (.string (host.received b)) room rfl (by simp),
        ArgFits, and_iff_right room]
      simp [Interns, Host.received]
    | false =>
      cases taken with
      | bytes =>
        -- the one is a string, the other an object
        refine iff_of_false ?_ (by simp)
        intro agrees
        cases agrees.value
      | error => cases noError
      | other => cases text
  | slice v | map v =>
    have text : v = arg ∧ arg.asText = true := taken.marshalled (by simp) noError
    obtain ⟨rfl, text⟩ := text
    rw [ValueAgrees, SendsArgument, argSent_asText st text]
    simp only [GoFieldVal.sent, ModuleAttr.setField, ModuleAttr.setJson, Option.map_some,
      Option.some.injEq, exists_eq_left']
    apply pushAgrees_marshalled emptyText room
    cases go.marshal v <;> rfl

/-! ### A round -/

/-- What is asked of the round of a field, from `ctx` to `next`. The object gets a property that it
did not have, and no other; its value is the one pushed for the argument in the same state, where
an object comes with all it refers to. For a field that is not exported it gets none. -/
structure RoundAgrees (go : GoRuntime host.mem S σ) (st : σ) (id : Nat)
    (field : ModuleField host.mem S) (ctx next : Ctx H) : Prop where
  stack : next.stack = ctx.stack
  property : field.isExported = true → field.val.attributable = true →
    (ctx.world.objects id).own field.lowered = none ∧ ∃ pushed,
      PushesArgument go st field.arg ctx pushed ∧
      Has (next.world.objects id) field.lowered (pushed.get 0) ∧
      (∀ j, pushed.get 0 = .object j → ∀ i ≠ id,
        next.world.objects i = pushed.world.objects i) ∧
      ∀ key ≠ field.lowered, (next.world.objects id).own key = (ctx.world.objects id).own key
  unexported : field.isExported = false →
    ∀ key, (next.world.objects id).own key = (ctx.world.objects id).own key

/-- The condition on a field and the state before its round. -/
structure ModuleField.Meets (field : ModuleField host.mem S) (go : GoRuntime host.mem S σ)
    (bytesOfArray : Bool) (ctx : Ctx H) : Prop where
  readable : field.exported = true → field.reflectPanic bytesOfArray = none
  /-- `C.tolower` lower-cases the letter, the type is no error, and the switches agree. -/
  agrees : field.isExported = true → field.val.attributable = true →
    field.lowered = lowerFirst field.name ∧ field.arg.isError = false ∧
      ValueAgrees go ctx field.arg field.val
  /-- The first letter is one of ASCII, or the switch has no case. -/
  hidden : field.isExported = false → field.exported = true → field.val.listed = false

theorem sent_isSome (go : GoRuntime mem S σ) (val : GoFieldVal mem S) :
    (val.sent go).isSome = val.listed := by
  rw [GoFieldVal.sent, Option.isSome_map, setField_isSome]

theorem listed_attributable {val : GoFieldVal mem S} (listed : val.listed = true) :
    val.attributable = true := by
  cases val <;> first | rfl | cases listed

theorem TakenAs.noFunction {isArray : Bool} {val : GoFieldVal mem S} {arg : GoVal mem S}
    (taken : TakenAs isArray val arg) (attributable : val.attributable = true) (ecmaObj : Word) :
    arg ≠ .ecmaObject ecmaObj := by
  cases taken with
  | unlisted => cases attributable
  | _ => simp

theorem own_attached {key : Bytes} {arg : CArg} :
    ((attached host id key arg ctx).world.objects id).own key =
      some (.data ((afterArg host ctx arg).get 0) true true) := by
  simp [attached, World.setOwn, World.setObject]

theorem objects_attached {key : Bytes} {arg : CArg} {i : Nat} (other : i ≠ id) :
    (attached host id key arg ctx).world.objects i = (afterArg host ctx arg).world.objects i := by
  simp [attached, World.setOwn, World.setObject, other]

theorem has_unique {o : ObjectRec} {key : Bytes} {v v' : JsVal} {writable configurable : Bool}
    (own : o.own key = some (.data v writable configurable)) (has : Has o key v') : v = v' := by
  obtain ⟨_, _, own'⟩ := has
  rw [own] at own'
  cases own'
  rfl

/-- What the round of an exported field must have sent. -/
theorem sendsArgument_of_property {st : σ} (ready : AttachableAll host id (field :: rest) ctx)
    (decodes : DecodesAfresh host) (isExported : field.isExported = true)
    (attributable : field.val.attributable = true)
    (ran : sendField host go field ctx = .ok () next)
    (agrees : RoundAgrees go st id field ctx next) :
    field.lowered = lowerFirst field.name ∧ field.arg.isError = false ∧
      SendsArgument go st id ctx field.val field.arg := by
  have exported := field.exported_of_isExported isExported
  have effect := (sendField_eq_ok decodes ready).mp ran
  obtain ⟨new, pushed, pushes, has, objects, others⟩ := agrees.property isExported attributable
  rw [exported] at effect
  cases sent : field.val.sent go with
  | none =>
    rw [sent] at effect
    cases effect
    obtain ⟨_, _, own⟩ := has
    rw [new] at own
    cases own
  | some arg =>
    rw [sent] at effect
    obtain ⟨fits, rfl⟩ := effect
    have fresh : (ctx.world.objects id).own (lowerFirst field.name) = none := by
      apply ready.2.fresh
      rw [attrKeys_cons, if_pos exported]
      exact List.mem_cons_self
    -- the property that is new is the one that was written
    have lowered : field.lowered = lowerFirst field.name := by
      by_contra apart
      have own := others _ (Ne.symm apart)
      rw [own_attached, fresh] at own
      cases own
    obtain ⟨noError, argFits, rfl⟩ :=
      (pushesArgument_iff (field.takenAs.noFunction attributable)).mp pushes
    refine ⟨lowered, noError, arg, sent, fits, argFits, ?_, ?_⟩
    · rw [lowered] at has
      exact has_unique own_attached has
    · intro j object i other
      rw [← objects j object i other, objects_attached other]

/-- A round is as it should be exactly if its condition holds in the state before it. -/
theorem round_agrees_iff (decodes : DecodesAfresh host) (emptyText : EmptyTextFails host)
    (bytesOfArray : Bool) (st : σ) (ready : AttachableAll host id (field :: rest) ctx) :
    (∃ next, sendField host go field ctx = .ok () next ∧
      (field.exported = true → field.reflectPanic bytesOfArray = none) ∧
        RoundAgrees go st id field ctx next) ↔ field.Meets go bytesOfArray ctx := by
  have room : ctx.height + 1 ≤ ctx.reserve := by
    have room := ready.2.room
    omega
  have runs : ∀ {next}, sendField host go field ctx = .ok () next ↔ _ := sendField_eq_ok decodes ready
  have listed := sent_isSome go field.val
  constructor
  · rintro ⟨next, ran, readable, agrees⟩
    refine ⟨readable, ?_, ?_⟩
    · intro isExported attributable
      obtain ⟨lowered, noError, sends⟩ :=
        sendsArgument_of_property ready decodes isExported attributable ran agrees
      exact ⟨lowered, noError,
        (sendsArgument_iff emptyText room field.takenAs noError attributable).mp sends⟩
    -- a field that only the test takes for exported must not have become a property
    · intro notExported exported
      have effect := runs.mp ran
      rw [exported] at effect
      cases sent : field.val.sent go with
      | none =>
        rw [← listed, sent]
        rfl
      | some arg =>
        rw [sent] at effect
        obtain ⟨fits, rfl⟩ := effect
        have same := agrees.unexported notExported (lowerFirst field.name)
        rw [own_attached, ready.2.fresh] at same
        · cases same
        · rw [attrKeys_cons, if_pos exported]
          exact List.mem_cons_self
  · intro meets
    have sends : field.isExported = true → field.val.attributable = true →
        field.lowered = lowerFirst field.name ∧ field.arg.isError = false ∧
          SendsArgument go st id ctx field.val field.arg := by
      intro isExported attributable
      obtain ⟨lowered, noError, value⟩ := meets.agrees isExported attributable
      exact ⟨lowered, noError,
        (sendsArgument_iff emptyText room field.takenAs noError attributable).mpr value⟩
    by_cases silent : field.exported = true → field.val.sent go = none
    · -- then it is no field that has to be attached
      refine ⟨ctx, runs.mpr ?_, meets.readable, rfl, ?_, fun _ _ => rfl⟩
      · cases exported : field.exported with
        | false => rfl
        | true => rw [silent exported]
      · intro isExported attributable
        obtain ⟨_, _, _, sent, _⟩ := sends isExported attributable
        rw [silent (field.exported_of_isExported isExported)] at sent
        cases sent
    -- else the round attaches what the argument would be
    · rw [Classical.not_imp, ← ne_eq, Option.ne_none_iff_exists'] at silent
      obtain ⟨exported, arg, sent⟩ := silent
      rw [sent] at listed
      have attributable := listed_attributable listed.symm
      have isExported : field.isExported = true := by
        by_contra hidden
        have unlisted := meets.hidden (by simpa using hidden) exported
        rw [unlisted] at listed
        cases listed
      obtain ⟨lowered, noError, sent', is, agrees⟩ := sends isExported attributable
      rw [sent] at is
      cases is
      refine ⟨attached host id (lowerFirst field.name) arg ctx, runs.mpr ?_, meets.readable, rfl,
        ?_, ?_⟩
      · rw [exported, sent]
        exact ⟨agrees.fits, rfl⟩
      · intro _ _
        rw [lowered]
        refine ⟨?_, _, (pushesArgument_iff (field.takenAs.noFunction attributable)).mpr
          ⟨noError, agrees.argFits, rfl⟩, ?_, ?_, ?_⟩
        · apply ready.2.fresh
          rw [attrKeys_cons, if_pos exported]
          exact List.mem_cons_self
        · exact ⟨true, true, agrees.value ▸ own_attached⟩
        · intro j object i other
          rw [objects_attached other, agrees.objects j object i other]
        · intro key apart
          have touches := attached_touches (lowerFirst field.name) decodes
            (isSent_of_sent sent) ready.2.old agrees.fits
          exact touches.own key (by simpa using apart)
      · intro hidden
        rw [isExported] at hidden
        cases hidden

/-! ### The callback -/

/-- The names of a struct's fields are different; any number of them may be blank. -/
def DistinctNames (fields : List (ModuleField mem S)) : Prop :=
  ((fields.map fun f => f.name).filter (· ≠ ascii "_")).Nodup

/-- Lower-casing the first letter keeps the names of those fields apart that pass the test. -/
theorem attrKeys_nodup {fields : List (ModuleField mem S)} (distinct : DistinctNames fields) :
    (attrKeys fields).Nodup := by
  let passed := fields.filter fun f => f.exported
  -- what passes the test does not begin with a small letter and is not blank
  have upper : ∀ name ∈ passed.map fun f => f.name, ∃ c rest, name = c :: rest ∧
      ¬(97 ≤ c ∧ c ≤ 122) ∧ name ≠ ascii "_" := by
    intro name member
    obtain ⟨f, passes, rfl⟩ := List.mem_map.mp member
    have passes := (List.mem_filter.mp passes).2
    cases is : f.name with
    | nil => exact absurd is f.named
    | cons c rest =>
      simp only [GoField.exported, is, Bool.not_eq_true', Bool.or_eq_false_iff] at passes
      refine ⟨c, rest, rfl, by simpa using passes.2, ?_⟩
      intro blank
      cases blank
      exact absurd passes.1 (by decide)
  have names : (passed.map fun f => f.name).Nodup := by
    have kept : (passed.map fun f => f.name) =
        (passed.map fun f => f.name).filter (· ≠ ascii "_") := by
      symm
      rw [List.filter_eq_self]
      intro name member
      obtain ⟨_, _, _, _, notBlank⟩ := upper name member
      simpa using notBlank
    rw [kept]
    exact distinct.sublist ((List.filter_sublist.map _).filter _)
  have keys : attrKeys fields = (passed.map fun f => f.name).map lowerFirst := by
    rw [List.map_map]
    rfl
  rw [keys]
  apply List.Nodup.map_on _ names
  intro name member name' member' same
  obtain ⟨c, rest, rfl, high, _⟩ := upper name member
  obtain ⟨d, rest', rfl, high', _⟩ := upper name' member'
  exact lowerFirst_injective high high' same

theorem rounds_panic_iff {fields : List (ModuleField host.mem S)} (go : GoRuntime host.mem S σ)
    (bytesOfArray : Bool) (attr : ModuleAttr) :
    (attrRounds go bytesOfArray (fields.map fun f => f.toStructField) attr).panic = none ↔
      ∀ field ∈ fields, field.exported = true → field.reflectPanic bytesOfArray = none := by
  rw [attrRounds_panic_iff]
  exact List.forall_mem_map

variable [DecidableEq L] [DecidableEq S] [GoReflect host.mem S] {c : GoCallbacks host S σ}
  {pool : V2KPool (PoolVal L S) Nat} {udd hMod : Word} {info : GoModuleInfo S}
  {fields : List (ModuleField host.mem S)} {last : Ctx H}

/-- The callback comes back when no field panics and the rounds do. -/
theorem goGetAttrs_eq_ok
    (loaded : StructModule host.mem pool hMod info (fields.map fun f => f.toStructField))
    (memory : host.mallocs modAttrSize = true) (registered : (pool.loaderAt udd.toInt64).isSome) :
    goGetAttrs host c.go c.bytesOfArray c.garbage pool udd hMod ctx = .ok [] last ↔
      (∀ field ∈ fields, field.exported = true → field.reflectPanic c.bytesOfArray = none) ∧
        each (sendField host c.go) fields ctx = .ok () last := by
  have calls : (attrRounds c.go c.bytesOfArray (fields.map fun f => f.toStructField)
      c.garbage).panic = none → addAttrs host (attrRounds c.go c.bytesOfArray
        (fields.map fun f => f.toStructField) c.garbage).calls = each (sendField host c.go) fields := by
    intro quiet
    rw [← goGetAttrsList_eq host c.go c.bytesOfArray quiet, List.map_map]
    exact goGetAttrsList_eq_each host c.go fields c.garbage
  rw [← rounds_panic_iff c.go c.bytesOfArray c.garbage]
  constructor
  · intro returned
    obtain ⟨_, quiet, added⟩ := goGetAttrs_ok loaded memory returned
    rw [calls quiet] at added
    exact ⟨quiet, added⟩
  · rintro ⟨quiet, ran⟩
    rw [← calls quiet] at ran
    obtain ⟨le, asked⟩ := lookUp_getModuleLoader_isSome registered
    rw [goGetAttrs, memory, if_pos rfl, goGetAttrsRounds_eq loaded, asked]
    simp only [quiet]
    exact bind_ok ran _

/-- What the round of a field has done is still there in the end. -/
structure Remains (id : Nat) (field : ModuleField host.mem S) (next last : Ctx H) : Prop where
  property : field.isExported = true → field.val.attributable = true →
    (last.world.objects id).own field.lowered = (next.world.objects id).own field.lowered
  objects : ∀ i ≠ id, i < next.world.nextId → last.world.objects i = next.world.objects i

/-- `go_getAttrsList` neither panics nor raises an error; each round attaches what the field is as
an argument, or nothing for a field that is not exported, and so it stays. -/
def AttachesAsArguments (c : GoCallbacks host S σ) (st : σ) (pool : V2KPool (PoolVal L S) Nat)
    (udd hMod : Word) (fields : List (ModuleField host.mem S)) (id : Nat) (ctx : Ctx H) : Prop :=
  ∃ last, goGetAttrs host c.go c.bytesOfArray c.garbage pool udd hMod ctx = .ok [] last ∧
    ∀ before field after, fields = before ++ field :: after → ∃ mid next,
      goGetAttrsList host c.go (before.map fun f => f.toGoField) c.garbage ctx = .ok () mid ∧
      goGetAttrsList host c.go ((before ++ [field]).map fun f => f.toGoField) c.garbage ctx =
        .ok () next ∧
      RoundAgrees c.go st id field mid next ∧ Remains id field next last

omit [GoReflect host.mem S] [DecidableEq S] in
/-- The later rounds write other properties of the object and make new objects. -/
theorem remains_of_rounds {before after : List (ModuleField host.mem S)}
    (decodes : DecodesAfresh host) (ready : AttachableAll host id (before ++ field :: after) ctx)
    (ran : each (sendField host go) (before ++ field :: after) ctx = .ok () last)
    (ended : each (sendField host go) (before ++ [field]) ctx = .ok () next)
    (lowered : field.isExported = true → field.val.attributable = true →
      field.lowered = lowerFirst field.name) : Remains id field next last := by
  obtain ⟨mid, first, later⟩ := each_append_eq_ok.mp ran
  obtain ⟨mid', first', one⟩ := each_append_eq_ok.mp ended
  rw [first] at first'
  cases first'
  obtain ⟨_, one, same⟩ := each_cons_eq_ok.mp one
  cases same
  obtain ⟨next', one', later⟩ := each_cons_eq_ok.mp later
  rw [one] at one'
  cases one'
  have here := each_inv (fun _ _ _ _ ready ran => (sendField_keeps decodes ready ran).1) ready first
  have ready := (sendField_keeps decodes here one).1
  have touches := each_sendField_touches decodes ready later
  constructor
  · intro isExported attributable
    rw [lowered isExported attributable]
    apply touches.own
    have distinct := here.1
    rw [attrKeys_cons, if_pos (field.exported_of_isExported isExported)] at distinct
    exact (List.nodup_cons.mp distinct).1
  · exact fun i other old => touches.others i old other

/-- `go_getAttrsList` attaches to an object without these properties what `parseArg` and
`push_args_and_call_func` would make of the fields, if and only if each field meets the condition in
the state that the rounds before it leave. -/
theorem attrs_as_arguments_iff (decodes : DecodesAfresh host) (emptyText : EmptyTextFails host)
    (st : σ) (loaded : StructModule host.mem pool hMod info (fields.map fun f => f.toStructField))
    (memory : host.mallocs modAttrSize = true) (registered : (pool.loaderAt udd.toInt64).isSome)
    (distinct : DistinctNames fields) (ready : Attachable host id (attrKeys fields) ctx) :
    AttachesAsArguments c st pool udd hMod fields id ctx ↔
      ∀ before field after, fields = before ++ field :: after → ∀ mid,
        goGetAttrsList host c.go (before.map fun f => f.toGoField) c.garbage ctx = .ok () mid →
        field.Meets c.go c.bytesOfArray mid := by
  have ready : AttachableAll host id fields ctx := ⟨attrKeys_nodup distinct, ready⟩
  have round : ∀ field rest mid, AttachableAll host id (field :: rest) mid → (_ ↔
      field.Meets c.go c.bytesOfArray mid) :=
    fun _ _ _ ready => round_agrees_iff decodes emptyText c.bytesOfArray st ready
  -- the rounds before one leave a state in which it can be attached
  have rounds := each_rounds_iff round
    (fun _ _ _ _ ready ran => (sendField_keeps decodes ready ran).1) ready
  simp only [AttachesAsArguments, goGetAttrsList_eq_each, goGetAttrs_eq_ok loaded memory registered]
  rw [← rounds]
  constructor
  · rintro ⟨last, ⟨quiet, ran⟩, all⟩
    refine ⟨⟨last, ran⟩, ?_⟩
    intro before field after same
    obtain ⟨mid, next, first, ended, agrees, _⟩ := all before field after same
    exact ⟨mid, next, first, ended, quiet field (by simp [same]), agrees⟩
  · intro both
    obtain ⟨⟨last, ran⟩, all⟩ := both
    have meets := rounds.mp ⟨⟨last, ran⟩, all⟩
    refine ⟨last, ⟨?_, ran⟩, ?_⟩
    · intro field member
      obtain ⟨before, after, same⟩ := List.append_of_mem member
      obtain ⟨_, _, _, _, readable, _⟩ := all before field after same
      exact readable
    · intro before field after same
      obtain ⟨mid, next, first, ended, _, agrees⟩ := all before field after same
      refine ⟨mid, next, first, ended, agrees, ?_⟩
      subst same
      apply remains_of_rounds decodes ready ran ended
      intro isExported attributable
      exact ((meets before field after rfl mid first).agrees isExported attributable).1

end Attaching

/-! ### Structs behind pointers -/

/-- A field whose name begins with an ASCII letter. -/
def asciiField {mem : Memory} {S : Type} (name : Bytes) (named : name ≠ [])
    {val : GoFieldVal mem S} {arg : GoVal mem S} (takenAs : TakenAs false val arg) :
    ModuleField mem S where
  name
  val
  isExported := name.head?.any fun c => 65 ≤ c && c ≤ 90
  isArray := false
  ascii_iff c first _ := by
    rw [Option.mem_def.mp first]
    simp
  arg
  lowered := lowerFirst name
  named
  takenAs
  lowered_ascii _ _ _ := rfl

/-- Pointers to structs: one with fields `On bool`, `Name string` and `cache []int`, one with a field
`Data []byte` that is empty, and one with a field `Data []interface{}` that holds a channel. -/
inductive SampleStruct where
  | settings
  | blob
  | channel
deriving DecidableEq

namespace SampleStruct

theorem address_ne_zero : (8 : Word) ≠ 0 := by
  decide

/-- The string of one NUL. -/
def nulString : GoBytes instanceHost.mem :=
  ⟨8, [0], rfl, Nat.one_lt_two_pow (Nat.succ_ne_zero 62), fun _ => address_ne_zero⟩

def emptySlice : GoBytes instanceHost.mem :=
  ⟨1, [], rfl, Nat.two_pow_pos 63, fun some => absurd rfl some⟩

def fields : SampleStruct → List (ModuleField instanceHost.mem SampleStruct)
  | settings =>
    [asciiField (ascii "On") (by decide) (.bool true),
      asciiField (ascii "Name") (by decide) (.string nulString),
      asciiField (ascii "cache") (by decide) (.slice 0 rfl)]
  | blob => [asciiField (ascii "Data") (by decide) (.bytes emptySlice rfl)]
  | channel => [asciiField (ascii "Data") (by decide) (.slice 0 rfl)]

instance : NamedMethods SampleStruct where
  numMethod _ := 0
  methodName _ _ := []
  exported _ _ within := absurd within (Nat.not_lt_zero _)
  distinct _ _ _ within := absurd within (Nat.not_lt_zero _)

instance (mem : Memory) : GoMethods mem SampleStruct where
  method _ _ := ⟨[], false, fun _ => [], fun _ _ => false, fun _ => none⟩

instance : GoReflect instanceHost.mem SampleStruct where
  valueOf s := .ptr (.struct (s.fields.map fun f => f.toStructField))

/-- The loader has the key 1, the module 2. -/
def pool (s : SampleStruct) : V2KPool (PoolVal Unit SampleStruct) Nat :=
  ((methodKeyGenerator countingClock).drawn countingClock (.moduleLoaderEnv ⟨(), 64⟩)).drawn
    countingClock (.goModuleInfo ⟨s, s, 0, []⟩)

theorem finalizer_ne_zero : (4 : Word) ≠ 0 := by
  decide

def callbacks : GoCallbacks instanceHost SampleStruct Unit where
  go := ⟨fun _ => none, fun _ st => (0, st), 0⟩
  bytesOfArray := true
  garbage := ⟨[], .none, 0, 0⟩
  modBridge := 7
  finalizeModule := 4
  finalizes := finalizer_ne_zero

/-- The module's object, without properties. -/
def entry : Ctx Unit := { freshEnvironment with stack := [.object 1] }

theorem structModule (s : SampleStruct) : StructModule instanceHost.mem s.pool 2 ⟨s, s, 0, []⟩
    (s.fields.map fun f => f.toStructField) := by
  cases s <;> exact ⟨rfl, rfl, rfl⟩

theorem attachable_entry (keys : List Bytes) : Attachable instanceHost 1 keys entry where
  top := rfl
  room := by decide
  old := by decide
  extensible := rfl
  fresh _ _ := rfl
  plain _ _ _ _ _ := rfl

end SampleStruct

theorem instanceHost_decodes : DecodesAfresh instanceHost := by
  intro w free text v w' reserved decoded
  have same : w' = w := by
    revert decoded
    change (if text = [] then Outcome.throws _ w 0 else .returns JsVal.null w 0) = _ → _
    split
    · intro impossible
      cases impossible
    · intro returned
      cases returned
      rfl
  subst same
  exact ⟨Nat.le_refl _, fun _ _ => rfl⟩

/-- An empty slice of bytes is attached as a string where the argument is a Buffer. A slice that
JSON cannot encode is null as an argument; as a field it ends the callback with an error. -/
theorem fields_differ_from_arguments :
    (∃ last after,
      goGetAttrs instanceHost SampleStruct.callbacks.go SampleStruct.callbacks.bytesOfArray
        SampleStruct.callbacks.garbage SampleStruct.blob.pool 1 2 SampleStruct.entry = .ok [] last ∧
      (last.world.objects 1).own (ascii "data") = some (.data (.string []) true true) ∧
      PushesArgument SampleStruct.callbacks.go () (.bytes SampleStruct.emptySlice)
        SampleStruct.entry after ∧
      after.get 0 = .object 3 ∧
      ¬ AttachesAsArguments SampleStruct.callbacks () SampleStruct.blob.pool 1 2 SampleStruct.blob.fields 1
        SampleStruct.entry) ∧
    ∃ e last after,
      goGetAttrs instanceHost SampleStruct.callbacks.go SampleStruct.callbacks.bytesOfArray
        SampleStruct.callbacks.garbage SampleStruct.channel.pool 1 2 SampleStruct.entry =
          .error (.thrown e) last ∧
      PushesArgument SampleStruct.callbacks.go () (.slice 0) SampleStruct.entry after ∧
      after.get 0 = .null ∧
      ¬ AttachesAsArguments SampleStruct.callbacks () SampleStruct.channel.pool 1 2
        SampleStruct.channel.fields 1 SampleStruct.entry := by
  refine ⟨⟨_, _, rfl, rfl, rfl, rfl, ?_⟩, _, _, _, rfl, rfl, rfl, ?_⟩
  · rintro ⟨last, returned, rounds⟩
    obtain ⟨mid, next, first, ended, agrees, _⟩ := rounds [] _ [] rfl
    cases first
    cases ended
    obtain ⟨_, pushed, pushes, has, _⟩ := agrees.property rfl rfl
    cases pushes
    -- the one is a string, the other an object
    obtain ⟨_, _, own⟩ := has
    cases own
  · rintro ⟨last, returned, _⟩
    cases returned

theorem attrs_as_arguments_iff_settings : AttachesAsArguments SampleStruct.callbacks ()
    SampleStruct.settings.pool 1 2 SampleStruct.settings.fields 1 SampleStruct.entry := by
  have emptyText : EmptyTextFails instanceHost := instanceHost_emptyText
  have distinct : DistinctNames SampleStruct.settings.fields := by
    change ([ascii "On", ascii "Name", ascii "cache"].filter (· ≠ ascii "_")).Nodup
    decide
  apply (attrs_as_arguments_iff instanceHost_decodes emptyText () (SampleStruct.structModule .settings)
    rfl rfl distinct (SampleStruct.attachable_entry _)).mpr
  intro before field after same mid _
  have member : field ∈ SampleStruct.settings.fields := by
    rw [same]
    exact List.mem_append_right _ List.mem_cons_self
  simp only [SampleStruct.fields, List.mem_cons, List.not_mem_nil, or_false] at member
  rcases member with rfl | rfl | rfl
  -- `On`
  · refine ⟨fun _ => rfl, fun _ _ => ⟨rfl, rfl, fun text => ?_⟩, fun hidden => ?_⟩
    · cases text
    · cases hidden
  -- `Name`, which is short enough to be interned
  · refine ⟨fun _ => rfl, fun _ _ => ⟨rfl, rfl, ?_, fun text => ?_⟩, fun hidden => ?_⟩
    · rw [Interns]
      decide +kernel
    · cases text
    · cases hidden
  -- `cache` is not exported, and its name does not pass the test either
  · refine ⟨fun passes => ?_, fun isExported => ?_, fun _ passes => ?_⟩
    · cases passes
    · cases isExported
    · cases passes

end DukBridge
