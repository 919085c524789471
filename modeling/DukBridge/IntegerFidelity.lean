import DukBridge.ArgumentLayout
import DukBridge.CallGoFunc
import DukBridge.GoAttrs
import DukBridge.Lib.ExactIntegers
import DukBridge.NativeBridge
import DukBridge.PushRules

/-!
# Integers on their way to a script

Arguments, variables, results and fields are encoded by three functions that agree on
the encoding of each integer type: a C `int` in a slot, or a double.
-/
namespace DukBridge

open Effect

/-! ### The number behind an integer -/

/-- The types that are sent as a double. -/
def IntKind.asDouble : IntKind → Bool
  | .int64 | .uint | .uint32 | .uint64 => true
  | .int | .int8 | .int16 | .int32 | .uint8 | .uint16 | .uintptr => false

namespace GoInteger

variable (n : GoInteger)

/-- The slot of a type that is not sent as a double. -/
def slot : Word := if n.kind.signed then n.toInt64.toUInt64 else n.toUInt64

/-- What a script gets for it. -/
def number : Float :=
  if n.kind.asDouble then voidp2double (double2voidp n.toFloat64)
  else Binary64.ofInt (intOfPtr n.slot).toInt

theorem slot_eq : n.slot = n.toInt64.toUInt64 := by
  rw [slot]
  split
  · rfl
  · rename_i unsigned
    have positive : 0 ≤ n.val := by
      have range := n.inRange
      rw [IntKind.contains, if_neg unsigned] at range
      exact range.1
    -- both are the low 64 bits of a natural number
    have same : n.val = (n.val.toNat : Int) := by omega
    rw [toUInt64, toInt64]
    conv_rhs => rw [same]
    rfl

/-- An `int` keeps 32 of its 64 bits. The other types fit their encoding. -/
theorem number_is (small : n.val.natAbs ≤ 2 ^ 53) (named : n.kind ≠ .uintptr) :
    Binary64.Is n.number n.val ↔ (n.kind = .int → -2 ^ 31 ≤ n.val ∧ n.val < 2 ^ 31) := by
  rw [number]
  by_cases double : n.kind.asDouble = true
  · -- the bits of the double go through the slot unchanged
    have same : voidp2double (double2voidp n.toFloat64) = Binary64.ofInt n.val :=
      Float.ofBits_toBits _
    rw [if_pos double, same]
    refine iff_of_true (Binary64.ofInt_is small) fun isInt => ?_
    rw [isInt] at double
    cases double
  · rw [if_neg double, slot_eq, toInt64, toInt_intOfPtr]
    have low := Int.le_bmod (x := n.val) (m := 2 ^ 32) (by decide)
    have high := Int.bmod_lt (x := n.val) (m := 2 ^ 32) (by decide)
    have exact := Binary64.ofInt_is (n := n.val.bmod (2 ^ 32)) (by omega)
    constructor
    · intro is _
      have same := exact.unique is
      omega
    · intro fits
      have inside : -2 ^ 31 ≤ n.val ∧ n.val < 2 ^ 31 := by
        by_cases isInt : n.kind = .int
        · exact fits isInt
        · -- at most 32 bits, signed if there are so many
          have range := n.inRange
          cases kind : n.kind <;> simp_all [IntKind.asDouble, IntKind.contains, IntKind.signed,
            IntKind.bits] <;> omega
      have same : n.val.bmod (2 ^ 32) = n.val := Int.bmod_eq_of_le (by omega) (by omega)
      rwa [same] at exact ⊢

end GoInteger

/-! ### What a script sees -/

variable {H : Type} {host : Host H} {ctx : Ctx H}

/-- One value is pushed, and it is the number `n`. -/
def PushesInteger {α : Type} (program : Duk H α) (n : Int) (ctx : Ctx H) : Prop :=
  ∃ a d, program ctx = .ok a (ctx.pushed (.number d)) ∧ Binary64.Is d n

theorem pushesInteger_pushNumber {d : Float} {n : Int} :
    PushesInteger (pushNumber d) n ctx ↔ ctx.height + 1 ≤ ctx.reserve ∧ Binary64.Is d n := by
  constructor
  · rintro ⟨_, d', pushed, is⟩
    obtain ⟨room, same⟩ := push_eq_ok.mp pushed
    -- the value on top is the one that was pushed
    cases congrArg Ctx.stack same
    exact ⟨room, is⟩
  · rintro ⟨room, is⟩
    exact ⟨(), d, push_eq_ok.mpr ⟨room, rfl⟩, is⟩

theorem pushesInteger_returning {α β : Type} {program : Duk H α} {b : β} {n : Int} :
    PushesInteger (program >>= fun _ => pure b) n ctx ↔ PushesInteger program n ctx := by
  constructor
  · rintro ⟨_, d, pushed, is⟩
    obtain ⟨a, mid, first, same⟩ := bind_eq_ok.mp pushed
    cases same
    exact ⟨a, d, first, is⟩
  · rintro ⟨a, d, pushed, is⟩
    exact ⟨b, d, bind_eq_ok.mpr ⟨a, _, pushed, rfl⟩, is⟩

/-- The attribute is the number `n`, and so is the property of the object on top that is made of
it, unless an accessor takes the write. -/
def AttrShows (host : Host H) (attr : ModuleAttr) (n : Int) (ctx : Ctx H) : Prop :=
  PushesInteger (pushAttr host attr) n ctx ∧
    ∀ id below after, ctx.stack = .object id :: below →
      (∀ w free v, host.writeThrough w free id attr.name v = none) →
      jsAddModuleAttr host attr ctx = .ok () after →
      ∃ d configurable,
        (after.world.objects id).own attr.name = some (.data (.number d) true configurable) ∧
        Binary64.Is d n

theorem attrShows_iff {attr : ModuleAttr} {n : Int} :
    AttrShows host attr n ctx ↔ PushesInteger (pushAttr host attr) n ctx := by
  constructor
  · exact And.left
  · intro pushes
    refine ⟨pushes, fun id below after stack plain added => ?_⟩
    obtain ⟨_, d, pushed, is⟩ := pushes
    obtain ⟨configurable, own⟩ := jsAddModuleAttr_own stack pushed plain added
    exact ⟨d, configurable, own, is⟩

/-! ### The encoders -/

variable {S σ : Type} (go : GoRuntime host.mem S σ)

theorem pushArg_parseInteger {n : GoInteger} (named : n.kind ≠ .uintptr)
    (predeclared : n.defined = false) (out : ParsedArg) :
    pushArg host (parseInteger go n out).payload = pushNumber n.number := by
  rw [parseInteger, if_neg (by simp [predeclared]), GoInteger.number, GoInteger.slot]
  cases kind : n.kind with
  | uintptr => exact absurd kind named
  | _ => rfl

theorem pushAttr_parseInteger {n : GoInteger} (named : n.kind ≠ .uintptr)
    (predeclared : n.defined = false) (name : Bytes) (out : ParsedArg) :
    pushAttr host ⟨name, (parseInteger go n out).argType, (parseInteger go n out).varSlot,
      (parseInteger go n out).pLen⟩ = pushNumber n.number := by
  rw [parseInteger, if_neg (by simp [predeclared]), GoInteger.number, GoInteger.slot]
  cases kind : n.kind with
  | uintptr => exact absurd kind named
  | _ => rfl

variable (host) in
theorem pushAttr_setInteger {n : GoInteger} (named : n.kind ≠ .uintptr) (attr : ModuleAttr) :
    ∃ filled, attr.setInteger n = some filled ∧
      pushAttr host filled = pushNumber n.number := by
  rw [ModuleAttr.setInteger, GoInteger.number, GoInteger.slot]
  cases kind : n.kind with
  | uintptr => exact absurd kind named
  | _ => exact ⟨_, rfl, rfl⟩

variable (host) in
theorem pushResult_encodeInteger {n : GoInteger} (named : n.kind ≠ .uintptr)
    (predeclared : n.defined = false) :
    ∃ out, encodeInteger false n = some out ∧
      pushResult host out = pushNumber n.number >>= fun _ => pure 1 := by
  rw [encodeInteger, if_neg (by simp [predeclared]), GoInteger.number, GoInteger.slot]
  cases kind : n.kind with
  | uintptr => exact absurd kind named
  | _ => exact ⟨_, rfl, rfl⟩

/-- What is encoded as no result pushes nothing. -/
theorem none_pushes_nothing {n : Int} : ¬ PushesInteger (pushResult host .none) n ctx := by
  rintro ⟨_, d, pushed, _⟩
  have returned : pushResult host .none ctx = .ok 0 ctx := rfl
  rw [returned] at pushed
  have more := congrArg Ctx.height (EStateM.Result.ok.inj pushed).2
  rw [Ctx.pushed_height] at more
  omega

/-- A result is a number for a script only where its type has a case, and the function declares
no interface for it. -/
theorem result_encoded {n : GoInteger} {declaredInterface : Bool} {out : NativeResult}
    (encoded : encodeInteger declaredInterface n = some out) {m : Int}
    (pushes : PushesInteger (pushResult host out) m ctx) :
    n.defined = false ∧ n.kind ≠ .uintptr ∧ declaredInterface = false := by
  rw [encodeInteger] at encoded
  -- no case of the type switch matches a defined type
  cases defined : n.defined with
  | true =>
    rw [if_pos defined] at encoded
    cases encoded
    exact absurd pushes none_pushes_nothing
  | false =>
    rw [if_neg (by simp [defined])] at encoded
    refine ⟨rfl, ?_⟩
    cases declaredInterface with
    | true =>
      cases kind : n.kind with
      | uintptr =>
        rw [kind] at encoded
        cases encoded
        exact absurd pushes none_pushes_nothing
      | _ =>
        rw [kind] at encoded
        cases encoded
    | false =>
      refine ⟨fun kind => ?_, rfl⟩
      rw [kind] at encoded
      cases encoded
      exact absurd pushes none_pushes_nothing

/-! ### All ways together -/

/-- On every way from Go the script gets the number that `n` is. The other arguments are what the
encoders happen to find: earlier values of their variables, the pool, and the names to bind. -/
structure IntegerArrives (n : GoInteger) (declaredInterface : Bool) (out : ParsedArg)
    (name : Bytes) (attr : ModuleAttr) (st : σ) (ctx : Ctx H) : Prop where
  argument : PushesInteger
    (pushArg host ((parseArg go (.integer n) out).run st).1.payload) n.val ctx
  var : AttrShows host ((registerVarAttr host go name (.integer n)).run st).1 n.val ctx
  result : ∃ res, ((encodeResults go [(declaredInterface, .integer n)]).run st).1 = some res ∧
    PushesInteger (pushResult host res) n.val ctx
  /-- The round of `go_getAttrsList` for an exported field adds an attribute that shows it. -/
  field : ∀ rest, (⟨name, .integer n⟩ : GoField host.mem S).exported = true →
    ∃ filled, goGetAttrsList host go (⟨name, .integer n⟩ :: rest) attr =
      jsAddModuleAttr host filled >>= (fun _ => goGetAttrsList host go rest filled) ∧
        AttrShows host filled n.val ctx

theorem goGetAttrsList_integer {n : GoInteger} {name : Bytes} {attr filled : ModuleAttr}
    (rest : List (GoField host.mem S))
    (exported : (⟨name, .integer n⟩ : GoField host.mem S).exported = true)
    (taken : ({ attr with name := lowerFirst name } : ModuleAttr).setInteger n = some filled) :
    goGetAttrsList host go (⟨name, .integer n⟩ :: rest) attr =
      jsAddModuleAttr host filled >>= fun _ => goGetAttrsList host go rest filled := by
  rw [goGetAttrsList, if_pos exported]
  simp only [ModuleAttr.setField, taken]

/-- With a free slot, an integer of at most 53 bits arrives on every way exactly when its type is
a predeclared one other than `uintptr`, no interface type hides it, and an `int` fits 32 bits. -/
theorem integerArrives_iff (n : GoInteger) (small : n.val.natAbs ≤ 2 ^ 53)
    (declaredInterface : Bool) (out : ParsedArg) (name : Bytes) (attr : ModuleAttr) (st : σ)
    (ctx : Ctx H) : IntegerArrives go n declaredInterface out name attr st ctx ↔
      ctx.height + 1 ≤ ctx.reserve ∧ n.defined = false ∧ n.kind ≠ .uintptr ∧
        declaredInterface = false ∧ (n.kind = .int → -2 ^ 31 ≤ n.val ∧ n.val < 2 ^ 31) := by
  constructor
  · -- the result alone decides: its encoder takes the fewest types
    intro arrives
    obtain ⟨res, encoded, pushes⟩ := arrives.result
    obtain ⟨predeclared, named, rfl⟩ := result_encoded encoded pushes
    obtain ⟨res', encoded', program⟩ := pushResult_encodeInteger host named predeclared
    have same : res = res' := Option.some.inj (encoded.symm.trans encoded')
    rw [same, program, pushesInteger_returning, pushesInteger_pushNumber] at pushes
    exact ⟨pushes.1, predeclared, named, rfl, (n.number_is small named).mp pushes.2⟩
  · -- all four encoders lead to the same push
    rintro ⟨room, predeclared, named, rfl, fits⟩
    have pushes : PushesInteger (pushNumber n.number) n.val ctx :=
      pushesInteger_pushNumber.mpr ⟨room, (n.number_is small named).mpr fits⟩
    constructor
    · rw [← pushArg_parseInteger go named predeclared out] at pushes
      exact pushes
    · rw [← pushAttr_parseInteger go named predeclared name ⟨.none, 0, 0, 0⟩] at pushes
      exact attrShows_iff.mpr pushes
    · obtain ⟨res, encoded, program⟩ := pushResult_encodeInteger host named predeclared
      refine ⟨res, encoded, ?_⟩
      rw [program]
      exact pushesInteger_returning.mpr pushes
    · intro rest exported
      obtain ⟨filled, taken, program⟩ :=
        pushAttr_setInteger host named { attr with name := lowerFirst name }
      refine ⟨filled, goGetAttrsList_integer go rest exported taken, attrShows_iff.mpr ?_⟩
      rw [program]
      exact pushes

theorem integerArrives_iff_seven : IntegerArrives (bareRuntime (idleHost fun _ => ⟨0, 5⟩).mem)
    ⟨.uint8, false, 7, by decide⟩ false ⟨.none, 0, 0, 0⟩ (ascii "x") ⟨ascii "x", .none, 0, 0⟩ ()
    freshEnvironment := by
  apply (integerArrives_iff _ ⟨.uint8, false, 7, by decide⟩ (by decide) false ⟨.none, 0, 0, 0⟩
    (ascii "x") ⟨ascii "x", .none, 0, 0⟩ () freshEnvironment).mpr
  exact ⟨by decide, rfl, by decide, rfl, by decide⟩

/-- The `int` 2147483648 comes out as another number on every way. -/
theorem int_truncated : ∃ n : GoInteger, n.kind = .int ∧ n.val = 2 ^ 31 ∧
    ¬ IntegerArrives (bareRuntime (idleHost fun _ => ⟨0, 5⟩).mem) n false ⟨.none, 0, 0, 0⟩
      (ascii "x") ⟨ascii "x", .none, 0, 0⟩ () freshEnvironment := by
  refine ⟨⟨.int, false, 2 ^ 31, by decide⟩, rfl, rfl, ?_⟩
  rw [integerArrives_iff _ _ (by decide)]
  rintro ⟨_, _, _, _, fits⟩
  exact absurd (fits rfl).2 (by decide)

end DukBridge
