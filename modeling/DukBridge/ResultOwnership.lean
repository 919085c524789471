import DukBridge.HostErrors

/-!
# Who owns a delivered result

The completion value is popped right after `go_resultReceived` returns, and its bytes may be
reused. What Go keeps of them is a copy, or a header that still points there.
-/
namespace DukBridge

open Effect

variable {H : Type} {host : Host H}

/-! ### Values that point into another heap -/

/-- A value in a variable of Go. -/
inductive HeldRes where
  /-- All its bytes are Go's own. -/
  | owned (res : GoRes)
  /-- An error whose message is a string header over C memory. -/
  | errorView (addr : Word) (len : Nat)

namespace HeldRes

/-- The value that a reader finds when memory is as in `m`. -/
def read (m : Memory) : HeldRes → GoRes
  | owned res => res
  | errorView addr len => .error (m.read addr len)

def isView : HeldRes → Bool
  | owned _ => false
  | errorView _ _ => true

/-- It reads as it did in `m`, whatever memory holds later. -/
def Stable (held : HeldRes) (m : Memory) : Prop := ∀ later : Memory, held.read later = held.read m

theorem stable_owned (res : GoRes) (m : Memory) : (owned res).Stable m := fun _ => rfl

theorem stable_errorView {addr : Word} {len : Nat} {m : Memory} :
    (errorView addr len).Stable m ↔ len = 0 := by
  constructor
  · intro stable
    by_contra nonempty
    -- a memory in which the first byte is another one
    have same := stable fun at' => m at' + 1
    simp only [read, GoRes.error.injEq] at same
    have first := congrArg (fun b : Bytes => b[0]?) same
    simp [Memory.read, Nat.pos_of_ne_zero nonempty] at first
  · rintro rfl later
    simp [read, Memory.read]

end HeldRes

/-! ### go_resultReceived -/

/-- What the variable behind `udd` holds: `string(b)` and `memcpy` copy the bytes in `m`, and
`errors.New` takes the header that `toBytes` made for them. -/
def goResultHeld (m : Memory) (d : Delivered) : HeldRes :=
  let res := d.res.toWord
  let resLen := d.len.getD 0
  match d.resType with
  | .none => .owned .nil
  | .bool => .owned (.bool (res != 0))
  | .double => .owned (.cDouble (voidp2double res))
  | .string => .owned (.string (m.read res resLen))
  | .func => .owned (.ecmaObject res)
  | .error => .errorView res resLen
  | .buffer | .object | .array | .int | .mobject => .owned (.bytes (m.read res resLen))

/-- The payload lies in `m` at its address, in its whole length. -/
def Delivered.LiesIn (d : Delivered) (m : Memory) : Prop :=
  match d.res with
  | .heap addr data => m.read addr data.length = data ∧ d.len = some data.length
  | .word _ => d.len.getD 0 = 0

/-- At the time of the call the variable reads as the result that was delivered. -/
theorem goResultHeld_read {d : Delivered} {m : Memory} (lies : d.LiesIn m) :
    (goResultHeld m d).read m = goResultReceived host.mem d := by
  have bytes : m.read d.res.toWord (d.len.getD 0) = d.res.bytes host.mem (d.len.getD 0) := by
    obtain ⟨resType, res, len⟩ := d
    cases res with
    | word w =>
      have empty : len.getD 0 = 0 := lies
      simp [empty, Memory.read, SlotVal.bytes]
    | heap addr data =>
      obtain ⟨stored, length⟩ : m.read addr data.length = data ∧ len = some data.length := lies
      simp [length, stored, SlotVal.bytes, SlotVal.toWord]
  rw [goResultHeld, goResultReceived]
  cases d.resType <;> simp [HeldRes.read, bytes]

theorem isView_goResultHeld (host : Host H) (m : Memory) (d : Delivered) :
    (goResultHeld m d).isView = true ↔ ∃ text, goResultReceived host.mem d = .error text := by
  rw [goResultHeld, goResultReceived]
  cases d.resType <;> simp [HeldRes.isView]

/-! ### The values that call_result_callback delivers -/

/-- The text of the value on top, as `duk_safe_to_lstring` makes it. -/
def Ctx.errorText (host : Host H) (ctx : Ctx H) : Option Bytes :=
  (host.safeToString ctx.world ctx.free (ctx.get 0)).map fun result => result.1

theorem errorText_of_safeToString {ctx ctx' : Ctx H} {text : Bytes}
    (converted : safeToString host ctx = .ok text ctx') : ctx.errorText host = some text := by
  obtain ⟨_, mid, reserved, rest⟩ := bind_eq_ok.mp converted
  obtain ⟨_, rfl⟩ := requireRoom_eq_ok.mp reserved
  rw [bind_run, get_run] at rest
  rw [Ctx.errorText]
  cases coerced : host.safeToString mid.world mid.free (mid.get 0) with
  | none =>
    simp only [coerced] at rest
    cases rest
  | some result =>
    simp only [coerced] at rest
    cases rest
    rfl

theorem not_error_of_image {ctx : Ctx H} {v : JsVal} {text : Bytes} :
    ¬ ImageOf host ctx v (.error text) := by
  intro image
  cases image

/-- Only an `Error` that is neither a function nor a buffer is held as a view, of its text. -/
theorem callResultCallback_held {ctx ctx' : Ctx H} {d : Delivered} (inside : 1 ≤ ctx.height)
    (converted : callResultCallback host ctx = .ok d ctx') (m : Memory) :
    (ctx.ErrorInstance (ctx.get 0) ∧ ¬ ctx.FunctionOrBuffer (ctx.get 0) ∧
      ∃ addr text, ctx.errorText host = some text ∧
        goResultHeld m d = .errorView addr text.length) ∨
    (¬ (ctx.ErrorInstance (ctx.get 0) ∧ ¬ ctx.FunctionOrBuffer (ctx.get 0)) ∧
      ∃ res, goResultHeld m d = .owned res) := by
  rcases callResultCallback_received inside converted with ⟨isError, noBytes, _⟩ | ⟨other, image⟩
  · refine .inl ⟨isError, noBytes, ?_⟩
    cases v : ctx.get 0 with
    | object id =>
      simp only [v, Ctx.ErrorInstance, Ctx.FunctionOrBuffer, not_or, Bool.not_eq_true,
        Option.isSome_eq_false_iff, Option.isNone_iff_eq_none] at isError noBytes
      rw [callResultCallback, bind_run, get_run] at converted
      simp only [v, isError, noBytes, if_true, Bool.false_eq_true, if_false] at converted
      obtain ⟨text, mid, coerced, rest⟩ := bind_eq_ok.mp converted
      cases rest
      exact ⟨_, text, errorText_of_safeToString coerced, rfl⟩
    | _ => simp [v, Ctx.ErrorInstance] at isError
  · refine .inr ⟨other, ?_⟩
    cases held : goResultHeld m d with
    | owned res => exact ⟨res, rfl⟩
    | errorView addr len =>
      obtain ⟨text, received⟩ := (isView_goResultHeld host m d).mp (by rw [held]; rfl)
      rw [received] at image
      exact absurd image not_error_of_image

/-- The delivered value reads the same under every later memory exactly if the completion value is
not an `Error`, neither function nor buffer, with a text of at least one byte; and it is a view
exactly if it is such an `Error`. -/
theorem delivered_stable_iff (ctx ctx' : Ctx H) (inside : 1 ≤ ctx.height) (d : Delivered)
    (converted : callResultCallback host ctx = .ok d ctx') (m : Memory) :
    ((goResultHeld m d).Stable m ↔ ¬ (ctx.ErrorInstance (ctx.get 0) ∧
      ¬ ctx.FunctionOrBuffer (ctx.get 0) ∧ ctx.errorText host ≠ some [])) ∧
    ((goResultHeld m d).isView = false ↔
      ¬ (ctx.ErrorInstance (ctx.get 0) ∧ ¬ ctx.FunctionOrBuffer (ctx.get 0))) := by
  rcases callResultCallback_held inside converted m with
    ⟨isError, noBytes, addr, text, coerced, held⟩ | ⟨other, res, held⟩
  · rw [held, HeldRes.stable_errorView, coerced]
    simp [isError, noBytes, HeldRes.isView]
  · rw [held]
    refine ⟨iff_of_true (HeldRes.stable_owned res m) ?_, iff_of_true rfl other⟩
    rintro ⟨isError, noBytes, _⟩
    exact other ⟨isError, noBytes⟩

/-! ### An error and a string -/

/-- A host where every value converts to the text `E`. -/
def namingHost : Host Unit :=
  { stillHost with safeToString := fun w _ _ => some (ascii "E", w, 0) }

/-- Object 1, an `Error`, is the completion value. -/
def errorOnTop : Ctx Unit where
  stack := [.object 1]
  reserve := freshEnvironment.reserve
  world := freshEnvironment.world.setObject 1
    ⟨{ ObjShape.plain with error := true }, fun _ => none, true, none⟩

/-- A memory with the text of the error at its address. -/
def namedMemory : Memory := fun _ => 69

/-- The message of the error changes with the memory that the text was in. -/
theorem error_message_changes : ∃ (d : Delivered) (ctx' : Ctx Unit),
    callResultCallback namingHost errorOnTop = .ok d ctx' ∧ d.LiesIn namedMemory ∧
    (goResultHeld namedMemory d).read namedMemory = .error (ascii "E") ∧
    (goResultHeld namedMemory d).read (fun _ => 0) = .error [0] := by
  refine ⟨.bytes .error 4096 (ascii "E"), _, rfl, ⟨rfl, rfl⟩, rfl, rfl⟩

/-- A string on top. -/
def stringOnTop : Ctx Unit := { freshEnvironment with stack := [.string (ascii "E")] }

theorem delivered_stable_string : ∃ (d : Delivered) (ctx' : Ctx Unit),
    callResultCallback stillHost stringOnTop = .ok d ctx' ∧
    (goResultHeld namedMemory d).Stable namedMemory := by
  have converted : callResultCallback stillHost stringOnTop =
    .ok (.bytes .string 4096 (ascii "E")) stringOnTop := rfl
  have stable := delivered_stable_iff stringOnTop _ (by decide) _ converted namedMemory
  refine ⟨_, _, converted, stable.1.mpr ?_⟩
  rintro ⟨isError, _, _⟩
  exact isError

end DukBridge
