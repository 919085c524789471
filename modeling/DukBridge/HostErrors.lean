import DukBridge.ArgumentLayout
import DukBridge.GoCalls
import Mathlib

/-!
# Errors reported to a Go program

Whether a script threw is told by a status, by the kind of the value handed to the
callback, or by both. What the Go caller sees is compared with how the script ended.
-/
namespace DukBridge

open Effect

variable {H : Type} (host : Host H)

/-! ### How script code ends -/

inductive Completion where
  | normal (v : JsVal)
  | abrupt (e : JsVal)
deriving DecidableEq

namespace Completion

def value : Completion → JsVal
  | normal v => v
  | abrupt e => e

def isAbrupt : Completion → Bool
  | normal _ => false
  | abrupt _ => true

end Completion

/-- A computation of the host that was started in `ctx` ends. -/
inductive Ends (outcome : Outcome H JsVal) (ctx : Ctx H) : Completion → Ctx H → Prop where
  | normal {v w reserved} (returns : outcome = .returns v w reserved) :
      Ends outcome ctx (.normal v) { ctx with world := w, reserve := ctx.reserve + reserved }
  | abrupt {e w reserved} (throws : outcome = .throws e w reserved) :
      Ends outcome ctx (.abrupt e) { ctx with world := w, reserve := ctx.reserve + reserved }

/-- A script is compiled and run; its completion value comes on top. -/
inductive Evaluates (src : Option Bytes) (s : Ctx H) : Completion → Ctx H → Prop where
  | syntaxError {e t} (room : s.height + 1 ≤ s.reserve)
      (compiled : Ends (host.compile s.world s.free .eval src none) s (.abrupt e) t) :
      Evaluates src s (.abrupt e) (t.pushed e)
  | ran {f t c u} (room : s.height + 1 ≤ s.reserve)
      (compiled : Ends (host.compile s.world s.free .eval src none) s (.normal f) t)
      (slots : t.height + 2 ≤ t.reserve)
      (called : Ends (host.call t.world (t.pushed f).free (.object globalId) f []) t c u) :
      Evaluates src s c (u.pushed c.value)

/-- The function below `argc` arguments is called; its completion value replaces them all. -/
inductive Calls (argc : Nat) (s : Ctx H) : Completion → Ctx H → Prop where
  | ended {c t} (arguments : argc + 1 ≤ s.height) (room : s.height ≤ argc + t.reserve)
      (called : Ends (host.call s.world s.free .undefined (s.get argc) (s.stack.take argc).reverse)
        s c t) :
      Calls argc s c { t with stack := c.value :: s.stack.drop (argc + 1) }

/-- The script or function behind an entry point runs to its end. Files are readable and compile,
functions are bound. -/
inductive Completes : EntryPoint → Ctx H → Completion → Ctx H → Prop where
  | eval {jsCode s c t} (evaluates : Evaluates host jsCode s c t) : Completes (.eval jsCode) s c t
  | evalFile {scriptFile src s c t} (readable : host.readFileContent scriptFile = .ok src)
      (evaluates : Evaluates host src s c t) : Completes (.evalFile scriptFile) s c t
  | callRegisteredFunc {funcName fmt argv s found argc pushed c t}
      (bound : getGlobalString host funcName s = .ok true found)
      (arguments : pushCallArgs host fmt argv found = .ok argc pushed)
      (calls : Calls host argc pushed c t) : Completes (.callRegisteredFunc funcName fmt argv) s c t
  | callFileFunc {scriptFile src fmt argv s found argc pushed c t}
      (readable : host.readFileContent scriptFile = .ok src)
      (compiles : pcompileLstring host .function src s = .ok 0 found)
      (arguments : pushCallArgs host fmt argv found = .ok argc pushed)
      (calls : Calls host argc pushed c t) : Completes (.callFileFunc scriptFile fmt argv) s c t
  | callEcmascriptFunc {ecmaFunc fmt argv s live found argc pushed c t}
      (loaded : loadObject host ecmaFunc s = .ok live found)
      (arguments : pushCallArgs host fmt argv found = .ok argc pushed)
      (calls : Calls host argc pushed c t) : Completes (.callEcmascriptFunc ecmaFunc fmt argv) s c t

/-- The status of a throw. -/
def EntryPoint.failure : EntryPoint → Int32
  | .eval _ | .evalFile _ => -1
  | .callRegisteredFunc _ _ _ | .callFileFunc _ _ _ | .callEcmascriptFunc _ _ _ => -2

variable {host}

theorem protect_of_ends {outcome : Outcome H JsVal} {s t : Ctx H} {c : Completion}
    (ends : Ends outcome s c t) :
    outcome.protect s = .ok (c.value, if c.isAbrupt then 1 else 0) t := by
  cases ends with
  | normal returns => rw [returns]; rfl
  | abrupt throws => rw [throws]; rfl

theorem ends_frame {outcome : Outcome H JsVal} {s t : Ctx H} {c : Completion}
    (ends : Ends outcome s c t) (stack : List JsVal) :
    Ends outcome { s with stack } c { t with stack } := by
  cases ends with
  | normal returns => exact .normal returns
  | abrupt throws => exact .abrupt throws

theorem ends_stack {outcome : Outcome H JsVal} {s t : Ctx H} {c : Completion}
    (ends : Ends outcome s c t) : t.stack = s.stack ∧ s.reserve ≤ t.reserve := by
  cases ends with
  | normal _ => exact ⟨rfl, Nat.le_add_right _ _⟩
  | abrupt _ => exact ⟨rfl, Nat.le_add_right _ _⟩

/-- A compilation that ends leaves the function, or what was thrown, on top. -/
theorem pcompileLstring_of_ends {mode : CompileMode} {src : Option Bytes} {s u : Ctx H} {c : Completion}
    (room : s.height + 1 ≤ s.reserve)
    (compiled : Ends (host.compile s.world s.free mode src none) s c u) :
    pcompileLstring host mode src s = .ok (if c.isAbrupt then 1 else 0) (u.pushed c.value) := by
  obtain ⟨stack, reserve⟩ := ends_stack compiled
  have above : u.height + 1 ≤ u.reserve := by
    rw [Ctx.height, stack]
    exact Nat.le_trans room reserve
  simp only [pcompileLstring, bind_run, requireRoom_run, room, if_true, get_run,
    protect_of_ends compiled, push_run, above, pure_run]

theorem pevalLstring_of_evaluates {src : Option Bytes} {s t : Ctx H} {c : Completion}
    (evaluates : Evaluates host src s c t) :
    pevalLstring host src s = .ok (if c.isAbrupt then 1 else 0) t := by
  cases evaluates with
  | syntaxError room compiled =>
    rw [pevalLstring, bind_ok (pcompileLstring_of_ends room compiled)]
    rfl
  | @ran f mid _ u room compiled slots called =>
    rw [pevalLstring, bind_ok (pcompileLstring_of_ends room compiled)]
    have slot : (mid.pushed f).height + 1 ≤ (mid.pushed f).reserve := slots
    have called' := ends_frame called (f :: mid.stack)
    obtain ⟨stack, _⟩ := ends_stack called
    have top : (mid.pushed f).get 0 = f := rfl
    have ran := protect_of_ends called'
    change Outcome.protect _ (mid.pushed f) = _ at ran
    simp only [Completion.isAbrupt, Completion.value, Bool.false_eq_true, if_false, if_true,
      bind_run, requireRoom_run, slot, get_run, Ctx.pushed_world, top, ran, setAt_run,
      List.set_cons_zero, pure_run, ← stack]
    rfl

theorem pcall_of_calls {argc : Nat} {s t : Ctx H} {c : Completion} (calls : Calls host argc s c t) :
    pcall host argc s = .ok (if c.isAbrupt then 1 else 0) t := by
  cases calls with
  | @ended u arguments room called =>
    obtain ⟨stack, _⟩ := ends_stack called
    have height : argc + 1 ≤ u.height := by
      rw [Ctx.height, stack]
      exact arguments
    have popped : popN (argc + 1) u = .ok () { u with stack := u.stack.drop (argc + 1) } :=
      popN_eq_ok.mpr ⟨height, rfl⟩
    have slot : (u.stack.drop (argc + 1)).length + 1 ≤ u.reserve := by
      rw [List.length_drop, stack]
      simp only [Ctx.height] at arguments room
      omega
    have pushed : push c.value { u with stack := u.stack.drop (argc + 1) } =
        .ok () { u with stack := c.value :: u.stack.drop (argc + 1) } := push_eq_ok.mpr ⟨slot, rfl⟩
    rw [pcall, bind_ok (get_run s), if_pos arguments, bind_ok (protect_of_ends called)]
    dsimp only
    rw [bind_ok popped, bind_ok pushed, stack]
    rfl

/-- A function that lies under its arguments is called with them, and its completion value takes
the place of all. -/
theorem calls_under_arguments {s t : Ctx H} {f : JsVal} {values below : List JsVal} {c : Completion}
    (stack : s.stack = values.reverse ++ f :: below) (room : below.length + 1 ≤ t.reserve)
    (called : Ends (host.call s.world s.free .undefined f values) s c t) :
    Calls host values.length s c { t with stack := c.value :: below } := by
  have height : s.height = values.length + 1 + below.length := by
    rw [Ctx.height, stack, List.length_append, List.length_reverse, List.length_cons]
    omega
  have function : s.get values.length = f := by
    rw [Ctx.get, stack, List.getD_eq_getElem?_getD, List.getElem?_append_right (by simp),
      List.length_reverse, Nat.sub_self]
    rfl
  have arguments : (s.stack.take values.length).reverse = values := by
    have length : values.reverse.length = values.length := List.length_reverse
    rw [stack, ← length, List.take_left, List.reverse_reverse]
  have others : s.stack.drop (values.length + 1) = below := by
    have split : values.reverse ++ f :: below = (values.reverse ++ [f]) ++ below := by simp
    have length : values.length + 1 = (values.reverse ++ [f]).length := by simp
    rw [stack, split, length, List.drop_left]
  have ended : Calls host values.length s c
      { t with stack := c.value :: s.stack.drop (values.length + 1) } := by
    refine .ended (by omega) (by omega) ?_
    rw [function, arguments]
    exact called
  rwa [others] at ended

/-- The bridge gets a status that tells how the code ended, and the completion value. -/
theorem evaluate_of_completes {entry : EntryPoint} {s t : Ctx H} {c : Completion}
    (completes : Completes host entry s c t) : entry.evaluate host true s =
      .ok (if c.isAbrupt then entry.failure else 0, true) t := by
  have call : ∀ {fmt argv found argc pushed},
      pushCallArgs host fmt argv found = .ok argc pushed → Calls host argc pushed c t →
      pushArgsAndPcall host fmt argv found = .ok (if c.isAbrupt then -2 else 0) t := by
    intro fmt argv found argc pushed arguments calls
    rw [pushArgsAndPcall, bind_ok arguments, bind_ok (pcall_of_calls calls)]
    cases c.isAbrupt <;> rfl
  cases completes with
  | eval evaluates =>
    rw [EntryPoint.evaluate, bind_ok (pevalLstring_of_evaluates evaluates)]
    cases c.isAbrupt <;> rfl
  | evalFile readable evaluates =>
    simp only [EntryPoint.evaluate, readable]
    rw [bind_ok (pevalLstring_of_evaluates evaluates)]
    cases c.isAbrupt <;> rfl
  | callRegisteredFunc bound arguments calls =>
    rw [EntryPoint.evaluate, bind_ok bound]
    exact bind_ok (call arguments calls) _
  | callFileFunc readable compiles arguments calls =>
    simp only [EntryPoint.evaluate, readable]
    rw [bind_ok compiles]
    exact bind_ok (call arguments calls) _
  | callEcmascriptFunc loaded arguments calls =>
    rw [EntryPoint.evaluate, bind_ok loaded]
    exact bind_ok (call arguments calls) _

/-! ### What the Go caller gets -/

/-- An object with `Error.prototype` on its prototype chain. -/
def Ctx.ErrorInstance (ctx : Ctx H) : JsVal → Prop
  | .object id => (ctx.world.objects id).shape.error = true
  | _ => False

/-- `duk_is_ecmascript_function` -/
def Ctx.EcmascriptFunction (ctx : Ctx H) : JsVal → Prop
  | .object id => (ctx.world.objects id).shape.ecmascriptFunction = true
  | _ => False

/-- An ECMAScript function or a buffer object. -/
def Ctx.FunctionOrBuffer (ctx : Ctx H) : JsVal → Prop
  | .object id =>
    let shape := (ctx.world.objects id).shape
    shape.ecmascriptFunction = true ∨ shape.bufferData.isSome = true
  | _ => False

/-- The types that go through JSON unless a test finds something better. -/
def JsVal.structured : JsVal → Bool
  | .object _ | .pointer _ | .lightfunc _ => true
  | _ => false

variable (host) in
/-- The Go value that stands for a completion value, which lies on top of `ctx`. -/
inductive ImageOf (ctx : Ctx H) : JsVal → GoRes → Prop where
  | undefined : ImageOf ctx .undefined .nil
  | null : ImageOf ctx .null .nil
  | boolean (b : Bool) : ImageOf ctx (.boolean b) (.bool b)
  | number (d : Float) : ImageOf ctx (.number d) (.cDouble d)
  | string (s : Bytes) : ImageOf ctx (.string s) (.string s)
  | buffer (data : Bytes) : ImageOf ctx (.buffer data) (.bytes data)
  | function {id h after} (isFunction : (ctx.world.objects id).shape.ecmascriptFunction = true)
      (saved : saveTopObject host (ctx.pushed (.object id)) = .ok h after) :
      ImageOf ctx (.object id) (.ecmaObject h)
  | bufferObject {id data}
      (noFunction : (ctx.world.objects id).shape.ecmascriptFunction = false)
      (isBuffer : (ctx.world.objects id).shape.bufferData = some data) :
      ImageOf ctx (.object id) (.bytes data)
  /-- An object or an array, as its JSON text. -/
  | json {v text w reserved} (structured : v.structured = true) (noError : ¬ ctx.ErrorInstance v)
      (noBytes : ¬ ctx.FunctionOrBuffer v)
      (encoded : host.jsonEncode ctx.world ctx.free v = .returns text w reserved) :
      ImageOf ctx v (.bytes (text.getD []))

/-- A result that stands for no result. -/
def JsVal.NilLike : JsVal → Prop
  | .undefined | .null => True
  | _ => False

theorem deliverJson_received {ctx ctx' : Ctx H} {array : Bool} {d : Delivered}
    (inside : 1 ≤ ctx.height) (delivered : deliverJson host array ctx = .ok d ctx') :
    ∃ text w reserved, host.jsonEncode ctx.world ctx.free (ctx.get 0) = .returns text w reserved ∧
      goResultReceived host.mem d = .bytes (text.getD []) := by
  obtain ⟨_, mid, encoded, rest⟩ := bind_eq_ok.mp delivered
  rw [jsonEncode, bind_run, get_run] at encoded
  obtain ⟨text, ran, outcome, replaced⟩ := bind_eq_ok.mp encoded
  obtain ⟨w, reserved, returns, rfl⟩ := outcome_run_eq_ok.mp outcome
  refine ⟨text, w, reserved, returns, ?_⟩
  have place : ∀ v, (ctx.stack.set 0 v).getD 0 .undefined = v := by
    intro v
    rw [List.getD_eq_getElem?_getD, List.getElem?_set_self inside, Option.getD_some]
  -- either way the type is one of those whose bytes are copied
  cases text with
  | none =>
    cases replaced
    simp only [bind_run, get_run, Ctx.get, place] at rest
    cases rest
    cases array <;> rfl
  | some text =>
    cases replaced
    simp only [bind_run, get_run, Ctx.get, place] at rest
    cases rest
    cases array <;> simp [goResultReceived, Delivered.bytes, SlotVal.bytes]

/-- An error is received for an `Error` that is neither a function nor a buffer, and otherwise the
value that stands for the completion value. -/
theorem callResultCallback_received {ctx ctx' : Ctx H} {d : Delivered} (inside : 1 ≤ ctx.height)
    (converted : callResultCallback host ctx = .ok d ctx') :
    (ctx.ErrorInstance (ctx.get 0) ∧ ¬ ctx.FunctionOrBuffer (ctx.get 0) ∧
      ∃ text, goResultReceived host.mem d = .error text) ∨
    (¬ (ctx.ErrorInstance (ctx.get 0) ∧ ¬ ctx.FunctionOrBuffer (ctx.get 0)) ∧
      ImageOf host ctx (ctx.get 0) (goResultReceived host.mem d)) := by
  have json : ∀ {array}, (ctx.get 0).structured = true → ¬ ctx.ErrorInstance (ctx.get 0) →
      ¬ ctx.FunctionOrBuffer (ctx.get 0) → deliverJson host array ctx = .ok d ctx' →
      ¬ (ctx.ErrorInstance (ctx.get 0) ∧ ¬ ctx.FunctionOrBuffer (ctx.get 0)) ∧
        ImageOf host ctx (ctx.get 0) (goResultReceived host.mem d) := by
    intro array structured noError noBytes delivered
    obtain ⟨text, w, reserved, encoded, received⟩ := deliverJson_received inside delivered
    rw [received]
    exact ⟨fun both => noError both.1, .json structured noError noBytes encoded⟩
  rw [callResultCallback, bind_run, get_run] at converted
  cases v : ctx.get 0 with
  | undefined =>
    simp only [v] at converted
    cases converted
    exact .inr ⟨fun both => both.1, .undefined⟩
  | null =>
    simp only [v] at converted
    cases converted
    exact .inr ⟨fun both => both.1, .null⟩
  | boolean b =>
    simp only [v] at converted
    cases converted
    refine .inr ⟨fun both => both.1, ?_⟩
    cases b <;> exact .boolean _
  | number d =>
    simp only [v] at converted
    cases converted
    refine .inr ⟨fun both => both.1, ?_⟩
    simp only [goResultReceived, SlotVal.toWord, double2voidp, voidp2double, Float.ofBits_toBits]
    exact .number d
  | string s =>
    simp only [v] at converted
    cases converted
    refine .inr ⟨fun both => both.1, ?_⟩
    simp only [goResultReceived, Delivered.bytes, SlotVal.bytes, Option.getD_some, List.take_length]
    exact .string s
  | buffer data =>
    simp only [v] at converted
    cases converted
    refine .inr ⟨fun both => both.1, ?_⟩
    simp only [goResultReceived, Delivered.bytes, SlotVal.bytes, Option.getD_some, List.take_length]
    exact .buffer data
  | pointer p | lightfunc f =>
    -- the default of the switch
    simp only [v] at converted json
    exact .inr (json rfl not_false not_false converted)
  | object id =>
    -- a function, a buffer, an error: the first of these that the object is decides
    simp only [v] at converted json
    simp only [Ctx.ErrorInstance, Ctx.FunctionOrBuffer] at json ⊢
    by_cases isFunction : (ctx.world.objects id).shape.ecmascriptFunction = true
    · simp only [isFunction, if_true] at converted
      obtain ⟨_, pushed, room, rest⟩ := bind_eq_ok.mp converted
      obtain ⟨_, rfl⟩ := push_eq_ok.mp room
      rw [bind_ok (setAt_run 0 _)] at rest
      obtain ⟨h, after, saved, same⟩ := bind_eq_ok.mp rest
      cases same
      exact .inr ⟨fun both => both.2 (.inl isFunction), .function isFunction saved⟩
    · have noFunction := Bool.eq_false_iff.mpr isFunction
      simp only [noFunction, Bool.false_eq_true, if_false] at converted
      cases isBuffer : (ctx.world.objects id).shape.bufferData with
      | some data =>
        simp only [isBuffer] at converted
        cases converted
        refine .inr ⟨fun both => both.2 (.inr rfl), ?_⟩
        simp only [goResultReceived, Delivered.bytes, SlotVal.bytes, Option.getD_some,
          List.take_length]
        exact .bufferObject noFunction isBuffer
      | none =>
        have noBytes : ¬ ((ctx.world.objects id).shape.ecmascriptFunction = true ∨
            (none : Option Bytes).isSome = true) := by simp [noFunction]
        simp only [isBuffer] at converted json
        by_cases isError : (ctx.world.objects id).shape.error = true
        · simp only [isError, if_true] at converted
          obtain ⟨s, mid, coerced, rest⟩ := bind_eq_ok.mp converted
          cases rest
          exact .inl ⟨isError, noBytes, s, by
            simp [goResultReceived, Delivered.bytes, SlotVal.bytes]⟩
        · simp only [isError] at converted
          exact .inr (json rfl isError noBytes converted)

theorem completes_top {entry : EntryPoint} {s t : Ctx H} {c : Completion}
    (completes : Completes host entry s c t) : t.get 0 = c.value ∧ 1 ≤ t.height := by
  have evaluates : ∀ {src}, Evaluates host src s c t → t.get 0 = c.value ∧ 1 ≤ t.height := by
    intro src evaluates
    cases evaluates <;> exact ⟨rfl, Nat.le_add_left 1 _⟩
  have calls : ∀ {argc pushed}, Calls host argc pushed c t → t.get 0 = c.value ∧ 1 ≤ t.height := by
    intro argc pushed calls
    cases calls
    exact ⟨rfl, Nat.le_add_left 1 _⟩
  cases completes with
  | eval script | evalFile _ script => exact evaluates script
  | callRegisteredFunc _ _ call | callFileFunc _ _ _ call | callEcmascriptFunc _ _ call =>
    exact calls call

/-- A status that is not 0 is an error, whatever value came with it. -/
theorem parse_eq (status : Int32) (d : Delivered) :
    Returned.parse host.mem (status, some d) =
      match goResultReceived host.mem d with
      | .error text => (.nil, some (.text text))
      | res => if status = 0 then (res, none) else (.nil, some (.code status)) := by
  simp only [Returned.parse, Option.map_some, Option.getD_some, parseResult, fromErrorCode]
  cases goResultReceived host.mem d <;> by_cases ok : status = 0 <;> simp [ok]

theorem ImageOf.parse {ctx : Ctx H} {v : JsVal} {d : Delivered} (status : Int32)
    (image : ImageOf host ctx v (goResultReceived host.mem d)) :
    Returned.parse host.mem (status, some d) =
      if status = 0 then (goResultReceived host.mem d, none) else (.nil, some (.code status)) := by
  rw [parse_eq]
  generalize goResultReceived host.mem d = res at image
  cases image <;> rfl

theorem EntryPoint.failure_ne_zero (entry : EntryPoint) : entry.failure ≠ 0 := by
  cases entry with
  | eval _ | evalFile _ => exact show (-1 : Int32) ≠ 0 by decide
  | callRegisteredFunc _ _ _ | callFileFunc _ _ _ | callEcmascriptFunc _ _ _ =>
    exact show (-2 : Int32) ≠ 0 by decide

/-- The callback gets the completion value, and the caller a status that tells how it came about. -/
theorem entryRun_of_completes {entry : EntryPoint} {s t s' : Ctx H} {c : Completion}
    {returned : Returned} (completes : Completes host entry s c t)
    (ran : entry.run host true s = .ok returned s') :
    ∃ d t', callResultCallback host t = .ok d t' ∧ s' = { t' with stack := t'.stack.drop 1 } ∧
      returned = (if c.isAbrupt then entry.failure else 0, some d) := by
  rw [run_eq, bind_ok (evaluate_of_completes completes)] at ran
  obtain ⟨delivered, after, conversion, popped⟩ := bind_eq_ok.mp ran
  obtain ⟨d, t', converted, same⟩ := bind_eq_ok.mp conversion
  obtain ⟨_, _, dropped, last⟩ := bind_eq_ok.mp popped
  obtain ⟨_, rfl⟩ := popN_eq_ok.mp dropped
  cases same
  cases last
  exact ⟨d, _, converted, rfl, rfl⟩

variable {S σ : Type} (go : GoRuntime host.mem S σ)

/-- What a method returns once its script or function has completed. -/
theorem run_of_completes {call : GoCall host.mem S} {st : σ} {s t s' : Ctx H} {c : Completion}
    {result : GoRes × Option GoErr} (completes : Completes host (call.entry host go st) s c t)
    (returned : (call.run host go st).1 s = .ok result s') :
    ∃ d t', callResultCallback host t = .ok d t' ∧ s' = { t' with stack := t'.stack.drop 1 } ∧
      result = Returned.parse host.mem
        (if c.isAbrupt then (call.entry host go st).failure else 0, some d) := by
  rw [GoCall.run_eq] at returned
  obtain ⟨r, mid, ran, parsed⟩ := bind_eq_ok.mp returned
  obtain ⟨d, t', converted, rfl, rfl⟩ := entryRun_of_completes completes ran
  cases parsed
  exact ⟨d, t', converted, rfl, rfl⟩

theorem run_returns_iff (plain : PlainHandles host) {call : GoCall host.mem S} {st : σ} {s t : Ctx H}
    {c : Completion} (completes : Completes host (call.entry host go st) s c t) :
    Returns (call.run host go st).1 s ↔ Deliverable host t := by
  rw [GoCall.run_eq, returns_bind_total fun _ s => returns_pure _ s, run_eq,
    returns_bind_of_ok (evaluate_of_completes completes),
    finish_returns_iff host plain (completes_top completes).2]
  exact ⟨fun delivers => delivers rfl, fun deliverable _ => deliverable⟩

/-- A completion value that is no error comes without one. -/
theorem image_of_normal {call : GoCall host.mem S} {st : σ} {s t s' : Ctx H} {v : JsVal}
    {result : GoRes × Option GoErr}
    (completes : Completes host (call.entry host go st) s (.normal v) t)
    (noError : ¬ (t.ErrorInstance v ∧ ¬ t.FunctionOrBuffer v))
    (returned : (call.run host go st).1 s = .ok result s') :
    ImageOf host t v result.1 ∧ result.2 = none := by
  obtain ⟨top, inside⟩ := completes_top completes
  obtain ⟨d, t', converted, _, same⟩ := run_of_completes go completes returned
  have received := callResultCallback_received inside converted
  rw [top] at received
  rcases received with ⟨isError, noBytes, _⟩ | ⟨_, image⟩
  · exact absurd ⟨isError, noBytes⟩ noError
  · rw [image.parse] at same
    rw [same]
    exact ⟨image, rfl⟩

/-- When a script or a function has completed, the Go method comes back exactly if its completion
value can be delivered. There is an error exactly if it threw, or completed with an `Error` that is
neither a function nor a buffer; with an error the value is nil, and without one it stands for the
completion value. -/
theorem error_iff_abrupt (plain : PlainHandles host) (call : GoCall host.mem S) (st : σ)
    (s t : Ctx H) (c : Completion) (completes : Completes host (call.entry host go st) s c t) :
    (Returns (call.run host go st).1 s ↔ Deliverable host t) ∧
    ∀ value err s', (call.run host go st).1 s = .ok (value, err) s' →
      (err ≠ none ↔ c.isAbrupt = true ∨ t.ErrorInstance c.value ∧ ¬ t.FunctionOrBuffer c.value) ∧
      (err ≠ none → value = .nil) ∧ (err = none → ImageOf host t c.value value) := by
  obtain ⟨top, inside⟩ := completes_top completes
  refine ⟨run_returns_iff go plain completes, ?_⟩
  intro value err s' returned
  obtain ⟨d, t', converted, _, same⟩ := run_of_completes go completes returned
  have received := callResultCallback_received inside converted
  rw [top] at received
  rcases received with ⟨isError, noBytes, text, received⟩ | ⟨noError, image⟩
  · -- an error was received, and the status does not matter
    rw [parse_eq, received] at same
    cases same
    exact ⟨iff_of_true (Option.some_ne_none _) (.inr ⟨isError, noBytes⟩), fun _ => rfl,
      fun absent => absurd absent (Option.some_ne_none _)⟩
  · rw [image.parse] at same
    cases abrupt : c.isAbrupt with
    | true =>
      simp only [abrupt, if_true, EntryPoint.failure_ne_zero, if_false] at same
      cases same
      exact ⟨iff_of_true (Option.some_ne_none _) (.inl rfl), fun _ => rfl,
        fun absent => absurd absent (Option.some_ne_none _)⟩
    | false =>
      simp only [abrupt, Bool.false_eq_true, if_false, if_true] at same
      cases same
      exact ⟨iff_of_false (fun some => some rfl) (by simp [noError]), fun some => absurd rfl some,
        fun _ => image⟩

/-! ### A function that is an Error -/

/-- A script can give a function `Error.prototype` for its prototype. -/
def functionError : ObjShape := { ObjShape.plain with ecmascriptFunction := true, error := true }

/-- Object 1 is such a function. -/
def functionErrorEnvironment : Ctx Unit where
  stack := []
  reserve := freshEnvironment.reserve
  world := freshEnvironment.world.setObject 1 ⟨functionError, fun _ => none, true, none⟩

/-- A host whose scripts complete with object 1. -/
def functionErrorHost : Host Unit :=
  { stillHost with call := fun w _ _ _ _ => .returns (.object 1) w 0 }

/-- An evaluation that completes with an `Error` for which Go gets a function and no error. -/
theorem function_error_not_reported : ∃ (script : GoBytes functionErrorHost.mem) (t s' : Ctx Unit),
    PlainHandles functionErrorHost ∧
    Completes functionErrorHost (.eval (scriptBytes functionErrorHost script))
      functionErrorEnvironment (.normal (.object 1)) t ∧ t.ErrorInstance (.object 1) ∧
    JSEnv.eval functionErrorHost script functionErrorEnvironment =
      .ok (.ecmaObject 5, none) s' := by
  refine ⟨⟨8, [0], rfl, by decide, fun _ => by decide⟩, _, _, ⟨fun _ _ _ => rfl, fun _ _ _ _ => rfl⟩,
    .eval (.ran (by decide) (.normal rfl) (by decide) (.normal rfl)), rfl, rfl⟩

/-- A host whose scripts throw a string. -/
def throwingHost : Host Unit :=
  { stillHost with call := fun w _ _ _ _ => .throws (.string (ascii "no")) w 0 }

theorem error_iff_abrupt_string : ∃ (script : GoBytes throwingHost.mem) (t s' : Ctx Unit),
    Completes throwingHost ((GoCall.eval script).entry throwingHost (bareRuntime _) ())
      freshEnvironment (.abrupt (.string (ascii "no"))) t ∧
    ((GoCall.eval script).run throwingHost (bareRuntime _) ()).1 freshEnvironment =
      .ok (.nil, some (.code (-1))) s' ∧ some (GoErr.code (-1)) ≠ none := by
  refine ⟨⟨8, [0], rfl, by decide, fun _ => by decide⟩, _, _,
    .eval (.ran (by decide) (.normal rfl) (by decide) (.abrupt rfl)), rfl, ?_⟩
  have reported := (error_iff_abrupt (bareRuntime throwingHost.mem)
    ⟨fun _ _ _ => rfl, fun _ _ _ _ => rfl⟩ (.eval ⟨8, [0], rfl, by decide, fun _ => by decide⟩) ()
    freshEnvironment _ _
    (.eval (.ran (by decide) (.normal rfl) (by decide) (.abrupt rfl)))).2 _ _ _ rfl
  exact reported.1.mpr (.inl rfl)

end DukBridge
