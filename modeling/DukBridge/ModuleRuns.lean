import DukBridge.Lib.Recursion
import DukBridge.ModuleLoads
import Mathlib.Data.Set.Card
import Mathlib.Data.Set.Finite.List
import Mathlib.Data.FinEnum

/-!
# Modules that require modules

A module may require others while it is loaded, and they may require it. The calls of `require`
below one another are for different modules, so they come to an end, and the host whose calls they
are is the solution of one equation.
-/
namespace DukBridge

open Effect Recursion

variable {H : Type}

/-! ### Runs cut off -/

section Flat

variable {α : Type}

/-- A run that has come back is as it is. -/
def Outcome.Below (x y : Outcome H α) : Prop := x = .never ∨ x = y

theorem Outcome.Below.refl (x : Outcome H α) : x.Below x := .inr rfl

theorem Outcome.Below.trans (x y z : Outcome H α) (first : x.Below y) (next : y.Below z) :
    x.Below z := by
  rcases first with never | rfl
  · exact .inl never
  · exact next

theorem Outcome.Below.antisymm (x y : Outcome H α) (one : x.Below y) (two : y.Below x) : x = y := by
  rcases one with rfl | same
  · rcases two with same | same
    · exact same.symm
    · exact same.symm
  · exact same

instance : PartialOrder (Outcome H α) where
  le := Outcome.Below
  le_refl := Outcome.Below.refl
  le_trans := Outcome.Below.trans
  le_antisymm := Outcome.Below.antisymm

theorem Outcome.never_below (x : Outcome H α) : Outcome.Below .never x := .inl rfl

instance : OrderBot (Outcome H α) where
  bot := .never
  bot_le := Outcome.never_below

theorem Outcome.eq_of_below (x y : Outcome H α) (back : x ≠ .never) (below : x.Below y) : x = y :=
  below.resolve_left back

instance : Flat (Outcome H α) where
  eq_of_le := fun {x y} => Outcome.eq_of_below x y

end Flat

/-! ### Scripts -/

/-- A call as the host gets it. -/
structure Invocation (H : Type) where
  world : World H
  free : Nat
  this : JsVal
  func : JsVal
  args : List JsVal

/-- The host with these functions. -/
def Host.withCall (host : Host H) (call : Invocation H → Outcome H JsVal) : Host H :=
  { host with call := fun w free this func args => call ⟨w, free, this, func, args⟩ }

/-- What a function of the script does, as far as `require` is concerned. -/
inductive Script (H : Type) where
  | returns (v : JsVal)
  | throws (v : JsVal)
  /-- Work that no `require` is part of. -/
  | step (act : World H → World H) (next : World H → Script H)
  | require (func : Nat) (arg : JsVal) (next : Except JsVal JsVal → World H → Script H)

namespace Script

variable (require : World H → Nat → JsVal → Outcome H JsVal)

def run : Script H → World H → Outcome H JsVal
  | .returns v, w => .returns v w 0
  | .throws v, w => .throws v w 0
  | .step act next, w => (next (act w)).run (act w)
  | .require func arg next, w =>
    match require w func arg with
    | .returns v w' _ => (next (.ok v) w').run w'
    | .throws v w' _ => (next (.error v) w').run w'
    | .never => .never

/-- The steps of the script are among these. -/
def Steps (R : World H → World H → Prop) : Script H → Prop
  | .returns _ => True
  | .throws _ => True
  | .step act next => (∀ w, R w (act w)) ∧ ∀ w, (next w).Steps R
  | .require _ _ next => ∀ r w, (next r w).Steps R

/-- What the script returns is among these. -/
def Yields (P : JsVal → Prop) : Script H → Prop
  | .returns v => P v
  | .throws _ => True
  | .step _ next => ∀ w, (next w).Yields P
  | .require _ _ next => ∀ r w, (next r w).Yields P

variable {require} {R : World H → World H → Prop} {script : Script H}

/-- A run goes where its steps and its calls of `require` go. -/
theorem run_within (refl : ∀ w, R w w) (trans : ∀ {w₁ w₂ w₃}, R w₁ w₂ → R w₂ w₃ → R w₁ w₃)
    (requires : ∀ w func arg, (require w func arg).Within R w) (steps : script.Steps R)
    (w : World H) : (script.run require w).Within R w := by
  have later : ∀ {w₁ w₂} {outcome : Outcome H JsVal}, R w₁ w₂ → outcome.Within R w₂ →
      outcome.Within R w₁ := by
    intro w₁ w₂ outcome first rest
    cases outcome with
    | returns v w₃ reserved => exact trans first rest
    | throws v w₃ reserved => exact trans first rest
    | never => trivial
  induction script generalizing w with
  | returns v => exact refl w
  | throws v => exact refl w
  | step act next ih => exact later (steps.1 w) (ih _ (steps.2 _) _)
  | require func arg next ih =>
    have called := requires w func arg
    rw [run]
    cases ran : require w func arg with
    | returns v w' reserved =>
      rw [ran] at called
      exact later called (ih _ _ (steps _ _) _)
    | throws v w' reserved =>
      rw [ran] at called
      exact later called (ih _ _ (steps _ _) _)
    | never => trivial

/-- A run comes back if its calls of `require` do, in the worlds that it goes through. -/
theorem run_returns (trans : ∀ {w₁ w₂ w₃}, R w₁ w₂ → R w₂ w₃ → R w₁ w₃)
    (requires : ∀ w func arg, (require w func arg).Within R w) (steps : script.Steps R)
    {w₀ w : World H} (reached : R w₀ w)
    (back : ∀ w func arg, R w₀ w → require w func arg ≠ .never) : script.run require w ≠ .never := by
  induction script generalizing w with
  | returns v => exact nofun
  | throws v => exact nofun
  | step act next ih => exact ih _ (steps.2 _) (trans reached (steps.1 w))
  | require func arg next ih =>
    have called := requires w func arg
    rw [run]
    cases ran : require w func arg with
    | returns v w' reserved =>
      rw [ran] at called
      exact ih _ _ (steps _ _) (trans reached called)
    | throws v w' reserved =>
      rw [ran] at called
      exact ih _ _ (steps _ _) (trans reached called)
    | never => exact absurd ran (back w func arg reached)

theorem run_yields {P : JsVal → Prop} (yields : script.Yields P) {w w' : World H} {v : JsVal}
    {reserved : Nat} (ran : script.run require w = .returns v w' reserved) : P v := by
  induction script generalizing w with
  | returns v =>
    cases ran
    exact yields
  | throws v => cases ran
  | step act next ih => exact ih _ (yields _) ran
  | require func arg next ih =>
    rw [run] at ran
    cases called : require w func arg with
    | returns v w₁ reserved =>
      rw [called] at ran
      exact ih _ _ (yields _ _) ran
    | throws v w₁ reserved =>
      rw [called] at ran
      exact ih _ _ (yields _ _) ran
    | never =>
      rw [called] at ran
      cases ran

theorem run_mono {require' : World H → Nat → JsVal → Outcome H JsVal}
    (below : ∀ w func arg, require w func arg ≤ require' w func arg) (script : Script H)
    (w : World H) : script.run require w ≤ script.run require' w := by
  induction script generalizing w with
  | returns v => exact le_refl _
  | throws v => exact le_refl _
  | step act next ih => exact ih _ _
  | require func arg next ih =>
    rw [run, run]
    rcases below w func arg with never | same
    · rw [never]
      exact bot_le
    · rw [← same]
      cases require w func arg with
      | returns v w' reserved => exact ih _ _ _
      | throws v w' reserved => exact ih _ _ _
      | never => exact le_refl _

end Script

/-! ### Calls of `require` -/

/-- The world with a new error object; a message that the engine words itself is left out. -/
def withError (w : World H) (message : Option Bytes) : World H :=
  let w' := w.withNew { ObjShape.plain with error := true } none
  match message with
  | some text => w'.setOwn w.nextId (ascii "message") (some (.data (.string text) true true))
  | none => w'

/-- The value that is thrown for an error. -/
def thrownValue (w : World H) : DukError → JsVal × World H
  | .value v => (v, w)
  | .error message => (.object w.nextId, withError w message)
  | _ => (.object w.nextId, withError w none)

section Calls

variable (host : Host (ModuleHeap H))
  (garbage : World (ModuleHeap H) → Vector UInt8 moduleIdLimit)

/-- The `require` function `func` is called, in a frame of its own. -/
def callRequire (w : World (ModuleHeap H)) (func : Nat) (arg : JsVal) :
    Outcome (ModuleHeap H) JsVal :=
  match dukRequire host garbage func ⟨[arg], frameSize, w⟩ with
  | .ok _ ctx => .returns (ctx.get 0) ctx.world 0
  | .error (.thrown e) ctx =>
    let (v, w') := thrownValue ctx.world e
    .throws v w' 0
  | .error .noReturn _ => .never

variable {duktape cache : Nat} {host garbage} {w : World (ModuleHeap H)} {func : Nat} {arg : JsVal}

theorem withError_grows (w : World (ModuleHeap H)) (message : Option Bytes) :
    Grows duktape cache w (withError w message) := by
  have made : ∀ obj < w.nextId, (w.withNew { ObjShape.plain with error := true } none).objects obj =
      w.objects obj := fun obj old => withNew_objects_old old _ _
  cases message with
  | none => exact grows_of_old rfl made (Nat.le_succ _)
  | some text =>
    refine grows_of_old rfl (fun obj old => ?_) (Nat.le_succ _)
    rw [withError, objects_setOwn_of_ne (Nat.ne_of_lt old)]
    exact made obj old

theorem thrownValue_grows (w : World (ModuleHeap H)) (e : DukError) :
    Grows duktape cache w (thrownValue w e).2 := by
  cases e with
  | value v => exact GrowsBut.refl w
  | error message => exact withError_grows w message
  | rangeError => exact withError_grows w none
  | typeError => exact withError_grows w none

theorem callRequire_within (hosts : CacheHost duktape cache host) :
    (callRequire host garbage w func arg).Within (Grows duktape cache) w := by
  have fresh : At [arg] (· = w) ⟨[arg], frameSize, w⟩ := ⟨rfl, Nat.le_refl _, rfl⟩
  have grows := dukRequire_grows garbage func hosts fresh
  rw [callRequire]
  cases ran : dukRequire host garbage func ⟨[arg], frameSize, w⟩ with
  | ok u ctx =>
    rw [ran] at grows
    exact grows nofun
  | error e ctx =>
    cases e with
    | thrown e =>
      rw [ran] at grows
      exact (grows nofun).trans (thrownValue_grows _ e)
    | noReturn => trivial

/-- The argument has to be a string. -/
theorem callRequire_asked (hosts : CacheHost duktape cache host)
    (framework : Framework duktape cache w) {v : JsVal} {w' : World (ModuleHeap H)} {reserved : Nat}
    (returned : callRequire host garbage w func arg = .returns v w' reserved) :
    ∃ reqId, arg = .string reqId := by
  have fresh : At [arg] (· = w) ⟨[arg], frameSize, w⟩ := ⟨rfl, Nat.le_refl _, rfl⟩
  have ends := dukRequire_ends garbage func hosts framework _ fresh
  rw [callRequire] at returned
  cases ran : dukRequire host garbage func ⟨[arg], frameSize, w⟩ with
  | ok u ctx =>
    rw [ran] at ends
    cases ends with
    | cached resolved => exact ⟨_, resolved.asked⟩
    | loads resolved => exact ⟨_, resolved.asked⟩
  | error e ctx =>
    rw [ran] at returned
    cases e <;> cases returned

end Calls

/-! ### How many modules are missing -/

section Missing

variable (cache : Nat)

/-- The number of ids under which no module is loaded. -/
noncomputable def missing (w : World (ModuleHeap H)) : Nat :=
  {id : Bytes | id.length < moduleIdLimit ∧ loaded cache w id = none}.ncard

variable {duktape cache : Nat} {w w' : World (ModuleHeap H)}

theorem finite_missing : {id : Bytes | id.length < moduleIdLimit ∧ loaded cache w id = none}.Finite :=
  (List.finite_length_lt UInt8 moduleIdLimit).subset fun _ among => among.1

theorem still_missing (grows : Grows duktape cache w w') (framework : Framework duktape cache w)
    {id : Bytes} (absent : loaded cache w' id = none) : loaded cache w id = none := by
  cases entry : loaded cache w id with
  | none => rfl
  | some v =>
    rw [(grows framework).2 id v not_false entry] at absent
    cases absent

theorem missing_le (grows : Grows duktape cache w w') (framework : Framework duktape cache w) :
    missing cache w' ≤ missing cache w :=
  Set.ncard_le_ncard (fun _ ⟨short, absent⟩ => ⟨short, still_missing grows framework absent⟩)
    finite_missing

/-- There are fewer where a module has come to be loaded. -/
theorem missing_lt (grows : Grows duktape cache w w') (framework : Framework duktape cache w)
    (id : ModuleId) (absent : loaded cache w id.bytes = none) {v : JsVal}
    (entry : loaded cache w' id.bytes = some v) : missing cache w' < missing cache w := by
  refine Set.ncard_lt_ncard ⟨?_, fun all => ?_⟩ finite_missing
  · exact fun _ ⟨short, absent⟩ => ⟨short, still_missing grows framework absent⟩
  · obtain ⟨_, absent'⟩ := all (show id.bytes ∈ _ from ⟨id.within, absent⟩)
    rw [entry] at absent'
    cases absent'

theorem missing_lt_all (w : World (ModuleHeap H)) :
    missing cache w < {id : Bytes | id.length < moduleIdLimit}.ncard + 1 :=
  Nat.lt_succ_of_le (Set.ncard_le_ncard (fun _ among => among.1)
    (List.finite_length_lt UInt8 moduleIdLimit))

end Missing

/-! ### Calls that come back -/

section Back

variable {duktape cache : Nat} {host : Host (ModuleHeap H)} {w : World (ModuleHeap H)}
  {garbage : World (ModuleHeap H) → Vector UInt8 moduleIdLimit} {func : Nat} {arg : JsVal}
  {call : Invocation (ModuleHeap H) → Outcome (ModuleHeap H) JsVal}

/-- What the engine does on its own comes back. -/
structure Prompt (host : Host H) : Prop where
  reads : ∀ w free target key, host.readThrough w free target key ≠ .never
  compiles : ∀ w free mode src filename, host.compile w free mode src filename ≠ .never

/-- In a load, everything is called where one module less is missing. -/
theorem not_sticks_of_smaller (prompt : Prompt host) (framework : Framework duktape cache w)
    {w₁ : World (ModuleHeap H)} {l : Locals} (grows : Grows duktape cache w w₁)
    (absent : loaded cache w₁ l.id.bytes = none)
    (back : ∀ w' free this func args, Framework duktape cache w' →
      missing cache w' < missing cache w → host.call w' free this func args ≠ .never) :
    ¬ (beginning duktape cache host w₁ l).Sticks := by
  have framework₁ := (grows framework).1
  have begun : Grows duktape cache w₁ (beginLoad cache w₁ l.id.bytes) := grows_beginLoad absent
  intro sticks
  have smaller : ∀ w' free this func args, (beginning duktape cache host w₁ l).Reaches w' →
      host.call w' free this func args ≠ .never := by
    intro w' free this func args reached
    have framework₂ := (begun framework₁).1
    have entry := (reached framework₂).2 _ _ not_false (loaded_beginLoad l.id.bytes)
    refine back _ _ _ _ _ (reached framework₂).1 ?_
    exact Nat.lt_of_lt_of_le (missing_lt (begun.trans reached) framework₁ l.id absent entry)
      (missing_le grows framework)
  cases sticks with
  | read stops =>
    have prompt' : ∀ {target key w w'}, ¬ ReadFails host target key w .noReturn w' :=
      not_readFails_noReturn fun w free => prompt.reads w free _ _
    cases stops with
    | modSearch failed => exact prompt' failed
    | filename searched failed => exact prompt' failed
    | name evaluated failed => exact prompt' failed
    | current named failed => exact prompt' failed
    | exports succeeds failed => exact prompt' failed
  | search read reached never => exact smaller _ _ _ _ _ reached never
  | compile searched read never => exact prompt.compiles _ _ _ _ _ never
  | evaluate compiled reached never => exact smaller _ _ _ _ _ reached never
  | run named read reached never => exact smaller _ _ _ _ _ reached never

theorem callRequire_returns (hosts : CacheHost duktape cache host) (prompt : Prompt host)
    (framework : Framework duktape cache w)
    (back : ∀ w' free this func args, Framework duktape cache w' →
      missing cache w' < missing cache w → host.call w' free this func args ≠ .never) :
    callRequire host garbage w func arg ≠ .never := by
  have fresh : At [arg] (· = w) ⟨[arg], frameSize, w⟩ := ⟨rfl, Nat.le_refl _, rfl⟩
  have ends := dukRequire_ends garbage func hosts framework _ fresh
  rw [callRequire]
  cases ran : dukRequire host garbage func ⟨[arg], frameSize, w⟩ with
  | ok u ctx => exact nofun
  | error e ctx =>
    rw [ran] at ends
    cases e with
    | thrown e => exact nofun
    | noReturn =>
      exfalso
      cases ends with
      | load resolved absent fails =>
        cases fails with
        | stuck sticks =>
          exact not_sticks_of_smaller prompt framework resolved.grows absent back sticks
      | noRequireId failed =>
        exact not_readFails_noReturn (fun w free => prompt.reads w free _ _) failed
      | noExports resolved entry failed =>
        exact not_readFails_noReturn (fun w free => prompt.reads w free _ _) failed

/-! ### More calls below one another -/

section Mono

variable {call' : Invocation (ModuleHeap H) → Outcome (ModuleHeap H) JsVal}
  {base : Host (ModuleHeap H)}

theorem upTo_protect {x y : Outcome H JsVal} (below : x ≤ y) :
    UpTo Fault.noReturn x.protect y.protect := by
  rcases below with rfl | rfl
  · exact fun s => .inl ⟨s, rfl⟩
  · exact .refl _

theorem upTo_pcall (below : call ≤ call') (nargs : Nat) :
    UpTo .noReturn (pcall (base.withCall call) nargs) (pcall (base.withCall call') nargs) := by
  refine .next _ fun ctx => .ite ?_ (.refl _)
  exact (upTo_protect (below _)).bind fun _ => .refl _

theorem upTo_pcallMethod (below : call ≤ call') (nargs : Nat) :
    UpTo .noReturn (pcallMethod (base.withCall call) nargs)
      (pcallMethod (base.withCall call') nargs) := by
  refine .next _ fun ctx => .ite ?_ (.refl _)
  exact (upTo_protect (below _)).bind fun _ => .refl _

theorem upTo_callModSearch (below : call ≤ call') :
    UpTo .noReturn (callModSearch (base.withCall call)) (callModSearch (base.withCall call')) := by
  refine .next _ fun _ => (UpTo.refl (getPropStringAt base idxDuktape (ascii "modSearch"))).bind ?_
  exact fun _ => .next _ fun _ => .next _ fun _ => .next _ fun _ => .next _ fun _ =>
    upTo_pcall below 4

theorem upTo_callModule (below : call ≤ call') :
    UpTo .noReturn (callModule (base.withCall call)) (callModule (base.withCall call')) := by
  refine .next _ fun _ => .next _ fun _ => ?_
  refine (UpTo.refl (getPropStringAt base idxModule (ascii "exports"))).bind fun _ => ?_
  exact .next _ fun _ => upTo_pcallMethod below 3

theorem upTo_loadRegistered (below : call ≤ call') :
    UpTo .noReturn (loadRegistered (base.withCall call)) (loadRegistered (base.withCall call')) := by
  refine (upTo_callModSearch below).bind fun rc => .ite (.refl _) (.next _ fun found => ?_)
  cases found with
  | string src =>
    refine (UpTo.refl (compileModule base)).bind fun rc => .ite (.refl _) ?_
    refine (upTo_pcall below 0).bind fun rc => .ite (.refl _) ?_
    refine (UpTo.refl (nameModule base)).bind fun _ => ?_
    refine (upTo_callModule below).bind fun rc => .ite (.refl _) ?_
    exact .refl (returnExports base)
  | _ => exact .refl (returnExports base)

theorem upTo_dukRequire (below : call ≤ call') (func : Nat) :
    UpTo .noReturn (dukRequire (base.withCall call) garbage func)
      (dukRequire (base.withCall call') garbage func) := by
  refine (UpTo.refl (resolveRequested base garbage func)).bind fun _ => ?_
  refine (UpTo.refl (lookUpLoaded base)).bind fun found => .ite ?_ ?_
  · exact .refl (do let _ ← getPropString base 0 (ascii "exports"))
  · refine .next _ fun _ => .next _ fun _ => ?_
    exact (UpTo.refl (register base)).bind fun _ => upTo_loadRegistered below

theorem callRequire_mono (base : Host (ModuleHeap H))
    (garbage : World (ModuleHeap H) → Vector UInt8 moduleIdLimit) (below : call ≤ call') (w : World (ModuleHeap H)) (func : Nat)
    (arg : JsVal) : callRequire (base.withCall call) garbage w func arg ≤
      callRequire (base.withCall call') garbage w func arg := by
  rw [callRequire, callRequire]
  rcases upTo_dukRequire below func ⟨[arg], frameSize, w⟩ with ⟨ctx, cut⟩ | same
  · rw [cut]
    exact bot_le
  · rw [same]

end Mono

end Back

/-! ### The calls of a run -/

section Runs

/-- What the functions of the scripts do. -/
abbrev Code (H : Type) := World H → JsVal → JsVal → List JsVal → Script H

variable (duktape cache : Nat) (base : Host (ModuleHeap H))
  (garbage : World (ModuleHeap H) → Vector UInt8 moduleIdLimit) (code : Code (ModuleHeap H))

/-- One call, given what the calls below it come to. A missing argument is undefined. -/
def invoke (call : Invocation (ModuleHeap H) → Outcome (ModuleHeap H) JsVal)
    (i : Invocation (ModuleHeap H)) : Outcome (ModuleHeap H) JsVal :=
  let scripted := (code i.world i.this i.func i.args).run
    (callRequire (base.withCall call) garbage) i.world
  match i.func with
  | .object func =>
    if i.world.heap.isRequire func then
      callRequire (base.withCall call) garbage i.world func (i.args.getD 0 .undefined)
    else scripted
  | _ => scripted

/-- The rest of the host and the scripts leave the loaded modules to `require`. -/
structure LeavesModules : Prop where
  engine : CacheHost duktape cache base
  steps : ∀ w this func args, (code w this func args).Steps (Grows duktape cache)
  wrappers : ∀ w src filename func w₁, Framework duktape cache w →
    Compiled base w .eval src filename 0 func w₁ →
    (code w₁ .undefined func []).Yields (· ≠ .object cache)

variable {duktape cache base garbage code}

theorem invoke_cases {P : Outcome (ModuleHeap H) JsVal → Prop}
    {call : Invocation (ModuleHeap H) → Outcome (ModuleHeap H) JsVal}
    (i : Invocation (ModuleHeap H))
    (requires : ∀ func arg, i.args.getD 0 .undefined = arg →
      P (callRequire (base.withCall call) garbage i.world func arg))
    (scripted : P ((code i.world i.this i.func i.args).run
      (callRequire (base.withCall call) garbage) i.world)) :
    P (invoke base garbage code call i) := by
  rw [invoke]
  split
  · split
    · exact requires _ _ rfl
    · exact scripted
  · exact scripted

theorem invoke_mono : Monotone (invoke base garbage code) := by
  intro call call' below i
  have requires := callRequire_mono base garbage below
  simp only [invoke]
  split
  · split
    · exact requires _ _ _
    · exact Script.run_mono requires _ _
  · exact Script.run_mono requires _ _

/-- No call comes back as long as nothing is known of any. -/
theorem cacheHost_never (leaves : LeavesModules duktape cache base code) :
    CacheHost duktape cache (base.withCall ⊥) where
  respects := { leaves.engine.respects with call := fun _ _ _ _ _ => trivial }
  noPrototype := leaves.engine.noPrototype
  noSetter := leaves.engine.noSetter
  hidden := by
    rintro w src filename func w₁ v w₂ _ _ ⟨free, ⟨_, _, returned⟩ | ⟨_, _, threw⟩⟩
    · cases returned
    · cases threw

/-- If the calls below leave the loaded modules alone, so does a call. -/
theorem cacheHost_invoke (leaves : LeavesModules duktape cache base code)
    {call : Invocation (ModuleHeap H) → Outcome (ModuleHeap H) JsVal}
    (hosts : CacheHost duktape cache (base.withCall call)) :
    CacheHost duktape cache (base.withCall (invoke base garbage code call)) where
  respects := by
    refine { leaves.engine.respects with call := fun w free this func args => ?_ }
    refine invoke_cases (P := fun outcome => outcome.Within (Grows duktape cache) w)
      ⟨w, free, this, func, args⟩ (fun _ _ _ => callRequire_within hosts) ?_
    exact Script.run_within (R := Grows duktape cache) GrowsBut.refl GrowsBut.trans
      (fun _ _ _ => callRequire_within hosts) (leaves.steps _ _ _ _) w
  noPrototype := leaves.engine.noPrototype
  noSetter := leaves.engine.noSetter
  hidden := by
    rintro w src filename func w₁ v w₂ framework compiled
      ⟨free, ⟨_, reserved, returned⟩ | ⟨failed, _⟩⟩
    · obtain ⟨_, outcome⟩ := compiled
      have grows := outcome.within (leaves.engine.respects.compile _ _ _ _ _)
      revert returned
      refine invoke_cases (P := fun outcome => outcome = .returns v w₂ reserved → v ≠ .object cache)
        ⟨w₁, free, .undefined, func, []⟩ (fun func arg same returned => ?_) fun returned => ?_
      · obtain ⟨_, asked⟩ := callRequire_asked hosts (grows framework).1 returned
        rw [asked] at same
        cases same
      · exact Script.run_yields (leaves.wrappers _ _ _ _ _ framework ⟨_, outcome⟩) returned
    · cases failed

/-- Whatever is required from where, and however deep: nothing loaded is lost. -/
theorem unrolled_cacheHost (garbage : World (ModuleHeap H) → Vector UInt8 moduleIdLimit)
    (leaves : LeavesModules duktape cache base code) (n : Nat) :
    CacheHost duktape cache (base.withCall (unroll (invoke base garbage code) n)) :=
  unroll_induction (P := fun call => CacheHost duktape cache (base.withCall call))
    (cacheHost_never leaves) (fun _ hosts => cacheHost_invoke leaves hosts) n

theorem invoke_progress (garbage : World (ModuleHeap H) → Vector UInt8 moduleIdLimit)
    (leaves : LeavesModules duktape cache base code) (prompt : Prompt base) :
    Progress (invoke base garbage code) (fun call => CacheHost duktape cache (base.withCall call))
      (fun i => Framework duktape cache i.world) (fun i => missing cache i.world) := by
  intro call hosts i framework back
  have requires : ∀ w func arg, Grows duktape cache i.world w →
      callRequire (base.withCall call) garbage w func arg ≠ .never := by
    intro w func arg grows
    refine callRequire_returns hosts ⟨prompt.reads, prompt.compiles⟩ (grows framework).1 ?_
    intro w' free this func args framework' smaller
    exact back ⟨w', free, this, func, args⟩ framework'
      (Nat.lt_of_lt_of_le smaller (missing_le grows framework))
  refine invoke_cases (P := (· ≠ .never)) i (fun func arg _ => requires _ _ _ (GrowsBut.refl _)) ?_
  exact Script.run_returns (R := Grows duktape cache) GrowsBut.trans
    (fun _ _ _ => callRequire_within hosts) (leaves.steps _ _ _ _) (GrowsBut.refl _) requires

/-- Modules that require one another, around in circles too, make up one host whose calls come back
and lose no module; no other host has the same calls below its own. -/
theorem require_runs (leaves : LeavesModules duktape cache base code) (prompt : Prompt base) :
    ∃ call, CacheHost duktape cache (base.withCall call) ∧
      (∀ i, Framework duktape cache i.world →
        invoke base garbage code call i = call i ∧ call i ≠ .never) ∧
      ∀ call', invoke base garbage code call' = call' →
        ∀ i, Framework duktape cache i.world → call' i = call i := by
  have inv := unrolled_cacheHost garbage leaves
  have progress := invoke_progress garbage leaves prompt
  refine ⟨unroll (invoke base garbage code) ({id : Bytes | id.length < moduleIdLimit}.ncard + 1),
    inv _, fun i framework => ⟨?_, ?_⟩, fun call' solves i framework => ?_⟩
  · exact unroll_fixed invoke_mono inv progress framework (missing_lt_all _)
  · exact unroll_returns inv progress framework (missing_lt_all _)
  · exact eq_unroll invoke_mono inv progress solves framework (missing_lt_all _)

/-- A search for `a` that requires `b`, and one for any other module that requires `a`. -/
def circularCode : Code (ModuleHeap Unit) := fun _ _ func args =>
  match func, args with
  | .object 4, [.string id, .object f, _, _] =>
    .require f (.string (if id = ascii "a" then ascii "b" else ascii "a")) fun _ _ =>
      .returns .undefined
  | _, _ => .returns .undefined

theorem circularCode_leaves : LeavesModules 1 2 bareHost circularCode where
  engine := bareHost_cacheHost 1 2
  steps w this func args := by
    unfold circularCode
    split
    · exact fun _ _ => trivial
    · trivial
  wrappers w src filename func w₁ _ _ := by
    unfold circularCode
    split
    · exact fun _ _ => nofun
    · exact nofun

theorem require_runs_test : ∃ call, CacheHost 1 2 (bareHost.withCall call) ∧
    (∀ i, Framework 1 2 i.world →
      invoke bareHost (fun _ => Vector.replicate _ 0) circularCode call i = call i ∧
        call i ≠ .never) ∧
    ∀ call', invoke bareHost (fun _ => Vector.replicate _ 0) circularCode call' = call' →
      ∀ i, Framework 1 2 i.world → call' i = call i :=
  require_runs circularCode_leaves ⟨fun _ _ _ _ => nofun, fun _ _ _ _ _ => nofun⟩

end Runs

end DukBridge
