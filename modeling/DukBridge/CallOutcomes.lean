import DukBridge.HostErrors

/-!
# What a call leaves for the callback

A host call compiles, calls and protects. When it gets as far as a value, the value is how a
script or a function completed, or the error object for a file that is not there.
-/
namespace DukBridge

open Effect

variable {H : Type} {host : Host H}

/-! ### Protected calls -/

theorem ends_of_protect {outcome : Outcome H JsVal} {s t : Ctx H} {v : JsVal} {rc : Int32}
    (ran : outcome.protect s = .ok (v, rc) t) :
    ∃ c, Ends outcome s c t ∧ v = c.value ∧ rc = if c.isAbrupt then 1 else 0 := by
  cases outcome with
  | returns a w reserved =>
    cases ran
    exact ⟨.normal _, .normal rfl, rfl, rfl⟩
  | throws e w reserved =>
    cases ran
    exact ⟨.abrupt _, .abrupt rfl, rfl, rfl⟩
  | never => cases ran

theorem compiled_of_ran {mode : CompileMode} {src : Option Bytes} {s t : Ctx H} {rc : Int32}
    (ran : pcompileLstring host mode src s = .ok rc t) : ∃ c u, s.height + 1 ≤ s.reserve ∧
      Ends (host.compile s.world s.free mode src none) s c u ∧ t = u.pushed c.value ∧
      rc = if c.isAbrupt then 1 else 0 := by
  obtain ⟨_, s', room, rest⟩ := bind_eq_ok.mp ran
  obtain ⟨room, rfl⟩ := requireRoom_eq_ok.mp room
  rw [bind_run, get_run] at rest
  obtain ⟨⟨v, _⟩, u, compiled, rest⟩ := bind_eq_ok.mp rest
  obtain ⟨c, ends, rfl, rfl⟩ := ends_of_protect compiled
  obtain ⟨_, _, pushed, last⟩ := bind_eq_ok.mp rest
  obtain ⟨_, rfl⟩ := push_eq_ok.mp pushed
  cases last
  exact ⟨c, u, room, ends, rfl, rfl⟩

theorem evaluates_of_ran {src : Option Bytes} {s t : Ctx H} {rc : Int32}
    (ran : pevalLstring host src s = .ok rc t) :
    ∃ c, Evaluates host src s c t ∧ rc = if c.isAbrupt then 1 else 0 := by
  obtain ⟨_, mid, compiled, rest⟩ := bind_eq_ok.mp ran
  obtain ⟨c, u, room, ends, rfl, rfl⟩ := compiled_of_ran compiled
  cases c with
  | abrupt e =>
    cases rest
    exact ⟨.abrupt e, .syntaxError room ends, rfl⟩
  | normal f =>
    obtain ⟨_, _, required, rest⟩ := bind_eq_ok.mp rest
    obtain ⟨slot, rfl⟩ := requireRoom_eq_ok.mp required
    rw [bind_run, get_run] at rest
    obtain ⟨⟨v, _⟩, after, called, rest⟩ := bind_eq_ok.mp rest
    obtain ⟨c, ended, rfl, rfl⟩ := ends_of_protect called
    obtain ⟨stack, _⟩ := ends_stack ended
    -- the function that was compiled makes way for the completion value
    dsimp only at rest
    rw [bind_ok (setAt_run 0 _), stack] at rest
    cases rest
    exact ⟨c, .ran room ends slot (ends_frame ended u.stack), rfl⟩

theorem calls_of_ran {argc : Nat} {s t : Ctx H} {rc : Int32} (ran : pcall host argc s = .ok rc t) :
    ∃ c, Calls host argc s c t ∧ rc = if c.isAbrupt then 1 else 0 := by
  rw [pcall, bind_run, get_run] at ran
  dsimp only at ran
  split at ran
  · next arguments =>
    obtain ⟨⟨v, _⟩, after, called, rest⟩ := bind_eq_ok.mp ran
    obtain ⟨c, ends, rfl, rfl⟩ := ends_of_protect called
    obtain ⟨_, _, popped, rest⟩ := bind_eq_ok.mp rest
    obtain ⟨_, rfl⟩ := popN_eq_ok.mp popped
    obtain ⟨_, _, pushed, last⟩ := bind_eq_ok.mp rest
    obtain ⟨slot, rfl⟩ := push_eq_ok.mp pushed
    cases last
    obtain ⟨stack, _⟩ := ends_stack ends
    have room : s.height ≤ argc + after.reserve := by
      simp only [Ctx.height, stack, List.length_drop] at slot ⊢
      omega
    refine ⟨c, ?_, rfl⟩
    rw [Ctx.pushed]
    dsimp only
    rw [stack]
    exact .ended arguments room ends
  · cases ran

/-! ### The evaluation -/

variable (host) in
/-- What a call leaves for the callback. For a file that is not there it is the error object that
the C code makes, as if the script had thrown it. -/
inductive Leaves (s : Ctx H) : EntryPoint → Completion → Ctx H → Prop where
  | completes {entry c t} (completes : Completes host entry s c t) : Leaves s entry c t
  | notFound {scriptFile e t} (missing : host.readFileContent scriptFile = .error (-1))
      (room : s.height + 1 ≤ s.reserve)
      (made : Ends (host.errorObject s.world s.free (scriptFile ++ ascii " not found")) s
        (.normal e) t) : Leaves s (.evalFile scriptFile) (.abrupt e) (t.pushed e)

theorem leaves_top {entry : EntryPoint} {s t : Ctx H} {c : Completion}
    (leaves : Leaves host s entry c t) : t.get 0 = c.value := by
  cases leaves with
  | completes completes => exact (completes_top completes).1
  | notFound _ _ _ => rfl

theorem evaluation_of_ran {src : Option Bytes} {s t : Ctx H} {status : Int32} {completed : Bool}
    (evaluated : (do
      let ret ← pevalLstring host src
      return (if ret = 0 then 0 else -1, true) : Duk H (Int32 × Bool)) s =
        .ok (status, completed) t) :
    ∃ c, Evaluates host src s c t ∧ status = if c.isAbrupt then -1 else 0 := by
  obtain ⟨rc, _, ran, same⟩ := bind_eq_ok.mp evaluated
  cases same
  obtain ⟨c, evaluates, rfl⟩ := evaluates_of_ran ran
  refine ⟨c, evaluates, ?_⟩
  cases c.isAbrupt <;> rfl

theorem call_of_ran {fmt : Option Bytes} {argv : List Word} {s t : Ctx H} {status : Int32}
    {completed : Bool}
    (evaluated : (do return (← pushArgsAndPcall host fmt argv, true) : Duk H (Int32 × Bool)) s =
      .ok (status, completed) t) :
    ∃ argc pushed c, pushCallArgs host fmt argv s = .ok argc pushed ∧ Calls host argc pushed c t ∧
      status = if c.isAbrupt then -2 else 0 := by
  obtain ⟨_, _, ran, same⟩ := bind_eq_ok.mp evaluated
  cases same
  obtain ⟨argc, pushed, arguments, called⟩ := bind_eq_ok.mp ran
  obtain ⟨_, _, called, same⟩ := bind_eq_ok.mp called
  cases same
  obtain ⟨c, calls, rfl⟩ := calls_of_ran called
  refine ⟨argc, pushed, c, arguments, calls, ?_⟩
  cases c.isAbrupt <;> rfl

/-- The object that is pushed is the one that the engine makes. -/
theorem pushErrorObject_ends {message : Bytes} {s t : Ctx H} {u : Unit} :
    pushErrorObject host message s = .ok u t ↔ ∃ e made, s.height + 1 ≤ s.reserve ∧
      Ends (host.errorObject s.world s.free message) s (.normal e) made ∧ t = made.pushed e := by
  constructor
  · intro pushes
    obtain ⟨_, _, required, rest⟩ := bind_eq_ok.mp pushes
    obtain ⟨room, rfl⟩ := requireRoom_eq_ok.mp required
    rw [bind_run, get_run] at rest
    obtain ⟨e, after, made, pushed⟩ := bind_eq_ok.mp rest
    obtain ⟨w, reserved, outcome, rfl⟩ := outcome_run_eq_ok.mp made
    obtain ⟨_, rfl⟩ := push_eq_ok.mp pushed
    exact ⟨e, _, room, .normal outcome, rfl⟩
  · rintro ⟨e, made, room, ends, rfl⟩
    obtain ⟨stack, reserve⟩ := ends_stack ends
    have slot : made.height + 1 ≤ made.reserve := by
      rw [Ctx.height, stack]
      exact Nat.le_trans room reserve
    cases ends with
    | @normal _ w reserved outcome =>
      have ran : (host.errorObject s.world s.free message).run s =
          .ok e ⟨s.stack, s.reserve + reserved, w⟩ :=
        outcome_run_eq_ok.mpr ⟨w, reserved, outcome, rfl⟩
      have required : requireRoom 1 s = .ok () s := requireRoom_eq_ok.mpr ⟨room, rfl⟩
      rw [pushErrorObject, bind_ok required, bind_ok (get_run s), bind_ok ran]
      exact push_eq_ok.mpr ⟨slot, rfl⟩

theorem leaves_of_evaluate {entry : EntryPoint} {s t : Ctx H} {status : Int32}
    (evaluated : entry.evaluate host true s = .ok (status, true) t) :
    ∃ c, Leaves host s entry c t ∧ status = if c.isAbrupt then entry.failure else 0 := by
  cases entry with
  | eval jsCode =>
    obtain ⟨c, evaluates, status⟩ := evaluation_of_ran evaluated
    exact ⟨c, .completes (.eval evaluates), status⟩
  | evalFile scriptFile =>
    rw [EntryPoint.evaluate] at evaluated
    cases read : host.readFileContent scriptFile with
    | ok src =>
      rw [read] at evaluated
      obtain ⟨c, evaluates, status⟩ := evaluation_of_ran evaluated
      exact ⟨c, .completes (.evalFile read evaluates), status⟩
    | error ret =>
      simp only [read, and_true] at evaluated
      split at evaluated
      · next missing =>
        subst missing
        obtain ⟨_, _, pushes, same⟩ := bind_eq_ok.mp evaluated
        cases same
        obtain ⟨e, made, room, ends, rfl⟩ := pushErrorObject_ends.mp pushes
        exact ⟨.abrupt e, .notFound read room ends, rfl⟩
      · cases evaluated
  | callRegisteredFunc funcName fmt argv =>
    obtain ⟨bound, found, looked, called⟩ := bind_eq_ok.mp evaluated
    cases bound with
    | false => cases called
    | true =>
      obtain ⟨argc, pushed, c, arguments, calls, status⟩ := call_of_ran called
      exact ⟨c, .completes (.callRegisteredFunc looked arguments calls), status⟩
  | callFileFunc scriptFile fmt argv =>
    rw [EntryPoint.evaluate] at evaluated
    cases read : host.readFileContent scriptFile with
    | ok src =>
      rw [read] at evaluated
      obtain ⟨rc, found, compiled, called⟩ := bind_eq_ok.mp evaluated
      by_cases compiles : rc = 0
      · subst compiles
        obtain ⟨argc, pushed, c, arguments, calls, status⟩ := call_of_ran called
        exact ⟨c, .completes (.callFileFunc read compiled arguments calls), status⟩
      · -- what does not compile has no value
        rw [if_pos compiles] at called
        obtain ⟨_, _, _, called⟩ := bind_eq_ok.mp called
        obtain ⟨_, _, _, impossible⟩ := bind_eq_ok.mp called
        cases impossible
    | error ret =>
      rw [read] at evaluated
      cases evaluated
  | callEcmascriptFunc ecmaFunc fmt argv =>
    obtain ⟨live, found, loaded, called⟩ := bind_eq_ok.mp evaluated
    obtain ⟨argc, pushed, c, arguments, calls, status⟩ := call_of_ran called
    exact ⟨c, .completes (.callEcmascriptFunc loaded arguments calls), status⟩

/-- An evaluation has a value for the callback exactly if the call leaves one. -/
theorem evaluate_iff_leaves {entry : EntryPoint} {s t : Ctx H} {status : Int32} :
    entry.evaluate host true s = .ok (status, true) t ↔
      ∃ c, Leaves host s entry c t ∧ status = if c.isAbrupt then entry.failure else 0 := by
  constructor
  · exact leaves_of_evaluate
  · rintro ⟨c, leaves, rfl⟩
    cases leaves with
    | completes completes => exact evaluate_of_completes completes
    | @notFound scriptFile e made missing room ends =>
      have pushes : pushErrorObject host (scriptFile ++ ascii " not found") s =
          .ok () (made.pushed e) := pushErrorObject_ends.mpr ⟨e, made, room, ends, rfl⟩
      rw [EntryPoint.evaluate, missing]
      exact bind_ok pushes _

end DukBridge
