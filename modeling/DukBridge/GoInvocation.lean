import DukBridge.NativeLayout

/-!
# The arguments a Go function is called with

`callGoFunc` in two phases: the slots become an argument list or stop the call, and the
function called on the list decides the result. Between the two stands what
`Value.Call` checks.
-/
namespace DukBridge

variable {mem : Memory} {S σ : Type}

namespace GoFunc

/-- The numbers of arguments `callGoFunc` goes on with. -/
def Admits (f : GoFunc mem S) (nargs : Nat) : Prop :=
  if f.variadic then f.params.length - 1 ≤ nargs else nargs = f.params.length

instance (f : GoFunc mem S) (nargs : Nat) : Decidable (f.Admits nargs) :=
  inferInstanceAs (Decidable (if f.variadic then _ else _))

/-- The argument list for `Value.Call`. -/
def invocation (f : GoFunc mem S) : Option NativeArgs → Except DecodeStop (List GoArg)
  | none => if f.params.length = 0 || (f.variadic && f.params.length = 1) then .ok [] else
      .error .rejected
  | some ft =>
    let nargs := ft.chars.length
    if f.Admits nargs then
      (decodeRounds f ft.chars (ft.toPointerArray (2 * nargs)) nargs).map DecodeLoop.argv
    else .error .rejected

/-- What follows the argument phase. -/
def proceed (go : GoRuntime mem S σ) (f : GoFunc mem S) :
    Except DecodeStop (List GoArg) → StateM σ (Option NativeResult)
  | .ok argv => f.callWith go argv
  | .error .rejected => return some .none
  | .error .panicked => return none

/-- How many parameters take one argument each. -/
def fixed (f : GoFunc mem S) : Nat := if f.variadic then f.params.length - 1 else f.params.length

/-- The type `Value.Call` checks an argument against. -/
def target (f : GoFunc mem S) (i : Nat) : GoType :=
  if i < f.fixed then f.params.getD i .unsafePointer else (f.params.getD f.fixed .unsafePointer).elem

end GoFunc

theorem callGoFunc_eq (go : GoRuntime mem S σ) (f : GoFunc mem S) (ft : Option NativeArgs) :
    callGoFunc go f ft = f.proceed go (f.invocation ft) := by
  cases ft with
  | none =>
    rw [callGoFunc, GoFunc.invocation]
    split <;> rfl
  | some ft =>
    rw [callGoFunc, GoFunc.invocation]
    by_cases fits : f.Admits ft.chars.length
    · have fits' := fits
      rw [GoFunc.Admits] at fits'
      simp only [if_pos fits, if_pos fits']
      cases decodeRounds f ft.chars (ft.toPointerArray (2 * ft.chars.length)) ft.chars.length with
      | ok loop => rfl
      | error stop => cases stop <;> rfl
    · have fits' := fits
      rw [GoFunc.Admits] at fits'
      simp only [if_neg fits, if_neg fits']
      rfl

/-- `Value.Call` goes through when every argument can be assigned to its parameter. -/
def GoFunc.Assignable (f : GoFunc mem S) (argv : List GoArg) : Prop :=
  ∀ (i : Nat) (arg : GoArg), argv[i]? = some arg →
    ∃ t : GoType, arg.type = some t ∧ t.assignableTo f.implements (f.target i) = true

theorem accepts_iff {f : GoFunc mem S} {argv : List GoArg} :
    f.accepts argv = true ↔ f.Assignable argv := by
  rw [GoFunc.accepts, List.all_eq_true]
  constructor
  · intro each i arg here
    have member : (arg, i) ∈ argv.zipIdx := List.mem_zipIdx_iff_getElem?.mpr here
    have checked := each _ member
    cases type : arg.type with
    | none => simp [type] at checked
    | some t =>
      simp only [type] at checked
      exact ⟨t, rfl, checked⟩
  · rintro each ⟨arg, i⟩ member
    obtain ⟨t, type, checked⟩ := each i arg (List.mem_zipIdx_iff_getElem?.mp member)
    simp only [type]
    exact checked

/-! ### The type of a parameter -/

namespace GoFunc

/-- With `nargs` arguments every look-up of `getFuncArgType` agrees with `Value.Call`, and each
fixed parameter has its argument decoded for and converted against its own declared type. -/
structure LooksUpTypes (f : GoFunc mem S) (nargs : Nat) : Prop where
  types : ∀ i < nargs, f.argType i = f.target i
  fixed : ∀ bft arrArgs loop, decodeRounds f bft arrArgs nargs = .ok loop →
    ∀ i < nargs, i < f.fixed → ∃ (declared : GoType) (j j' : Nat) (arg : GoArg) (t : GoType),
      f.params[i]? = some declared ∧ loop.argv[i]? = some arg ∧
      decodeArg f (bft.getD i 0) declared arrArgs j = some (arg, j') ∧
      arg.type = some t ∧ t.convertibleTo f.implements declared = true

end GoFunc

/-- The boundary `argIndex < funNargs-2` lies one parameter too early; everywhere else it makes no
difference. -/
theorem argType_eq_target {f : GoFunc mem S} {i : Nat}
    (away : f.variadic = true → i + 2 ≠ f.params.length) : f.argType i = f.target i := by
  rw [GoFunc.argType, GoFunc.target, GoFunc.fixed]
  cases variadic : f.variadic with
  | false =>
    by_cases within : i < f.params.length
    · simp [within]
    · -- past the last parameter both look-ups fall back to the default
      simp [within]
      rfl
  | true =>
    have apart := away variadic
    simp only [if_true]
    by_cases within : i < f.params.length - 1
    · rw [if_pos (by omega), if_pos within]
    · rw [if_neg (by omega), if_neg within]

theorem argType_of_last_fixed {f : GoFunc mem S} {i : Nat} (variadic : f.variadic = true)
    (last : i + 2 = f.params.length) :
    f.argType i = (f.params.getD (i + 1) .unsafePointer).elem := by
  have place : f.params.length - 1 = i + 1 := by omega
  rw [GoFunc.argType]
  simp only [variadic, if_true]
  rw [if_neg (by omega), place]

theorem target_of_fixed {f : GoFunc mem S} {i : Nat} (within : i < f.fixed) :
    f.target i = f.params.getD i .unsafePointer := if_pos within

/-- The last parameter before the variadic one has the type of the variadic elements. -/
def GoFunc.LastFixedFits (f : GoFunc mem S) : Prop :=
  f.variadic = true → ∀ i, i + 2 = f.params.length →
    f.params.getD i .unsafePointer = (f.params.getD (i + 1) .unsafePointer).elem

theorem lastFixed {f : GoFunc mem S} {i : Nat} (variadic : f.variadic = true)
    (last : i + 2 = f.params.length) : i < f.fixed := by
  rw [GoFunc.fixed, if_pos variadic]
  omega

theorem GoFunc.LastFixedFits.argType {f : GoFunc mem S} (fits : f.LastFixedFits) (i : Nat) :
    f.argType i = f.target i := by
  by_cases at' : f.variadic = true ∧ i + 2 = f.params.length
  · obtain ⟨variadic, last⟩ := at'
    rw [argType_of_last_fixed variadic last, target_of_fixed (lastFixed variadic last),
      fits variadic i last]
  · exact argType_eq_target fun variadic last => at' ⟨variadic, last⟩

/-- An argument the loop has stored was decoded for the type it was checked against. -/
theorem decodeRounds_stored {f : GoFunc mem S} {bft : Bytes} {arrArgs : List SlotVal} {n : Nat}
    {loop : DecodeLoop} (reached : decodeRounds f bft arrArgs n = .ok loop) :
    loop.i = n ∧ loop.argv.length = n ∧ ∀ i < n, ∃ (j j' : Nat) (arg : GoArg) (t : GoType),
      loop.argv[i]? = some arg ∧ decodeArg f (bft.getD i 0) (f.argType i) arrArgs j = some (arg, j') ∧
      arg.type = some t ∧ t.convertibleTo f.implements (f.argType i) = true := by
  induction n generalizing loop with
  | zero =>
    cases reached
    exact ⟨rfl, rfl, fun i impossible => absurd impossible (Nat.not_lt_zero i)⟩
  | succ n ih =>
    rw [decodeRounds] at reached
    cases first : decodeRounds f bft arrArgs n with
    | error stop =>
      rw [first] at reached
      cases reached
    | ok before =>
      rw [first] at reached
      change decodeRound f bft _ before = .ok loop at reached
      obtain ⟨at', count, stored⟩ := ih first
      rw [decodeRound, at'] at reached
      cases decoded : decodeArg f (bft.getD n 0) (f.argType n) arrArgs before.j with
      | none =>
        rw [decoded] at reached
        cases reached
      | some found =>
        obtain ⟨arg, j'⟩ := found
        rw [decoded] at reached
        cases type : arg.type with
        | none =>
          simp only [type] at reached
          cases reached
        | some t =>
          simp only [type] at reached
          split at reached
          · next convertible =>
            cases reached
            refine ⟨rfl, by simp [count], fun i within => ?_⟩
            -- the new argument stands behind those of the rounds before
            rcases Nat.lt_or_eq_of_le (Nat.lt_succ_iff.mp within) with earlier | rfl
            · rw [List.getElem?_append_left (by omega)]
              exact stored i earlier
            · refine ⟨before.j, j', arg, t, ?_, decoded, type, convertible⟩
              rw [← count, List.getElem?_concat_length]
          · cases reached

/-- For every Go function type and every number of arguments it admits, `getFuncArgType` gives the
type `Value.Call` checks against exactly when the last fixed parameter of a variadic function has
the type of the variadic elements. -/
theorem getFuncArgType_lookup (f : GoFunc mem S) (nargs : Nat) (admitted : f.Admits nargs) :
    f.LooksUpTypes nargs ↔ f.LastFixedFits := by
  constructor
  · intro looksUp variadic i last
    rw [GoFunc.Admits, if_pos variadic] at admitted
    rw [← target_of_fixed (lastFixed variadic last), ← looksUp.types i (by omega),
      argType_of_last_fixed variadic last]
  · intro fits
    refine ⟨fun i _ => fits.argType i, fun bft arrArgs loop reached i within isFixed => ?_⟩
    obtain ⟨_, _, stored⟩ := decodeRounds_stored reached
    obtain ⟨j, j', arg, t, here, decoded, type, convertible⟩ := stored i within
    have inside : i < f.params.length := by
      rw [GoFunc.fixed] at isFixed
      split at isFixed <;> omega
    have own : f.argType i = f.params[i] := by
      rw [fits.argType, target_of_fixed isFixed, List.getD_eq_getElem?_getD, List.getElem?_eq_getElem inside,
        Option.getD_some]
    rw [own] at decoded convertible
    exact ⟨f.params[i], j, j', arg, t, List.getElem?_eq_getElem inside, here, decoded, type,
      convertible⟩

/-- func(int, ...int) -/
def summands : GoFunc (fun _ => 0) Unit where
  params := [.int .int, .slice (.int .int)]
  variadic := true
  call _ := []
  implements _ _ := false
  unmarshal _ := none

theorem getFuncArgType_lookup_summands : summands.Admits 3 ∧ summands.LooksUpTypes 3 := by
  have fits : summands.LastFixedFits := by
    intro _ i last
    obtain rfl : i = 0 := by simpa [summands] using last
    rfl
  exact ⟨by decide, (getFuncArgType_lookup summands 3 (by decide)).mpr fits⟩

/-- func(string, ...int) -/
def labelledInts : GoFunc (fun _ => 0) Unit where
  params := [.string, .slice (.int .int)]
  variadic := true
  call _ := []
  implements _ _ := false
  unmarshal _ := none

/-- Its first argument is looked up as an int. -/
theorem labelledInts_lookup :
    ¬ ∀ (f : GoFunc (fun _ => 0) Unit) (nargs : Nat), f.Admits nargs → f.LooksUpTypes nargs := by
  intro each
  have looked := (each labelledInts 1 (by decide)).types 0 (by decide)
  exact absurd looked (by decide)

end DukBridge
