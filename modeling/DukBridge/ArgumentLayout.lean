import DukBridge.GoToC
import DukBridge.Lib.SlotWalk
import DukBridge.PushArgs

/-!
# Slots written by parseArgs and read by push_args_and_call_func

Encoder and decoder are related through the packed-array library: what is written for
an argument are its cells, and the decoder walks by the width each format character has
in its own `switch`.
-/
namespace DukBridge

open SlotWalk

/-- How far the decoder's `switch` moves on a format character. -/
def slotsRead (c : UInt8) : Nat :=
  match ArgFormat.ofCode c with
  | some .none | some .bool | some .int | some .double | some .zstring | some .ecmafunc => 1
  | some .lstring | some .error | some .buffer | some .mobject | some .jarray | some .jobject
  | none => 2

theorem readArg_index (c : UInt8) (argv : List Word) (i : Nat) :
    (readArg c argv i).2 = i + slotsRead c := by
  unfold readArg slotsRead
  cases ArgFormat.ofCode c with
  | none => rfl
  | some f => cases f <;> rfl

/-- The decoder's index into `argv` when it reaches format character `i`. -/
def decoderIndex (fmt : Bytes) (argv : List Word) : Nat → Nat
  | 0 => 0
  | i + 1 => (readArg (fmt.getD i 0) argv (decoderIndex fmt argv i)).2

/-- The slots the loop stores for an argument. -/
def ParsedArg.cells (out : ParsedArg) : List Word :=
  if storedAsPair out.argType then [out.pLen, out.p] else [out.val]

/-- What `parseArg` produced, in the terms of the decoder. -/
def ParsedArg.payload (out : ParsedArg) : CArg :=
  match out.argType with
  | .none => .none
  | .bool => .bool (intOfPtr out.val)
  | .int => .int (intOfPtr out.val)
  | .double => .double (voidp2double out.val)
  | .zstring => .zstring out.val
  | .lstring => .lstring out.pLen out.p
  | .error => .error out.pLen out.p
  | .buffer => .buffer out.pLen out.p
  | .ecmafunc => .ecmafunc out.val
  | .mobject => .mobject out.pLen out.p
  | .jarray | .jobject => .json out.pLen out.p

variable {mem : Memory} {S σ : Type} (go : GoRuntime mem S σ)

/-- The variables after each round of the encoder. -/
def parsedArgs : List (GoVal mem S) → ParsedArg → σ → List ParsedArg
  | [], _, _ => []
  | arg :: rest, out, st =>
    let parsed := (parseArg go arg out).run st
    parsed.1 :: parsedArgs rest parsed.1 parsed.2

theorem parsedArgs_length (args : List (GoVal mem S)) (out : ParsedArg) (st : σ) :
    (parsedArgs go args out st).length = args.length := by
  induction args generalizing out st with
  | nil => rfl
  | cons arg rest ih => simp [parsedArgs, ih]

theorem parsedArgs_take (args : List (GoVal mem S)) (out : ParsedArg) (st : σ) (i : Nat) :
    parsedArgs go (args.take i) out st = (parsedArgs go args out st).take i := by
  induction args generalizing out st i with
  | nil => simp [parsedArgs]
  | cons arg rest ih =>
    cases i with
    | zero => rfl
    | succ i => simp [parsedArgs, ih]

/-- An argument is parsed into the variables as the one before it left them. -/
theorem parsedArgs_get {args : List (GoVal mem S)} {i : Nat} {arg : GoVal mem S}
    (here : args[i]? = some arg) (out : ParsedArg) (st : σ) :
    ∃ st', (parsedArgs go args out st)[i]? =
      some ((parseArg go arg (((parsedArgs go args out st).take i).getLastD out)).run st').1 := by
  induction args generalizing i out st with
  | nil => simp at here
  | cons first rest ih =>
    cases i with
    | zero =>
      cases here
      exact ⟨st, rfl⟩
    | succ i =>
      obtain ⟨st', parsed⟩ := ih here ((parseArg go first out).run st).1
        ((parseArg go first out).run st).2
      refine ⟨st', ?_⟩
      rw [parsedArgs, List.getElem?_cons_succ, List.take_succ_cons, List.getLastD_cons, parsed]

/-- The state of the encoder's loop after the outputs `outs`. -/
structure Stored (nargs : Nat) (outs : List ParsedArg) (loop : ParseLoop) : Prop where
  i : loop.i = outs.length
  j : loop.j = (outs.map ParsedArg.cells).flatten.length
  argv : loop.argv = (outs.map ParsedArg.cells).flatten ++
    List.replicate (nargs * 2 - (outs.map ParsedArg.cells).flatten.length) 0
  fmt : loop.fmt = outs.map (fun out => out.argType.code) ++
    List.replicate (nargs + 1 - outs.length) 0
  last : loop.out = outs.getLastD (ParseLoop.start nargs).out

theorem stored_start (nargs : Nat) : Stored nargs [] (ParseLoop.start nargs) :=
  ⟨rfl, rfl, by simp [ParseLoop.start], by simp [ParseLoop.start], rfl⟩

theorem cells_length_le (outs : List ParsedArg) :
    (outs.map ParsedArg.cells).flatten.length ≤ outs.length * 2 := by
  have widths : ∀ cells ∈ outs.map ParsedArg.cells, cells.length ≤ 2 := by
    intro cells member
    obtain ⟨out, _, rfl⟩ := List.mem_map.mp member
    unfold ParsedArg.cells
    split <;> simp
  have total := length_flatten_le widths
  rwa [List.length_map] at total

theorem set_after {α : Type} (done : List α) (x : α) (n : Nat) (y : α) :
    (done ++ List.replicate (n + 1) x).set done.length y = done ++ [y] ++ List.replicate n x := by
  rw [List.set_append_right _ _ (Nat.le_refl _), Nat.sub_self, List.replicate_succ, List.set_cons_zero,
    List.append_assoc, List.singleton_append]

theorem stored_store {nargs : Nat} {outs : List ParsedArg} {loop : ParseLoop}
    (stored : Stored nargs outs loop) (room : outs.length < nargs) (out : ParsedArg) :
    Stored nargs (outs ++ [out]) (loop.store out) := by
  have width := cells_length_le outs
  obtain ⟨i, j, argv, fmt, last⟩ := stored
  have fmtStored : loop.fmt.set loop.i out.argType.code =
      (outs ++ [out]).map (fun out => out.argType.code) ++
        List.replicate (nargs + 1 - (outs ++ [out]).length) 0 := by
    have more : nargs + 1 - outs.length = nargs - outs.length + 1 := by omega
    have codes : outs.length = (outs.map fun out => out.argType.code).length := by simp
    rw [fmt, i, more, codes, set_after]
    simp
  have cells : ((outs ++ [out]).map ParsedArg.cells).flatten =
      (outs.map ParsedArg.cells).flatten ++ out.cells := by simp
  unfold ParseLoop.store
  by_cases pair : storedAsPair out.argType = true
  · -- length and address, into the next two zeros
    have two : nargs * 2 - (outs.map ParsedArg.cells).flatten.length =
        nargs * 2 - ((outs.map ParsedArg.cells).flatten.length + 2) + 1 + 1 := by omega
    have next : (outs.map ParsedArg.cells).flatten.length + 1 =
        ((outs.map ParsedArg.cells).flatten ++ [out.pLen]).length := by simp
    simp only [pair, if_true]
    refine ⟨by simp [i], by simp [j, ParsedArg.cells, pair], ?_, fmtStored, by simp⟩
    rw [argv, j, two, set_after, next, set_after, cells]
    simp [ParsedArg.cells, pair]
  · -- a single value, which for an error is whatever the one before left in `val`
    have one : nargs * 2 - (outs.map ParsedArg.cells).flatten.length =
        nargs * 2 - ((outs.map ParsedArg.cells).flatten.length + 1) + 1 := by omega
    simp only [pair, if_false, Bool.false_eq_true]
    refine ⟨by simp [i], by simp [j, ParsedArg.cells, pair], ?_, fmtStored, by simp⟩
    rw [argv, j, one, set_after, cells]
    simp [ParsedArg.cells, pair]

theorem stored_from {nargs : Nat} {outs : List ParsedArg} {loop : ParseLoop}
    (stored : Stored nargs outs loop) (args : List (GoVal mem S))
    (room : outs.length + args.length ≤ nargs) (st : σ) :
    Stored nargs (outs ++ parsedArgs go args loop.out st)
      ((parseArgsFrom go args loop).run st).1 := by
  -- over what is left of the list, with the outputs so far
  induction args generalizing outs loop st with
  | nil =>
    rw [parsedArgs, List.append_nil]
    exact stored
  | cons arg rest ih =>
    simp only [List.length_cons] at room
    have next := ih (stored_store stored (by omega) ((parseArg go arg loop.out).run st).1)
      (by simp; omega) ((parseArg go arg loop.out).run st).2
    have out : (loop.store ((parseArg go arg loop.out).run st).1).out =
        ((parseArg go arg loop.out).run st).1 := by
      unfold ParseLoop.store
      split <;> rfl
    rw [out, List.append_assoc] at next
    exact next

/-! ### Lock step -/

/-- The loop of `parseArgs` after its first `i` rounds: argument `i` goes to slot `j`. -/
def encoderAt (args : List (GoVal mem S)) (st : σ) (i : Nat) : ParseLoop :=
  ((parseArgsLoop go args.length (args.take i)).run st).1

/-- Decoder and encoder agree about argument `i`: where it starts, where it ends, what it is. -/
structure LockStepAt (args : List (GoVal mem S)) (st : σ) (fmt : Bytes) (argv : List Word)
    (i : Nat) : Prop where
  start : decoderIndex fmt argv i = (encoderAt go args st i).j
  stop : decoderIndex fmt argv (i + 1) = (encoderAt go args st (i + 1)).j
  payload : (readArg (fmt.getD i 0) argv (decoderIndex fmt argv i)).1 =
    (encoderAt go args st (i + 1)).out.payload

def LockStep (args : List (GoVal mem S)) (st : σ) : Prop :=
  ∀ i < args.length, LockStepAt go args st ((parseArgs go args).run st).1.2.1
    ((parseArgs go args).run st).1.2.2 i

/-- What `parseArg` left in its variables for each of the arguments. -/
def outputs (args : List (GoVal mem S)) (st : σ) : List ParsedArg :=
  parsedArgs go args (ParseLoop.start args.length).out st

theorem outputs_length (args : List (GoVal mem S)) (st : σ) :
    (outputs go args st).length = args.length :=
  parsedArgs_length go args _ st

theorem stored_at (args : List (GoVal mem S)) (st : σ) (i : Nat) :
    Stored args.length ((outputs go args st).take i) (encoderAt go args st i) := by
  have stored := stored_from go (stored_start args.length) (args.take i)
    (by simp) st
  rwa [List.nil_append, parsedArgs_take] at stored

theorem slotsRead_code (out : ParsedArg) :
    slotsRead out.argType.code = out.cells.length ↔ out.argType ≠ .error := by
  obtain ⟨argType, val, p, pLen⟩ := out
  cases argType <;> simp [slotsRead, ParsedArg.cells, storedAsPair]

theorem readArg_payload {out : ParsedArg} (stored : out.argType ≠ .error) {argv : List Word}
    {j : Nat} (cells : ∀ k < out.cells.length, argv[j + k]? = out.cells[k]?) :
    (readArg out.argType.code argv j).1 = out.payload := by
  have first : storedAsPair out.argType = false → argv.getD j 0 = out.val := by
    intro single
    have cell := cells 0 (by simp [ParsedArg.cells, single])
    simp [ParsedArg.cells, single] at cell
    simp [cell]
  have pair : storedAsPair out.argType = true →
      argv.getD j 0 = out.pLen ∧ argv.getD (j + 1) 0 = out.p := by
    intro double
    have len := cells 0 (by simp [ParsedArg.cells, double])
    have addr := cells 1 (by simp [ParsedArg.cells, double])
    simp [ParsedArg.cells, double] at len addr
    simp [len, addr]
  obtain ⟨argType, val, p, pLen⟩ := out
  cases argType with
  | error => exact absurd rfl stored
  | none | bool | int | double | zstring | ecmafunc =>
    simp only [readArg, ArgFormat.ofCode_code, ParsedArg.payload, first rfl]
  | lstring | buffer | jarray | jobject | mobject =>
    simp only [readArg, ArgFormat.ofCode_code, ParsedArg.payload, (pair rfl).1, (pair rfl).2]

def GoVal.isStructPtr {mem : Memory} {S : Type} : GoVal mem S → Bool
  | .structPtr _ => true
  | _ => false

/-- The types a value can be given; what goes through JSON is none where that fails. -/
def GoVal.formats {mem : Memory} {S : Type} : GoVal mem S → List ArgFormat
  | .nil => [.none]
  | .bool _ => [.bool]
  | .integer _ => [.int, .double, .jobject, .none]
  | .float32 _ | .float64 _ => [.double]
  | .string _ => [.lstring]
  | .bytes _ => [.buffer]
  | .slice _ => [.jarray, .none]
  | .map _ | .other _ => [.jobject, .none]
  | .ecmaObject _ => [.ecmafunc]
  | .error _ => [.error]
  | .structPtr _ => [.mobject]

theorem parseArg_format (arg : GoVal mem S) (out : ParsedArg) (st : σ) :
    ((parseArg go arg out).run st).1.argType ∈ arg.formats := by
  have json : ∀ f (arg : GoVal mem S), (out.setJson go f arg).argType ∈ [f, .none] := by
    intro f arg
    unfold ParsedArg.setJson
    split
    · exact List.mem_cons_self
    · exact List.mem_cons_of_mem _ List.mem_cons_self
  cases arg with
  | integer n =>
    have jobject : (out.setJson go .jobject (.integer n)).argType ∈
        (GoVal.integer n : GoVal mem S).formats :=
      List.mem_of_mem_drop (i := 2) (json .jobject (.integer n))
    change (parseInteger go n out).argType ∈ _
    unfold parseInteger
    split
    · exact jobject
    · split <;> first | exact jobject | simp [ParsedArg.setVal, GoVal.formats]
  | slice id | map id | other id => exact json _ _
  | _ => exact List.mem_cons_self

/-- Only an error value is classified as one. -/
theorem parseArg_error (arg : GoVal mem S) (out : ParsedArg) (st : σ) :
    ((parseArg go arg out).run st).1.argType = .error ↔ arg.isError = true := by
  have format := parseArg_format go arg out st
  constructor
  · intro same
    rw [same] at format
    cases arg <;> simp [GoVal.formats] at format ⊢
    rfl
  · cases arg <;> simp [GoVal.isError]
    rfl

/-- Only a struct pointer is classified as an instance. -/
theorem parseArg_structPtr (arg : GoVal mem S) (out : ParsedArg) (st : σ) :
    ((parseArg go arg out).run st).1.argType = .mobject ↔ arg.isStructPtr = true := by
  have format := parseArg_format go arg out st
  constructor
  · intro same
    rw [same] at format
    cases arg <;> simp [GoVal.formats] at format ⊢
    rfl
  · cases arg <;> simp [GoVal.isStructPtr]
    rfl

theorem parsedArgs_error (args : List (GoVal mem S)) (out : ParsedArg) (st : σ) :
    (∀ parsed ∈ parsedArgs go args out st, parsed.argType ≠ .error) ↔
      ∀ arg ∈ args, arg.isError = false := by
  induction args generalizing out st with
  | nil => simp [parsedArgs]
  | cons arg rest ih =>
    simp only [parsedArgs, List.forall_mem_cons, ih]
    rw [ne_eq, parseArg_error, Bool.not_eq_true]

theorem outputs_error (args : List (GoVal mem S)) (st : σ) :
    (∀ out ∈ outputs go args st, out.argType ≠ .error) ↔ ∀ arg ∈ args, arg.isError = false :=
  parsedArgs_error go args _ st

theorem decoderIndex_walk {fmt tags : Bytes} (same : ∀ i (h : i < tags.length), fmt.getD i 0 = tags[i])
    (argv : List Word) (i : Nat) (within : i ≤ tags.length) :
    decoderIndex fmt argv i = walk slotsRead tags i := by
  induction i with
  | zero => rfl
  | succ i ih =>
    have here : tags[i]? = some tags[i] := List.getElem?_eq_getElem (by omega)
    rw [decoderIndex, readArg_index, ih (by omega), same i (by omega), walk_succ slotsRead here]

theorem offset_cells (outs : List ParsedArg) (i : Nat) :
    offset (outs.map ParsedArg.cells) i = ((outs.take i).map ParsedArg.cells).flatten.length := by
  rw [offset_eq, List.map_take]

section LockStep

variable (args : List (GoVal mem S)) (st : σ)

/-- The format string and the slots, with what is left of their zeros. -/
theorem parseArgs_eq : ((parseArgs go args).run st).1.2 =
    ((outputs go args st).map (fun out => out.argType.code) ++ [0],
      ((outputs go args st).map ParsedArg.cells).flatten ++ List.replicate
        (args.length * 2 - ((outputs go args st).map ParsedArg.cells).flatten.length) 0) := by
  have outs := outputs_length go args st
  have stored := stored_at go args st args.length
  rw [List.take_of_length_le (by omega)] at stored
  have encoded : ((parseArgs go args).run st).1.2 =
      ((encoderAt go args st args.length).fmt, (encoderAt go args st args.length).argv) := by
    simp only [encoderAt, List.take_length]
    rfl
  have nul : args.length + 1 - (outputs go args st).length = 1 := by omega
  rw [encoded, stored.fmt, stored.argv, nul]
  rfl

/-- The encoder starts argument `i` behind the cells of the ones before it. -/
theorem encoderAt_j (i : Nat) :
    (encoderAt go args st i).j = offset ((outputs go args st).map ParsedArg.cells) i :=
  (stored_at go args st i).j.trans (offset_cells _ i).symm

theorem fmt_getD {i : Nat} {out : ParsedArg} (here : (outputs go args st)[i]? = some out) :
    ((parseArgs go args).run st).1.2.1.getD i 0 = out.argType.code := by
  rw [parseArgs_eq, List.getD_eq_getElem?_getD, List.getElem?_append_left, List.getElem?_map, here]
  · rfl
  · rw [List.length_map]
    exact (List.getElem?_eq_some_iff.mp here).1

/-- The decoder walks by what each format character makes it read. -/
theorem decoderIndex_parseArgs (argv : List Word) {i : Nat} (within : i ≤ args.length) :
    decoderIndex ((parseArgs go args).run st).1.2.1 argv i =
      walk slotsRead ((outputs go args st).map fun out => out.argType.code) i := by
  have outs := outputs_length go args st
  apply decoderIndex_walk
  · intro k inside
    rw [List.length_map] at inside
    rw [fmt_getD go args st (List.getElem?_eq_getElem inside), List.getElem_map]
  · rw [List.length_map]
    omega

/-- The indices agree at every argument exactly when none was classified as an error. -/
theorem indices_iff (argv : List Word) :
    (∀ i < args.length,
      decoderIndex ((parseArgs go args).run st).1.2.1 argv i = (encoderAt go args st i).j ∧
      decoderIndex ((parseArgs go args).run st).1.2.1 argv (i + 1) =
        (encoderAt go args st (i + 1)).j) ↔
      ∀ out ∈ outputs go args st, out.argType ≠ .error := by
  have outs := outputs_length go args st
  have aligned := lockstep_iff slotsRead ((outputs go args st).map fun out => out.argType.code)
    ((outputs go args st).map ParsedArg.cells) (by rw [List.length_map, List.length_map])
  simp only [List.length_map, outs, List.getElem?_map, Option.map_eq_some_iff] at aligned
  constructor
  · intro agree out member
    -- equal indices before and after an argument give equal widths
    have widths := aligned.mp fun i within => by
      obtain ⟨start, stop⟩ := agree i within
      rw [decoderIndex_parseArgs go args st argv (by omega), encoderAt_j] at start stop
      exact ⟨start, stop⟩
    obtain ⟨i, here⟩ := List.mem_iff_getElem?.mp member
    exact (slotsRead_code out).mp (widths i _ _ ⟨out, here, rfl⟩ ⟨out, here, rfl⟩)
  · intro noErrors i within
    have places := aligned.mpr fun i tag cells here item => by
      obtain ⟨out, here, rfl⟩ := here
      obtain ⟨out', item, rfl⟩ := item
      rw [here] at item
      cases item
      exact (slotsRead_code out).mpr (noErrors out (List.mem_of_getElem? here))
    rw [decoderIndex_parseArgs go args st argv (by omega), encoderAt_j,
      decoderIndex_parseArgs go args st argv (by omega), encoderAt_j]
    exact places i within

/-- Up to the first error value the decoder is where the encoder was. -/
theorem start_of_noErrors (argv : List Word) {i : Nat} (within : i ≤ args.length)
    (noErrors : ∀ arg ∈ args.take i, arg.isError = false) :
    decoderIndex ((parseArgs go args).run st).1.2.1 argv i = (encoderAt go args st i).j := by
  have outs := outputs_length go args st
  have named := (parsedArgs_error go (args.take i) (ParseLoop.start args.length).out st).mpr noErrors
  rw [parsedArgs_take] at named
  rw [decoderIndex_parseArgs go args st argv within, encoderAt_j]
  apply walk_eq_offset slotsRead
  · rw [List.length_map]
    omega
  · rw [List.length_map]
    omega
  · intro k tag cells below here item
    rw [List.getElem?_map, Option.map_eq_some_iff] at here item
    obtain ⟨out, here, rfl⟩ := here
    obtain ⟨out', item, rfl⟩ := item
    rw [here] at item
    cases item
    refine (slotsRead_code out).mpr (named out (List.mem_of_getElem? (i := k) ?_))
    rw [List.getElem?_take_of_lt below]
    exact here

theorem encoderAt_out {i : Nat} {out : ParsedArg} (here : (outputs go args st)[i]? = some out) :
    (encoderAt go args st (i + 1)).out = out := by
  rw [(stored_at go args st (i + 1)).last, List.take_add_one, here, Option.toList_some,
    List.getLastD_concat]

/-- Where the decoder stands at an argument's cells it reads what was produced for it. -/
theorem payload_at {i : Nat}
    (noError : ∀ out, (outputs go args st)[i]? = some out → out.argType ≠ .error)
    (within : i < args.length)
    (start : decoderIndex ((parseArgs go args).run st).1.2.1 ((parseArgs go args).run st).1.2.2 i =
      (encoderAt go args st i).j) :
    (readArg (((parseArgs go args).run st).1.2.1.getD i 0) ((parseArgs go args).run st).1.2.2
      (decoderIndex ((parseArgs go args).run st).1.2.1 ((parseArgs go args).run st).1.2.2 i)).1 =
      (encoderAt go args st (i + 1)).out.payload := by
  have outs := outputs_length go args st
  obtain ⟨out, here⟩ : ∃ out, (outputs go args st)[i]? = some out :=
    ⟨_, List.getElem?_eq_getElem (by omega)⟩
  rw [start, encoderAt_out go args st here, fmt_getD go args st here, encoderAt_j]
  apply readArg_payload (noError out here)
  intro k cell
  rw [parseArgs_eq]
  exact packed_get (by rw [List.getElem?_map, here]; rfl) _ cell

/-- The decoder stays in step with the encoder for exactly the lists without error values: for
`af_error` the encoder has no case and stores one stale slot where the decoder takes two. -/
theorem lockStep_iff : LockStep go args st ↔ ∀ arg ∈ args, arg.isError = false := by
  rw [← outputs_error go args st]
  constructor
  · intro lock
    apply (indices_iff go args st ((parseArgs go args).run st).1.2.2).mp
    intro i within
    exact ⟨(lock i within).start, (lock i within).stop⟩
  · intro noErrors i within
    have agree := (indices_iff go args st ((parseArgs go args).run st).1.2.2).mpr noErrors
    obtain ⟨start, stop⟩ := agree i within
    exact ⟨start, stop, payload_at go args st
      (fun out here => noErrors out (List.mem_of_getElem? here)) within start⟩

end LockStep

/-! ### An error value followed by another argument -/

def letterX : GoBytes (fun _ => 120) where
  addr := 8
  data := [120]
  stored := rfl
  bounded := by decide
  located _ := by decide

/-- A runtime without JSON and modules. -/
def bareRuntime (mem : Memory) : GoRuntime mem Unit Unit where
  marshal _ := none
  createMethodKeys _ st := (0, st)
  createEcmascriptObject := 1

/-- The decoder takes slots 0 and 1 for the error, but the next argument is stored in slot 1. -/
theorem decoder_ahead_after_error :
    ∃ args, decoderIndex ((parseArgs (bareRuntime fun _ => 120) args).run ()).1.2.1
        ((parseArgs (bareRuntime fun _ => 120) args).run ()).1.2.2 1 = 2 ∧
      (encoderAt (bareRuntime fun _ => 120) args () 1).j = 1 ∧
      ¬ LockStep (bareRuntime fun _ => 120) args () := by
  refine ⟨[.error letterX, .bool true], by decide, by decide, ?_⟩
  intro lock
  -- after the error the decoder is at slot 2, and the encoder at slot 1
  exact absurd (lock 0 (by decide)).stop (by decide)

end DukBridge
