import DukBridge.BufferFidelity
import DukBridge.Lib.ExactIntegers
import DukBridge.ResultDelivery

/-!
# Arguments of a call from Java

`J2CHelper` gives every argument a format character and a plain Java object; the native
method packs the objects into the slots that `push_args_and_call_func` reads.
-/
namespace DukBridge

open Effect

/-- A Java byte array, as `GetByteArrayElements` shows it to C. -/
structure JavaBytes (mem : Memory) extends GoBytes mem where
  isArray : data.length < 2 ^ 31

/-! ### J2CHelper -/

/-- An argument, by the test of `normalizeArgs` that takes it. -/
inductive JavaObj (mem : Memory) where
  | null
  /-- A string is known by what `getBytes("utf-8")` makes of it. -/
  | string (utf8 : JavaBytes mem)
  | bytes (b : JavaBytes mem)
  | integer (n : Int32)
  | boolean (b : Bool)
  | double (d : Float)
  /-- The `type` of an `ObjArg` is any `char`, and its `arg` may be null. -/
  | objArg (type : UInt16) (arg : Option (JavaBytes mem))
  | other

/-- An element of the normalized `args`. -/
inductive JavaRes (mem : Memory) where
  | null
  | bytes (b : JavaBytes mem)
  | integer (n : Int32)
  | boolean (b : Bool)
  | double (d : Float)

variable {mem : Memory}

/-- `res[i] = objarg.arg` -/
def JavaRes.ofArray : Option (JavaBytes mem) → JavaRes mem
  | some b => bytes b
  | none => null

/-- The `switch (objarg.type)`: af_string 's', af_buffer 'B', af_jarray 'a', af_jobject 'o'. -/
def objArgFmt (type : UInt16) : Option ArgFormat :=
  if type = 115 then some .lstring
  else if type = 66 then some .buffer
  else if type = 97 then some .jarray
  else if type = 111 then some .jobject
  else none

/-- One round of `normalizeArgs`. The constants of J2CHelper are the characters of duk_bridge.h. -/
def normalizeArg : JavaObj mem → Except String (ArgFormat × JavaRes mem)
  | .null => .ok (.none, .null)
  | .string utf8 => .ok (.lstring, .bytes utf8)
  | .bytes b => .ok (.lstring, .bytes b)
  | .integer n => .ok (.int, .integer n)
  | .boolean b => .ok (.bool, .boolean b)
  | .double d => .ok (.double, .double d)
  | .objArg type arg =>
    match objArgFmt type with
    | some fmt => .ok (fmt, .ofArray arg)
    | none => .error ("unknown arg type " ++ (Char.ofNat type.toNat).toString)
  | .other => .error "your object type is not supported"

def normalizeArgs : List (JavaObj mem) → Except String (List (ArgFormat × JavaRes mem))
  | [] => .ok []
  | obj :: rest => do
    let first ← normalizeArg obj
    return first :: (← normalizeArgs rest)

/-! ### do_call_func -/

/-- `setValue`: an Integer goes through `doubleValue`, like a Double. An object without the method
that is called is no argument JNI is defined for. -/
def setValue (fmt : ArgFormat) (val : JavaRes mem) : Option Word :=
  match fmt, val with
  | .bool, .boolean b => some (if b then 1 else 0)
  | .int, .integer n | .double, .integer n => some (double2voidp (Binary64.ofInt n.toInt))
  | .int, .double d | .double, .double d => some (double2voidp d)
  | _, _ => none

/-- The slots SET_BYTES_ELEM writes for one element. -/
def elemSlots (fmt : ArgFormat) (val : JavaRes mem) : Option (List Word) :=
  match fmt with
  | .none => some [0]
  | .bool | .int | .double => do return [← setValue fmt val]
  | _ =>
    match val with
    | .bytes b => some [sizeOfInt (cInt b.data.length), b.addr]
    | _ => none

/-- `argv[j++] = ..` for each of the slots. -/
def storeSlots : List Word → Nat → List Word → List Word
  | [], _, argv => argv
  | slot :: slots, j, argv => storeSlots slots (j + 1) (argv.set j slot)

/-- The loop of SET_BYTES_ELEM from some element on, in a block of two slots an argument. -/
def setBytesElems : List (ArgFormat × JavaRes mem) → Nat → List Word → Option (List Word)
  | [], _, argv => some argv
  | (fmt, val) :: rest, j, argv => do
    let slots ← elemSlots fmt val
    setBytesElems rest (j + slots.length) (storeSlots slots j argv)

/-- What `do_call_func` hands to `call_func` as `fmt` and `argv`; `block` is what `malloc` gave. -/
def javaCallArgs (args : List (ArgFormat × JavaRes mem)) (block : List Word) :
    Option (Option Bytes × List Word) :=
  if args = [] then some (none, [])
  else do
    let argv ← setBytesElems args 0 block
    return (some (args.map (fun arg => arg.1.code) ++ [0]), argv)

/-! ### What C gets of an argument -/

namespace JavaObj

/-- An `ObjArg` without an array is accepted, but there are no bytes to get at. -/
def hasArray : JavaObj mem → Bool
  | objArg _ none => false
  | _ => true

def fmt : JavaObj mem → ArgFormat
  | null | other => .none
  | string _ | bytes _ => .lstring
  | integer _ => .int
  | boolean _ => .bool
  | double _ => .double
  | objArg type _ => (objArgFmt type).getD .none

/-- The slots of an argument, in the shape `parseArgs` has them. -/
def packed (obj : JavaObj mem) : ParsedArg :=
  match obj with
  | string b | bytes b | objArg _ (some b) =>
    { argType := obj.fmt, val := 0, p := b.addr, pLen := sizeOfInt (cInt b.data.length) }
  | integer n => { argType := obj.fmt, val := double2voidp (Binary64.ofInt n.toInt), p := 0, pLen := 0 }
  | boolean b => { argType := obj.fmt, val := if b then 1 else 0, p := 0, pLen := 0 }
  | double d => { argType := obj.fmt, val := double2voidp d, p := 0, pLen := 0 }
  | null | other | objArg _ none => { argType := obj.fmt, val := 0, p := 0, pLen := 0 }

def payload (obj : JavaObj mem) : CArg := obj.packed.payload

theorem objArgFmt_pair {type : UInt16} {f : ArgFormat} (known : objArgFmt type = some f) :
    f = .lstring ∨ f = .buffer ∨ f = .jarray ∨ f = .jobject := by
  unfold objArgFmt at known
  split at known
  · exact .inl (Option.some.inj known).symm
  · split at known
    · exact .inr (.inl (Option.some.inj known).symm)
    · split at known
      · exact .inr (.inr (.inl (Option.some.inj known).symm))
      · split at known
        · exact .inr (.inr (.inr (Option.some.inj known).symm))
        · cases known

/-- What `normalizeArg` accepts is packed as said, unless there are no bytes. -/
theorem packed_of_accepted {obj : JavaObj mem} {f : ArgFormat} {res : JavaRes mem}
    (accepted : normalizeArg obj = .ok (f, res)) :
    f = obj.packed.argType ∧ f ≠ .error ∧
      elemSlots f res = if obj.hasArray then some obj.packed.cells else none := by
  cases obj with
  | objArg type arg =>
    simp only [normalizeArg] at accepted
    cases known : objArgFmt type with
    | none =>
      rw [known] at accepted
      cases accepted
    | some fmt =>
      rw [known] at accepted
      cases accepted
      have format : ((objArg type arg).packed).argType = f := by
        cases arg <;> simp [packed, JavaObj.fmt, known]
      refine ⟨format.symm, ?_⟩
      -- all four kinds are a length and an address
      rcases objArgFmt_pair known with rfl | rfl | rfl | rfl <;> cases arg <;>
        simp_all [hasArray, elemSlots, JavaRes.ofArray, ParsedArg.cells, storedAsPair, packed]
  | other => cases accepted
  | _ =>
    cases accepted
    exact ⟨rfl, ArgFormat.noConfusion, rfl⟩

end JavaObj

/-! ### The block -/

theorem storeSlots_next (done slots free : List Word) (room : slots.length ≤ free.length) :
    storeSlots slots done.length (done ++ free) =
      done ++ slots ++ free.drop slots.length := by
  induction slots generalizing done free with
  | nil => simp [storeSlots]
  | cons slot slots ih =>
    cases free with
    | nil => cases room
    | cons _ free =>
      have next := ih (done ++ [slot]) free (Nat.le_of_succ_le_succ room)
      rw [List.length_append, List.length_singleton] at next
      simp only [List.append_assoc, List.singleton_append] at next
      rw [storeSlots, List.set_append_right _ _ (Nat.le_refl _), Nat.sub_self, List.set_cons_zero,
        next]
      simp

/-- The loop fills the block from the left, with the cells of each argument. -/
theorem setBytesElems_packed {args : List (JavaObj mem)} {normalized : List (ArgFormat × JavaRes mem)}
    (accepted : normalizeArgs args = .ok normalized) (done free : List Word)
    (room : args.length * 2 ≤ free.length) :
    normalized.map (fun arg => arg.1.code) = args.map (fun obj => obj.packed.argType.code) ∧
    (∀ obj ∈ args, obj.packed.argType ≠ .error) ∧
    setBytesElems normalized done.length (done ++ free) =
      if ∀ obj ∈ args, obj.hasArray = true then
        some (done ++ ((args.map fun obj => obj.packed.cells).flatten ++
          free.drop (args.map fun obj => obj.packed.cells).flatten.length))
      else none := by
  induction args generalizing normalized done free with
  | nil =>
    cases accepted
    simp [setBytesElems]
  | cons obj rest ih =>
    cases first : normalizeArg obj with
    | error text => simp [normalizeArgs, first, bind, Except.bind] at accepted
    | ok arg =>
      obtain ⟨f, res⟩ := arg
      cases others : normalizeArgs rest with
      | error text => simp [normalizeArgs, first, others, bind, Except.bind] at accepted
      | ok more =>
        have whole : normalized = (f, res) :: more := by
          simpa [normalizeArgs, first, others, bind, Except.bind, pure, Except.pure, eq_comm]
            using accepted
        subst whole
        obtain ⟨rfl, noError, slots⟩ := JavaObj.packed_of_accepted first
        have width : obj.packed.cells.length ≤ 2 := by
          unfold ParsedArg.cells
          split <;> simp
        rw [List.length_cons] at room
        -- the cells of this argument are done, and the rest of the block is free
        obtain ⟨codes, kinds, filled⟩ := ih others (done ++ obj.packed.cells)
          (free.drop obj.packed.cells.length) (by rw [List.length_drop]; omega)
        refine ⟨by simp [codes], ?_, ?_⟩
        · simpa [noError] using kinds
        · rw [setBytesElems, slots]
          by_cases array : obj.hasArray = true
          · simp only [array, if_true, Option.bind_eq_bind, Option.bind_some]
            rw [storeSlots_next _ _ _ (by omega), ← List.length_append, filled]
            simp [array, List.drop_drop]
          · simp [array]

theorem normalizeArgs_get {args : List (JavaObj mem)} {normalized : List (ArgFormat × JavaRes mem)}
    (accepted : normalizeArgs args = .ok normalized) {i : Nat} (within : i < args.length) :
    ∃ f res, normalizeArg (args.get ⟨i, within⟩) = .ok (f, res) := by
  induction args generalizing normalized i with
  | nil => cases within
  | cons obj rest ih =>
    cases first : normalizeArg obj with
    | error text => simp [normalizeArgs, first, bind, Except.bind] at accepted
    | ok arg =>
      cases others : normalizeArgs rest with
      | error text => simp [normalizeArgs, first, others, bind, Except.bind] at accepted
      | ok more =>
        cases i with
        | zero => exact ⟨arg.1, arg.2, first⟩
        | succ i => exact ih others (Nat.lt_of_succ_lt_succ within)

/-- A missing array stops the call in the macro. -/
theorem javaCallArgs_arrays {args : List (JavaObj mem)}
    {normalized : List (ArgFormat × JavaRes mem)}
    (accepted : normalizeArgs args = .ok normalized) {block : List Word}
    (room : args.length * 2 ≤ block.length) {fmt : Option Bytes} {argv : List Word}
    (packed : javaCallArgs normalized block = some (fmt, argv)) :
    ∀ obj ∈ args, obj.hasArray = true := by
  obtain ⟨codes, _, filled⟩ := setBytesElems_packed accepted [] block room
  by_cases arrays : ∀ obj ∈ args, obj.hasArray = true
  · exact arrays
  · rw [if_neg arrays, List.nil_append, List.length_nil] at filled
    rw [javaCallArgs, filled] at packed
    by_cases none : normalized = []
    · rw [none, List.map_nil, eq_comm, List.map_eq_nil_iff] at codes
      rw [codes]
      exact fun _ member => by cases member
    · rw [if_neg none] at packed
      cases packed

/-! ### What arrives -/

/-- The low word of a double is what its slot is to the `case af_int` of the decoder. -/
theorem toInt_intOfPtr_word (p : Word) : (intOfPtr p).toInt = (p.toNat : Int).bmod (2 ^ 32) := by
  have word : p.toInt64.toInt = (p.toNat : Int).bmod (2 ^ 64) := by
    rw [← UInt64.toNat_toBitVec, ← Int64.toInt_toBitVec, UInt64.toBitVec_toInt64]
    exact BitVec.toInt_eq_toNat_bmod _
  rw [intOfPtr, Int64.toInt_toInt32, word]
  exact Int.bmod_bmod_of_dvd (by decide)

/-- The low 32 bits of an integer's double are that integer for 0 alone. -/
theorem double_low_word_iff (n : Int32) :
    (intOfPtr (double2voidp (Binary64.ofInt n.toInt))).toInt = n.toInt ↔ n = 0 := by
  constructor
  · intro same
    by_contra nonzero
    have value : n.toInt ≠ 0 := fun zero => nonzero (Int32.toInt_inj.mp (by rw [zero]; rfl))
    have least := n.le_toInt
    have most := n.toInt_lt
    have bits := Binary64.toBits_ofInt_low value (by omega)
    have log : n.toInt.natAbs.log2 < 32 := (Nat.log2_lt (by omega)).mpr (by omega)
    obtain ⟨k, shift⟩ : ∃ k, 52 - n.toInt.natAbs.log2 = 21 + k :=
      ⟨31 - n.toInt.natAbs.log2, by omega⟩
    rw [shift] at bits
    rw [toInt_intOfPtr_word, Int.bmod_def, double2voidp] at same
    generalize (Binary64.ofInt n.toInt).toBits.toNat = word at bits same
    -- the integer is a multiple of 2 ^ 21, so what is shifted is one of 2 ^ 42
    obtain ⟨r, low⟩ : ∃ r, n.toInt.natAbs = 2 ^ 21 * r := by
      have once : n.toInt.natAbs * 2 ^ (21 + k) = 2 ^ 21 * (n.toInt.natAbs * 2 ^ k) := by ring
      rw [once] at bits
      refine ⟨n.toInt.natAbs / 2 ^ 21, ?_⟩
      generalize n.toInt.natAbs * 2 ^ k = shifted at bits
      split at same <;> omega
    have twice : n.toInt.natAbs * 2 ^ (21 + k) = 2 ^ 42 * (r * 2 ^ k) := by
      rw [low]
      ring
    rw [twice] at bits
    generalize r * 2 ^ k = shifted at bits
    split at same <;> omega
  · rintro rfl
    rfl

namespace JavaObj

variable {H : Type} (host : Host H)

/-- `v`, pushed between the two states, is the value of the argument. -/
def Shows (after : Ctx H) (v : JsVal) : JavaObj host.mem → Prop
  | null => v = .null
  | string b | bytes b => v = .string b.data
  | integer n => ∃ d, v = .number d ∧ Binary64.Is d n.toInt
  | boolean b => v = .boolean b
  | double d => v = .number d
  | objArg type arg => ∃ b, arg = some b ∧
    match objArgFmt type with
    | some .lstring => v = .string b.data
    | some .buffer => after.HoldsBuffer b.data
    | _ => ∃ w free w' reserved, host.jsonDecode w free b.data = .returns v w' reserved
  | other => False

end JavaObj

variable {H : Type} (host : Host H)

/-- The call gets to its arguments, and each round of the decoder pushes the value of the argument
at its position. -/
def JavaArgsArrive (args : List (JavaObj host.mem)) (block : List Word) (ctx : Ctx H) : Prop :=
  ∃ normalized fmt argv, normalizeArgs args = .ok normalized ∧
    javaCallArgs normalized block = some (fmt, argv) ∧
    ∃ states : Nat → Ctx H, states 0 = ctx ∧
      pushCallArgs host fmt argv ctx = .ok args.length (states args.length) ∧
      ∀ i (within : i < args.length),
        pushCallArgs host (fmt.map (List.take i)) argv ctx = .ok i (states i) ∧
        ∃ v, (states (i + 1)).stack = v :: (states i).stack ∧
          (args.get ⟨i, within⟩).Shows host (states (i + 1)) v

variable {host}

/-- A push that fits shows the value, an Integer alone excepted. -/
theorem shows_iff {obj : JavaObj host.mem} {f : ArgFormat} {res : JavaRes host.mem}
    (accepted : normalizeArg obj = .ok (f, res)) (array : obj.hasArray = true) {ctx : Ctx H}
    (fits : ArgFits host ctx obj.payload) :
    ∃ v, (afterArg host ctx obj.payload).stack = v :: ctx.stack ∧
      (obj.Shows host (afterArg host ctx obj.payload) v ↔ ∀ n, obj = .integer n → n = 0) := by
  have stored : ∀ b : JavaBytes host.mem,
      host.bytesAt b.addr (sizeOfInt (cInt b.data.length)) = b.data :=
    fun b => bytesAt_stored b.toGoBytes b.isArray
  have length : ∀ b : JavaBytes host.mem,
      (sizeOfInt (cInt b.data.length)).toNat = b.data.length := by
    intro b
    have small := b.isArray
    rw [sizeOfInt_cInt_of_lt small, UInt64.toNat_ofNat']
    omega
  cases obj with
  | null => exact ⟨_, rfl, iff_of_true rfl (fun _ other => by cases other)⟩
  | string b | bytes b =>
    refine ⟨_, rfl, iff_of_true ?_ (fun _ other => by cases other)⟩
    exact congrArg JsVal.string (stored b)
  | integer n =>
    refine ⟨_, rfl, ?_⟩
    have shown : (∃ d, JsVal.number (Binary64.ofInt
        (intOfPtr (double2voidp (Binary64.ofInt n.toInt))).toInt) = .number d ∧
        Binary64.Is d n.toInt) ↔ n = 0 := by
      rw [← double_low_word_iff]
      generalize low : intOfPtr (double2voidp (Binary64.ofInt n.toInt)) = m
      have least := m.le_toInt
      have most := m.toInt_lt
      have exact53 : Binary64.Is (Binary64.ofInt m.toInt) m.toInt := Binary64.ofInt_is (by omega)
      constructor
      · rintro ⟨d, same, is⟩
        cases same
        exact exact53.unique is
      · intro same
        exact ⟨_, rfl, by rwa [← same]⟩
    refine shown.trans ⟨?_, fun zero => zero n rfl⟩
    rintro zero m same
    cases same
    exact zero
  | boolean b =>
    refine ⟨_, rfl, iff_of_true ?_ (fun _ other => by cases other)⟩
    cases b <;> rfl
  | double d =>
    refine ⟨_, rfl, iff_of_true ?_ (fun _ other => by cases other)⟩
    exact congrArg JsVal.number (Float.ofBits_toBits d)
  | objArg type arg =>
    cases arg with
    | none => cases array
    | some b =>
      have others : ∀ n, JavaObj.objArg type (some b) = .integer n → n = 0 :=
        fun _ other => by cases other
      cases known : objArgFmt type with
      | none =>
        rw [normalizeArg, known] at accepted
        cases accepted
      | some format =>
        have payload : (JavaObj.objArg type (some b)).payload =
            ParsedArg.payload ⟨format, 0, b.addr, sizeOfInt (cInt b.data.length)⟩ := by
          simp [JavaObj.payload, JavaObj.packed, JavaObj.fmt, known]
        rw [payload] at fits ⊢
        simp only [JavaObj.Shows, known]
        rcases JavaObj.objArgFmt_pair known with rfl | rfl | rfl | rfl
        · exact ⟨_, rfl, iff_of_true ⟨b, rfl, congrArg JsVal.string (stored b)⟩ others⟩
        · refine ⟨_, rfl, iff_of_true ⟨b, rfl, withBuffer_holds.mpr ?_⟩ others⟩
          rw [stored b, length b, List.take_length]
        all_goals
          -- JSON is decoded from the same bytes
          obtain ⟨_, _, v, w, reserved, decoded⟩ := fits
          have after : afterArg host ctx (.json (sizeOfInt (cInt b.data.length)) b.addr) =
              ⟨v :: ctx.stack, ctx.reserve + reserved, w⟩ := by rw [afterArg, decoded]
          rw [stored b] at decoded
          simp only [ParsedArg.payload, after]
          exact ⟨v, rfl, iff_of_true ⟨b, rfl, _, _, w, reserved, decoded⟩ others⟩
  | other => cases accepted

/-- With all bytes there, the decoder's rounds are the pushes of the payloads. -/
theorem javaCallArgs_pushes {args : List (JavaObj host.mem)}
    {normalized : List (ArgFormat × JavaRes host.mem)}
    (accepted : normalizeArgs args = .ok normalized) {block : List Word}
    (room : args.length * 2 ≤ block.length) (arrays : ∀ obj ∈ args, obj.hasArray = true) :
    ∃ fmt argv, javaCallArgs normalized block = some (fmt, argv) ∧
      pushCallArgs host fmt argv =
        (pushAll host (args.map JavaObj.payload) >>= fun _ => pure args.length) ∧
      ∀ i ≤ args.length, pushCallArgs host (fmt.map (List.take i)) argv =
        (pushAll host ((args.map JavaObj.payload).take i) >>= fun _ => pure i) := by
  obtain ⟨codes, kinds, filled⟩ := setBytesElems_packed accepted [] block room
  rw [if_pos arrays, List.nil_append, List.nil_append, List.length_nil] at filled
  have empty : normalized = [] ↔ args = [] := by
    rw [← List.length_eq_zero_iff, ← List.length_eq_zero_iff]
    have same := congrArg List.length codes
    rw [List.length_map, List.length_map] at same
    rw [same]
  by_cases none : args = []
  · subst none
    refine ⟨_, _, if_pos (empty.mpr rfl), rfl, ?_⟩
    intro i within
    obtain rfl : i = 0 := Nat.le_zero.mp within
    rfl
  · -- the first rounds read what was stored for the first arguments
    have rounds : ∀ i ≤ args.length, pushArgs host ((args.map fun obj => obj.packed.cells).flatten ++
        block.drop (args.map fun obj => obj.packed.cells).flatten.length)
        ((args.take i).map fun obj => obj.packed.argType.code) 0 0 =
          (pushAll host ((args.map JavaObj.payload).take i) >>= fun _ => pure i) := by
      intro i within
      have noErrors : ∀ out ∈ (args.take i).map JavaObj.packed, out.argType ≠ .error := by
        intro out member
        obtain ⟨obj, inside, rfl⟩ := List.mem_map.mp member
        exact kinds obj (List.mem_of_mem_take inside)
      have pushes := pushArgs_stored host _ noErrors []
        (((args.drop i).map fun obj => obj.packed.cells).flatten ++
          block.drop (args.map fun obj => obj.packed.cells).flatten.length) 0
      rw [pushArgs_terminated] at pushes
      -- what follows the first `i` arguments in the block is not read
      have whole : ((args.take i).map fun obj => obj.packed.cells).flatten ++
          ((args.drop i).map fun obj => obj.packed.cells).flatten =
            (args.map fun obj => obj.packed.cells).flatten := by
        rw [← List.flatten_append, ← List.map_append, List.take_append_drop]
      have payloads : ((args.take i).map JavaObj.packed).map ParsedArg.payload =
          (args.map JavaObj.payload).take i := by
        rw [List.map_map, List.map_take]
        rfl
      rw [payloads, List.length_map, List.length_take, Nat.min_eq_left within, Nat.zero_add]
        at pushes
      have cells : ((args.take i).map JavaObj.packed).map ParsedArg.cells =
          (args.take i).map fun obj => obj.packed.cells := List.map_map
      rw [cells, List.nil_append, ← List.append_assoc, whole, List.map_map] at pushes
      exact pushes
    have packed : javaCallArgs normalized block =
        some (some (args.map (fun obj => obj.packed.argType.code) ++ [0]),
          (args.map fun obj => obj.packed.cells).flatten ++
            block.drop (args.map fun obj => obj.packed.cells).flatten.length) := by
      rw [javaCallArgs, if_neg fun nothing => none (empty.mp nothing), filled, codes]
      rfl
    refine ⟨_, _, packed, ?_, ?_⟩
    · have all := rounds args.length (Nat.le_refl _)
      rw [List.take_length, List.take_of_length_le (Nat.le_of_eq (List.length_map _))] at all
      rw [pushCallArgs, pushArgs_terminated]
      exact all
    -- a format that is cut off ends before its terminator
    · intro i within
      have stopped : (args.map (fun obj => obj.packed.argType.code) ++ [(0 : UInt8)]).take i =
          (args.take i).map fun obj => obj.packed.argType.code := by
        rw [List.take_append_of_le_length (by simpa using within), List.map_take]
      rw [Option.map_some, pushCallArgs, stopped]
      exact rounds i within

/-- The value at one position, in the state that the pushes before it leave. -/
theorem shows_at {args : List (JavaObj host.mem)} {normalized : List (ArgFormat × JavaRes host.mem)}
    (accepted : normalizeArgs args = .ok normalized) (arrays : ∀ obj ∈ args, obj.hasArray = true)
    (fit : ArgsFit host ctx (args.map JavaObj.payload)) {i : Nat} (within : i < args.length) :
    ArgsFit host ctx ((args.map JavaObj.payload).take i) ∧ ∃ v,
      (((args.map JavaObj.payload).take (i + 1)).foldl (afterArg host) ctx).stack =
        v :: (((args.map JavaObj.payload).take i).foldl (afterArg host) ctx).stack ∧
      ((args.get ⟨i, within⟩).Shows host
        (((args.map JavaObj.payload).take (i + 1)).foldl (afterArg host) ctx) v ↔
          ∀ n, args.get ⟨i, within⟩ = .integer n → n = 0) := by
  have here : (args.map JavaObj.payload)[i]? = some (args.get ⟨i, within⟩).payload := by
    rw [List.getElem?_map, List.getElem?_eq_getElem within]
    rfl
  obtain ⟨before, fits, after⟩ := argsFit_at fit here
  obtain ⟨f, res, one⟩ := normalizeArgs_get accepted within
  have array := arrays _ (List.get_mem args ⟨i, within⟩)
  rw [after]
  exact ⟨before, shows_iff one array fits⟩

/-- The rounds of the decoder go through the states that the pushes leave. -/
theorem rounds_states (plain : PlainHandles host) {args : List (JavaObj host.mem)}
    {fmt : Option Bytes} {argv : List Word} (prefixes : ∀ i ≤ args.length,
      pushCallArgs host (fmt.map (List.take i)) argv =
        (pushAll host ((args.map JavaObj.payload).take i) >>= fun _ => pure i))
    {states : Nat → Ctx H} {i : Nat} (within : i ≤ args.length)
    (round : pushCallArgs host (fmt.map (List.take i)) argv ctx = .ok i (states i)) :
    states i = ((args.map JavaObj.payload).take i).foldl (afterArg host) ctx := by
  rw [prefixes i within] at round
  obtain ⟨_, _, pushed, last⟩ := bind_eq_ok.mp round
  cases last
  exact ((pushAll_eq_ok plain).mp pushed).2

/-- Every argument of an accepted list arrives exactly when each push finds its slots and data, no
array is missing, and no Integer is other than 0. -/
theorem javaArgsArrive_iff (plain : PlainHandles host) (args : List (JavaObj host.mem))
    (normalized : List (ArgFormat × JavaRes host.mem))
    (accepted : normalizeArgs args = .ok normalized) (block : List Word)
    (room : args.length * 2 ≤ block.length) (ctx : Ctx H) :
    JavaArgsArrive host args block ctx ↔ (∀ obj ∈ args, obj.hasArray = true) ∧
      ArgsFit host ctx (args.map JavaObj.payload) ∧ ∀ n, .integer n ∈ args → n = 0 := by
  constructor
  · rintro ⟨normalized', fmt, argv, same, packed, states, start, whole, rounds⟩
    rw [accepted] at same
    cases same
    have arrays : ∀ obj ∈ args, obj.hasArray = true := javaCallArgs_arrays accepted room packed
    obtain ⟨fmt', argv', packed', pushes, prefixes⟩ := javaCallArgs_pushes accepted room arrays
    rw [packed] at packed'
    cases packed'
    rw [pushes] at whole
    obtain ⟨_, _, all, _⟩ := bind_eq_ok.mp whole
    have fit := ((pushAll_eq_ok plain).mp all).1
    -- the last state is the one after the whole block
    have final : pushCallArgs host (fmt.map (List.take args.length)) argv ctx =
        .ok args.length (states args.length) := by
      rw [prefixes _ (Nat.le_refl _), List.take_of_length_le (Nat.le_of_eq (List.length_map _))]
      exact whole
    have state : ∀ i ≤ args.length,
        states i = ((args.map JavaObj.payload).take i).foldl (afterArg host) ctx := by
      intro i within
      rcases Nat.lt_or_eq_of_le within with inside | rfl
      · exact rounds_states plain prefixes within (rounds i inside).1
      · exact rounds_states plain prefixes within final
    refine ⟨arrays, fit, ?_⟩
    intro n member
    obtain ⟨⟨i, within⟩, here⟩ := List.get_of_mem member
    obtain ⟨_, v, stack, shows⟩ := shows_at accepted arrays fit within
    obtain ⟨_, v', stack', shown⟩ := rounds i within
    rw [state i (by omega), state (i + 1) within, stack] at stack'
    cases stack'
    rw [state (i + 1) within] at shown
    exact shows.mp shown n here
  · rintro ⟨arrays, fit, zeros⟩
    obtain ⟨fmt, argv, packed, pushes, prefixes⟩ := javaCallArgs_pushes accepted room arrays
    refine ⟨normalized, fmt, argv, accepted, packed,
      fun i => ((args.map JavaObj.payload).take i).foldl (afterArg host) ctx, rfl, ?_, ?_⟩
    · dsimp only
      have all := (pushAll_eq_ok plain (u := ())).mpr ⟨fit, rfl⟩
      have last : (args.map JavaObj.payload).take args.length = args.map JavaObj.payload :=
        List.take_of_length_le (Nat.le_of_eq (List.length_map _))
      rw [pushes, last]
      exact bind_ok all _
    · intro i within
      obtain ⟨before, v, stack, shows⟩ := shows_at accepted arrays fit within
      have pushed := (pushAll_eq_ok plain (u := ())).mpr ⟨before, rfl⟩
      refine ⟨?_, v, stack, shows.mpr fun n here => zeros n ?_⟩
      · rw [prefixes i (Nat.le_of_lt within)]
        exact bind_ok pushed _
      · rw [← here]
        exact List.get_mem args ⟨i, within⟩

/-! ### The Integer 1 -/

/-- The low word of the double 1.0 is 0, and so is what arrives. -/
theorem java_integer_zeroed : PlainHandles stillHost ∧
    oneFunction.height + 110 = oneFunction.reserve ∧
    ¬ JavaArgsArrive stillHost [.integer 1] [0, 0] oneFunction := by
  have plain : PlainHandles stillHost := idleHost_plain _
  refine ⟨plain, rfl, ?_⟩
  rintro ⟨normalized, fmt, argv, accepted, packed, states, start, whole, rounds⟩
  have arrays : ∀ obj ∈ [(.integer 1 : JavaObj stillHost.mem)], obj.hasArray = true := by
    simp [JavaObj.hasArray]
  obtain ⟨_, _, packed', pushes, _⟩ :=
    javaCallArgs_pushes accepted (by decide : 1 * 2 ≤ [(0 : Word), 0].length) arrays
  rw [packed] at packed'
  cases packed'
  rw [pushes] at whole
  obtain ⟨_, after, all, last⟩ := bind_eq_ok.mp whole
  obtain ⟨⟨fits, _⟩, one⟩ := (pushAll_eq_ok plain).mp all
  have pushed : states 1 = after := (EStateM.Result.ok.inj last).2.symm
  obtain ⟨_, v, stack, shown⟩ := rounds 0 Nat.one_pos
  have normal : normalizeArg (.integer 1 : JavaObj stillHost.mem) = .ok (.int, .integer 1) := rfl
  obtain ⟨v', stack', shows⟩ := shows_iff normal rfl fits
  have same : states 1 = afterArg stillHost oneFunction
      (.integer 1 : JavaObj stillHost.mem).payload := pushed.trans one
  rw [start, same, stack'] at stack
  cases stack
  rw [same] at shown
  exact absurd (shows.mp shown 1 rfl) (by decide)

theorem javaArgsArrive_iff_three : JavaArgsArrive stillHost
    [.null, .boolean true, .integer 0] [7, 7, 7, 7, 7, 7] oneFunction := by
  apply (javaArgsArrive_iff (idleHost_plain _) [.null, .boolean true, .integer 0] _ rfl _
    (by decide) oneFunction).mpr
  refine ⟨by simp [JavaObj.hasArray], ?_, by simp⟩
  exact (argsFit_scalars (by simp [JavaObj.payload, JavaObj.packed, JavaObj.fmt,
    ParsedArg.payload, CArg.isScalar]) (by decide)).mpr (by decide)

end DukBridge
