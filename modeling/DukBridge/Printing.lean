import DukBridge.FrameTriples
import DukBridge.Lib.Filling
import DukBridge.Lib.Traversal

/-!
# `print` and `alert` (duk_print_alert.c)

The arguments are converted to strings first, which may run anything; only then is the size of the
line known, and a buffer is filled with it for a single write.
-/
namespace DukBridge

open Effect

inductive Stream where
  | stdout
  | stderr
deriving DecidableEq

/-- The heap, with what has been written so far, one write at a time. -/
structure Output (H : Type) where
  writes : List (Stream × Bytes)
  rest : H

variable {H : Type}

def withWrite (w : World (Output H)) (fh : Stream) (data : Bytes) : World (Output H) :=
  { w with heap := { w.heap with writes := w.heap.writes ++ [(fh, data)] } }

/-- `fwrite(data, 1, size, fh)`, or an `fprintf` of so much. -/
def fwrite (fh : Stream) (data : Bytes) : Duk (Output H) Unit :=
  modify fun ctx => { ctx with world := withWrite ctx.world fh data }

/-! ### Conversion to strings -/

/-- `duk_replace` at an index from the bottom. -/
def setSlot (i : Nat) (v : JsVal) : Duk H Unit :=
  modify fun ctx => { ctx with stack := (ctx.stack.reverse.set i v).reverse }

section

-- `ToString` of what is no string
variable (toStr : World H → Nat → JsVal → Outcome H Bytes)

/-- `duk_to_lstring(ctx, i, ...)`; a Symbol has no string. -/
def toLstring (i : Nat) : Duk H Bytes := do
  match ← slot i with
  | .string s => if isSymbol s then raise .typeError else return s
  | v =>
    let ctx ← get
    let s ← (toStr ctx.world ctx.free v).run
    setSlot i (.string s)
    return s

/-- From argument `i` on, `k` are converted and their lengths are added up. -/
def sumLengths : Nat → Nat → Word → Duk H Word
  | _, 0, sz => return sz
  | i, k + 1, sz => do
    let s ← toLstring toStr i
    sumLengths (i + 1) k (sz + UInt64.ofNat s.length)

end

/-! ### The line -/

def space : UInt8 := 0x20

def newline : UInt8 := 0x0A

/-- `memcpy`; what a copy that ends outside the buffer does is not said. -/
def copyTo (buf : Bytes) (p : Nat) (data : Bytes) : Duk H Bytes :=
  match storeAt buf p data with
  | some buf' => return buf'
  | none => throw .noReturn

/-- From argument `i` on, `k` strings are copied, each with what comes behind it. -/
def copyArgs : Nat → Nat → Bytes → Nat → Duk H Bytes
  | _, 0, buf, _ => return buf
  | i, k + 1, buf, p => do
    let s := (← slot i).getString.getD []
    let buf ← copyTo buf p s
    let buf ← copyTo buf (p + s.length) [if k = 0 then newline else space]
    copyArgs (i + 1) k buf (p + s.length + 1)

/-- `duk_push_fixed_buffer` -/
def pushFixedBuffer (size : Word) : Duk H Bytes := do
  requireRoom 1
  if size.toNat ≤ maxBufferLen then
    let buf := List.replicate size.toNat 0
    push (.buffer buf)
    return buf
  else raise .rangeError

/-- The size of `buf_stack`. -/
def bufStackSize : Nat := 256

variable (toStr : World (Output H) → Nat → JsVal → Outcome (Output H) Bytes)
  -- what the buffer on the C stack holds
  (bufStack : Vector UInt8 bufStackSize)

def lineBuffer (sz : Word) : Duk (Output H) Bytes :=
  if sz.toNat ≤ bufStackSize then return bufStack.toList else pushFixedBuffer sz

/-- The line for `nargs` arguments, in a buffer with its size. -/
def formatLine (nargs : Nat) : Duk (Output H) (Bytes × Word) := do
  let sz ← sumLengths toStr 0 nargs (UInt64.ofNat nargs)
  let buf ← lineBuffer bufStack sz
  let buf ← copyArgs 0 nargs buf 0
  return (buf, sz)

/-- `nargs == 1 && duk_is_buffer(ctx, 0)` -/
def rawBuffer (nargs : Nat) (v : JsVal) : Option Bytes :=
  match nargs, v with
  | 1, .buffer data => some data
  | _, _ => none

/-- What is to be written, with its size. -/
def format (nargs : Nat) : Duk (Output H) (Bytes × Word) := do
  match rawBuffer nargs (← slot 0) with
  | some data => return (data, UInt64.ofNat data.length)
  | none => if nargs > 0 then formatLine toStr bufStack nargs else return ([newline], 1)

def dukPrintAlertHelper (fh : Stream) : Duk (Output H) Unit := do
  let nargs := (← get).height
  let (buf, sz) ← format toStr bufStack nargs
  if sz > 0 then fwrite fh (buf.take sz.toNat)

def dukPrint : Duk (Output H) Unit := dukPrintAlertHelper toStr bufStack .stdout

def dukAlert : Duk (Output H) Unit := dukPrintAlertHelper toStr bufStack .stderr

/-! ### What is printed -/

section Conversions

variable (toStr : World H → Nat → JsVal → Outcome H Bytes)

/-- A value is converted in one world, which leads to another. -/
inductive Converts (w : World H) : JsVal → Bytes → World H → Prop where
  | string {s : Bytes} (plain : isSymbol s = false) : Converts w (.string s) s w
  | other {v : JsVal} {s : Bytes} {w' : World H} {free reserved : Nat} (other : ∀ s, v ≠ .string s)
      (answer : toStr w free v = .returns s w' reserved) : Converts w v s w'

/-- It cannot be converted. -/
inductive NoString (w : World H) : JsVal → Fault → World H → Prop where
  | symbol {s : Bytes} (symbol : isSymbol s = true) : NoString w (.string s) (.thrown .typeError) w
  | throws {v x : JsVal} {w' : World H} {free reserved : Nat} (other : ∀ s, v ≠ .string s)
      (answer : toStr w free v = .throws x w' reserved) : NoString w v (.thrown (.value x)) w'
  | never {v : JsVal} {free : Nat} (other : ∀ s, v ≠ .string s)
      (answer : toStr w free v = .never) : NoString w v .noReturn w

end Conversions

/-- The strings with a space between any two, on a line of its own. -/
def line (strs : List Bytes) : Bytes := [space].intercalate strs ++ [newline]

/-- Each string with what the second pass puts behind it. -/
def separated : List Bytes → Bytes
  | [] => []
  | s :: rest => s ++ (if rest.length = 0 then newline else space) :: separated rest

theorem separated_length (strs : List Bytes) :
    (separated strs).length = strs.length + strs.flatten.length := by
  induction strs with
  | nil => rfl
  | cons s rest ih =>
    simp only [separated, List.length_append, List.length_cons, List.flatten_cons, ih]
    omega

theorem line_eq_separated {strs : List Bytes} (some : strs ≠ []) : line strs = separated strs := by
  induction strs with
  | nil => exact absurd rfl some
  | cons s rest ih =>
    cases rest with
    | nil => simp [line, separated]
    | cons t rest =>
      have tail := ih (List.cons_ne_nil _ _)
      rw [line] at tail ⊢
      rw [separated, ← tail]
      simp [List.intercalate]

/-- The arguments are these, and so many slots are left. -/
structure Slots (vals : List JsVal) (spare : Nat) (w : World H) (ctx : Ctx H) : Prop where
  stack : ctx.stack.reverse = vals
  room : vals.length + spare ≤ ctx.reserve
  world : ctx.world = w

section Passes

variable {toStr : World H → Nat → JsVal → Outcome H Bytes} {w : World H} {spare : Nat}
  {done : List Bytes} {v : JsVal} {todo : List JsVal}

theorem slot_run {vals : List JsVal} {i : Nat} {ctx : Ctx H} (here : Slots vals spare w ctx) :
    slot i ctx = .ok (vals.getD i .undefined) ctx := by
  rw [← here.stack]
  rfl

theorem toLstring_other {i : Nat} {ctx : Ctx H} (found : slot i ctx = .ok v ctx)
    (other : ∀ s, v ≠ .string s) : toLstring toStr i ctx =
      (do
        let s ← (toStr ctx.world ctx.free v).run
        setSlot i (.string s)
        return s) ctx := by
  rw [toLstring, bind_ok found]
  cases v with
  | string s => exact absurd rfl (other s)
  | _ => rfl

variable (toStr) in
/-- The next argument is converted where it is. -/
theorem meets_toLstring :
    Meets (Slots (done.map .string ++ v :: todo) spare w) (toLstring toStr done.length)
      (fun s ctx => ∃ w', Converts toStr w v s w' ∧
        Slots ((done ++ [s]).map .string ++ todo) spare w' ctx)
      (fun e ctx => NoString toStr w v e ctx.world) := by
  intro ctx here
  have found : slot done.length ctx = .ok v ctx := by
    rw [slot_run here, List.getD_eq_getElem?_getD, List.getElem?_append_right (by simp)]
    simp
  -- a string stays as it is, unless it is a symbol
  by_cases isString : ∃ s, v = .string s
  · obtain ⟨s, rfl⟩ := isString
    have body : toLstring toStr done.length ctx =
        (if isSymbol s then raise .typeError else pure s : Duk H Bytes) ctx := by
      rw [toLstring, bind_ok found]
    rw [body]
    cases symbol : isSymbol s with
    | true => exact here.world ▸ NoString.symbol symbol
    | false =>
      exact ⟨w, .string symbol, by simpa using here.stack, by simpa using here.room, here.world⟩
  · have other : ∀ s, v ≠ .string s := fun s same => isString ⟨s, same⟩
    obtain rfl := here.world
    rw [toLstring_other found other]
    cases answer : toStr ctx.world ctx.free v with
    | returns s w' reserved =>
      refine ⟨w', .other other answer, ?_, ?_, rfl⟩
      · change (ctx.stack.reverse.set done.length (.string s)).reverse.reverse = _
        rw [List.reverse_reverse, here.stack, List.set_append_right _ _ (by simp)]
        simp
      · have := here.room
        simp only [List.length_append, List.length_map, List.length_cons, List.length_nil] at this ⊢
        change _ ≤ ctx.reserve + reserved
        omega
    | throws x w' reserved => exact .throws other answer
    | never => exact .never other answer

/-- The first pass: all the arguments are strings afterwards, and their lengths have been added. -/
theorem meets_sumLengths (sz : Word) :
    Meets (Slots (done.map .string ++ todo) spare w) (sumLengths toStr done.length todo.length sz)
      (fun sz' ctx => ∃ strs w', Goes (Converts toStr) w todo strs w' ∧
        sz' = sz + UInt64.ofNat strs.flatten.length ∧
        Slots ((done ++ strs).map .string) spare w' ctx)
      (fun e ctx => Stops (Converts toStr) (NoString toStr) w todo e ctx.world) := by
  -- on the arguments still to do; those before them are strings already
  induction todo generalizing done w sz with
  | nil =>
    refine .pure fun ctx here => ⟨[], w, .nil, ?_, ?_⟩
    · simp
    · simpa using here
  | cons v todo ih =>
    intro ctx here
    have first := meets_toLstring toStr ctx here
    rw [List.length_cons, sumLengths, bind_run]
    cases ran : toLstring toStr done.length ctx with
    | error e ctx' =>
      rw [ran] at first
      exact .here first
    | ok s ctx' =>
      rw [ran] at first
      obtain ⟨w', converts, there⟩ := first
      have rest := ih (sz + UInt64.ofNat s.length) ctx' there
      rw [List.length_append, List.length_singleton] at rest
      dsimp only
      cases ran' : sumLengths toStr (done.length + 1) todo.length (sz + UInt64.ofNat s.length) ctx' with
      | error e ctx'' =>
        rw [ran'] at rest
        exact .later converts rest
      | ok sz' ctx'' =>
        rw [ran'] at rest
        obtain ⟨strs, w'', goes, sum, last⟩ := rest
        refine ⟨s :: strs, w'', .cons converts goes, ?_, ?_⟩
        · rw [sum, List.flatten_cons, List.length_append, UInt64.ofNat_add, UInt64.add_assoc]
        · rwa [List.append_assoc, List.singleton_append] at last

theorem copyTo_run {ctx : Ctx H} {buf buf' data : Bytes} {p : Nat}
    (stored : storeAt buf p data = some buf') : copyTo buf p data ctx = .ok buf' ctx := by
  rw [copyTo, stored]
  rfl

/-- The second pass fills the buffer as far as the first one has counted. -/
theorem copyArgs_run {strs : List Bytes} {above : List JsVal} {ctx : Ctx H} {out buf : Bytes}
    (here : Slots ((done ++ strs).map .string ++ above) spare w ctx) (written : out <+: buf)
    (fits : out.length + (separated strs).length ≤ buf.length) :
    ∃ buf', copyArgs done.length strs.length buf out.length ctx = .ok buf' ctx ∧
      buf'.length = buf.length ∧ (out ++ separated strs) <+: buf' := by
  -- what is written so far is always the front of the buffer
  induction strs generalizing done out buf with
  | nil => exact ⟨buf, rfl, rfl, by rwa [separated, List.append_nil]⟩
  | cons s rest ih =>
    have found : slot done.length ctx = .ok (.string s) ctx := by
      rw [slot_run here, List.getD_eq_getElem?_getD]
      simp
    rw [separated, List.length_append, List.length_cons] at fits
    -- the same character is chosen by the loop
    generalize separator : (if rest.length = 0 then newline else space) = c at fits
    obtain ⟨buf₁, stored, same, written₁⟩ := storeAt_written written s (by omega)
    obtain ⟨buf₂, stored', same', written₂⟩ := storeAt_written written₁ [c] (by
      rw [List.length_append, List.length_singleton]
      omega)
    have here' : Slots ((done ++ [s] ++ rest).map .string ++ above) spare w ctx := by
      simpa using here
    obtain ⟨buf₃, copied, same'', written₃⟩ := ih here' written₂ (by
      rw [List.length_append, List.length_append, List.length_singleton]
      omega)
    simp only [List.length_append, List.length_singleton] at stored' copied
    refine ⟨buf₃, ?_, same''.trans (same'.trans same), ?_⟩
    · rw [List.length_cons, copyArgs, bind_ok found]
      dsimp only [JsVal.getString, Option.getD_some]
      rw [bind_ok (copyTo_run stored), separator, bind_ok (copyTo_run stored')]
      exact copied
    · rw [separated, separator]
      simpa using written₃

end Passes

/-! ### The endings -/

/-- `DUK_USE_VALSTACK_LIMIT` -/
def valstackLimit : Nat := 1000000

/-- The strings and buffers Duktape has are no longer than it allows. -/
def JsVal.Storable : JsVal → Prop
  | .string s => s.length ≤ maxStringLen
  | .buffer data => data.length ≤ maxBufferLen
  | _ => True

/-- What the values of a call allow for. -/
structure Arguments (toStr : World H → Nat → JsVal → Outcome H Bytes) (args : List JsVal) : Prop where
  few : args.length ≤ valstackLimit
  storable : ∀ v ∈ args, v.Storable
  answers : ∀ {w free v s w' reserved}, toStr w free v = .returns s w' reserved →
    s.length ≤ maxStringLen

section Endings

variable {toStr : World (Output H) → Nat → JsVal → Outcome (Output H) Bytes}
  {bufStack : Vector UInt8 bufStackSize} {w : World (Output H)} {spare : Nat} {args : List JsVal}
  {strs : List Bytes}

variable (toStr) in
/-- What a call prints, in the world its conversions lead to. -/
inductive Prints (w : World (Output H)) : List JsVal → Bytes → World (Output H) → Prop where
  | raw {data : Bytes} : Prints w [.buffer data] data w
  | line {args : List JsVal} {strs : List Bytes} {w' : World (Output H)}
      (notRaw : ∀ data, args ≠ [.buffer data])
      (converted : Goes (Converts toStr) w args strs w') : Prints w args (line strs) w'

variable (toStr) in
/-- Why it prints nothing. -/
inductive PrintFails (w : World (Output H)) (args : List JsVal) : Fault → World (Output H) → Prop where
  | noString {e : Fault} {w' : World (Output H)}
      (stops : Stops (Converts toStr) (NoString toStr) w args e w') : PrintFails w args e w'
  | long {strs : List Bytes} {w' : World (Output H)}
      (converted : Goes (Converts toStr) w args strs w')
      (long : maxBufferLen < (line strs).length) : PrintFails w args (.thrown .rangeError) w'

/-- Nothing is written where there is nothing to write. -/
def written (w : World (Output H)) (fh : Stream) (out : Bytes) : World (Output H) :=
  if out = [] then w else withWrite w fh out

theorem rawBuffer_eq_some {data : Bytes} :
    rawBuffer args.length (args.getD 0 .undefined) = some data ↔ args = [.buffer data] := by
  cases args with
  | nil => simp [rawBuffer]
  | cons v rest =>
    cases rest with
    | cons v' rest => simp [rawBuffer]
    | nil => cases v <;> simp [rawBuffer]

theorem flatten_length_le {n : Nat} (each : ∀ s ∈ strs, s.length ≤ n) :
    strs.flatten.length ≤ strs.length * n := by
  induction strs with
  | nil => exact Nat.zero_le _
  | cons s rest ih =>
    have first := each s (List.mem_cons_self ..)
    have others := ih fun t mem => each t (List.mem_cons_of_mem _ mem)
    rw [List.flatten_cons, List.length_append, List.length_cons, Nat.add_mul]
    omega

/-- The size that has been counted has not wrapped round. -/
theorem size_toNat (arguments : Arguments toStr args) {w' : World (Output H)}
    (goes : Goes (Converts toStr) w args strs w') :
    (UInt64.ofNat args.length + UInt64.ofNat strs.flatten.length).toNat = (separated strs).length := by
  have each : ∀ s ∈ strs, s.length ≤ maxStringLen := by
    refine goes.results fun among converts => ?_
    cases converts with
    | string plain => exact arguments.storable _ among
    | other other answer => exact arguments.answers answer
  -- so many strings of this length stay under 2 ^ 64
  have total := flatten_length_le each
  have few := arguments.few
  have length := goes.length
  rw [length] at total
  have most : args.length * maxStringLen ≤ valstackLimit * maxStringLen :=
    Nat.mul_le_mul_right _ few
  simp only [valstackLimit, maxStringLen] at few most total
  rw [separated_length, length, ← UInt64.ofNat_add, UInt64.toNat_ofNat', Nat.mod_eq_of_lt]
  omega

/-- The buffer is large enough for the second pass, on the C stack or off it. -/
theorem meets_buffer (bufStack : Vector UInt8 bufStackSize) {w' : World (Output H)} (sz : Word)
    (room : 1 ≤ spare) :
    Meets (Slots (strs.map .string) spare w')
      (lineBuffer bufStack sz)
      (fun buf ctx => sz.toNat ≤ buf.length ∧
        ∃ above, Slots (strs.map .string ++ above) 0 w' ctx)
      (fun e ctx => e = .thrown .rangeError ∧ maxBufferLen < sz.toNat ∧ ctx.world = w') := by
  -- the array on the C stack leaves the arguments alone, a fixed buffer goes on top of them
  refine .ite (fun small => .pure fun ctx here => ?_) fun large ctx here => ?_
  · refine ⟨by simpa using small, [], by simpa using here.stack, ?_, here.world⟩
    have := here.room
    simp only [List.append_nil]
    omega
  · have height : ctx.height + 1 ≤ ctx.reserve := by
      have := here.room
      rw [← here.stack, List.length_reverse] at this
      exact Nat.le_trans (Nat.add_le_add_left room _) this
    rw [pushFixedBuffer, bind_run, requireRoom_run, if_pos height]
    by_cases fits : sz.toNat ≤ maxBufferLen
    · have pushed : push (.buffer (List.replicate sz.toNat 0)) ctx =
          .ok () (ctx.pushed (.buffer (List.replicate sz.toNat 0))) := by
        rw [push_run, if_pos height]
      simp only [fits, if_true, bind_run, pushed, pure_run]
      refine ⟨by simp, [.buffer (List.replicate sz.toNat 0)], ?_, ?_, here.world⟩
      · rw [Ctx.pushed_stack, List.reverse_cons, here.stack]
      · have := here.room
        simp only [List.length_append, List.length_singleton]
        change _ ≤ ctx.reserve
        omega
    · simp only [fits, if_false]
      exact ⟨rfl, Nat.lt_of_not_le fits, here.world⟩

theorem meets_formatLine (arguments : Arguments toStr args) (some : args ≠ []) (room : 1 ≤ spare) :
    Meets (Slots args spare w) (formatLine toStr bufStack args.length)
      (fun r ctx => ∃ strs, Goes (Converts toStr) w args strs ctx.world ∧
        r.1.take r.2.toNat = line strs ∧ r.2.toNat = (line strs).length)
      (fun e ctx => PrintFails toStr w args e ctx.world) := by
  intro ctx here
  have pass : Meets (Slots (List.map .string [] ++ args) spare w) (sumLengths toStr
      (@List.length Bytes []) args.length (UInt64.ofNat args.length)) _ _ := meets_sumLengths _
  have counted := pass ctx here
  rw [formatLine, bind_run]
  rw [List.length_nil] at counted
  cases ran : sumLengths toStr 0 args.length (UInt64.ofNat args.length) ctx with
  | error e ctx' =>
    rw [ran] at counted
    exact .noString counted
  | ok sz ctx' =>
    rw [ran] at counted
    obtain ⟨strs, w', goes, rfl, there⟩ := counted
    have size := size_toNat arguments goes
    -- there is a string, since there is an argument
    have lines : line strs = separated strs := by
      refine line_eq_separated fun none => some ?_
      have length := goes.length
      rw [none] at length
      exact List.length_eq_zero_iff.mp length.symm
    generalize UInt64.ofNat args.length + UInt64.ofNat strs.flatten.length = sz at size
    have buffered := meets_buffer bufStack sz room ctx' there
    dsimp only
    rw [bind_run]
    cases ran' : lineBuffer bufStack sz ctx' with
    | error e ctx'' =>
      rw [ran'] at buffered
      obtain ⟨rfl, long, rfl⟩ := buffered
      exact .long goes (by rwa [lines, ← size])
    | ok buf ctx'' =>
      rw [ran'] at buffered
      obtain ⟨enough, above, last⟩ := buffered
      have pass' : ∃ buf', copyArgs (@List.length Bytes []) strs.length buf (@List.length UInt8 [])
          ctx'' = .ok buf' ctx'' ∧ _ := copyArgs_run last List.nil_prefix (by
        rw [List.length_nil, Nat.zero_add, ← size]
        exact enough)
      obtain ⟨buf', copied, _, filled⟩ := pass'
      simp only [List.length_nil, goes.length] at copied
      dsimp only
      rw [bind_ok copied]
      refine ⟨strs, last.world ▸ goes, ?_, by rw [lines, size]⟩
      rw [lines, size]
      exact (List.prefix_iff_eq_take.mp filled).symm

/-- The write at the end, of so much as has been counted. -/
theorem write_run {buf out : Bytes} {sz : Word} (fh : Stream) (ctx : Ctx (Output H))
    (filled : buf.take sz.toNat = out) (size : sz.toNat = out.length) :
    (if sz > 0 then fwrite fh (buf.take sz.toNat) else pure () : Duk (Output H) Unit) ctx =
      .ok () { ctx with world := written ctx.world fh out } := by
  have positive : sz > 0 ↔ out ≠ [] := by
    rw [← List.length_pos_iff, ← size]
    exact UInt64.lt_iff_toNat_lt
  by_cases some : out = []
  · rw [if_neg (by rw [positive]; exact not_not.mpr some), written, if_pos some]
    rfl
  · rw [if_pos (positive.mpr some), written, if_neg some, filled]
    rfl

/-- The bytes in the buffer are what is printed, and so is their number. -/
theorem meets_format (bufStack : Vector UInt8 bufStackSize) (arguments : Arguments toStr args)
    (room : 1 ≤ spare) :
    Meets (Slots args spare w) (format toStr bufStack args.length)
      (fun r ctx => ∃ out, Prints toStr w args out ctx.world ∧ r.1.take r.2.toNat = out ∧
        r.2.toNat = out.length)
      (fun e ctx => PrintFails toStr w args e ctx.world) := by
  intro ctx here
  rw [format, bind_ok (slot_run here)]
  cases raw : rawBuffer args.length (args.getD 0 .undefined) with
  | some data =>
    obtain rfl := rawBuffer_eq_some.mp raw
    have storable : data.length ≤ maxBufferLen := arguments.storable _ (List.mem_singleton_self _)
    have size : (UInt64.ofNat data.length).toNat = data.length := by
      rw [UInt64.toNat_ofNat', Nat.mod_eq_of_lt]
      simp only [maxBufferLen] at storable
      omega
    refine ⟨data, here.world ▸ .raw, ?_, size⟩
    rw [size, List.take_length]
  | none =>
    have notRaw : ∀ data, args ≠ [.buffer data] := by
      intro data same
      rw [rawBuffer_eq_some.mpr same] at raw
      cases raw
    dsimp only
    by_cases empty : args = []
    · subst empty
      exact ⟨line [], here.world ▸ .line notRaw .nil, rfl, rfl⟩
    · rw [if_pos (List.length_pos_iff.mpr empty)]
      refine (meets_formatLine arguments empty room).mono (fun _ pre => pre) ?_ ctx here
      rintro r ctx' ⟨strs, goes, filled, size⟩
      exact ⟨line strs, .line notRaw goes, filled, size⟩

/-- The output is one line of all the arguments, or the bytes of the one buffer, in one write; it
comes after whatever the conversions print, and where one of them fails nothing comes. -/
theorem dukPrintAlertHelper_ends (bufStack : Vector UInt8 bufStackSize) (fh : Stream)
    (arguments : Arguments toStr args) (room : 1 ≤ spare) :
    Meets (Slots args spare w) (dukPrintAlertHelper toStr bufStack fh)
      (fun _ ctx => ∃ out w', Prints toStr w args out w' ∧ ctx.world = written w' fh out)
      (fun e ctx => PrintFails toStr w args e ctx.world) := by
  refine .get_bind fun ctx here => ?_
  have height : ctx.height = args.length := by
    rw [← here.stack, List.length_reverse]
    rfl
  rw [height]
  have formatted := (meets_format bufStack arguments room).mono
    (fun s (same : s = ctx) => same ▸ here) fun _ _ post => post
  apply formatted.bind
  rintro ⟨buf, sz⟩ ctx' ⟨out, prints, filled, size⟩
  dsimp only at filled size ⊢
  rw [write_run fh ctx' filled size]
  exact ⟨out, _, prints, rfl⟩

/-- `ToString` of an object that prints `x` itself, and is `y`. -/
def chattyToStr (w : World (Output Unit)) (_ : Nat) (_ : JsVal) : Outcome (Output Unit) Bytes :=
  .returns (ascii "y") (withWrite w .stdout (ascii "x\n")) 0

def quietWorld : World (Output Unit) :=
  ⟨fun _ => ⟨.plain, fun _ => none, true, none⟩, 1, 0, [], ()⟩

theorem chatty_arguments : Arguments chattyToStr [.string (ascii "a"), .object 0] where
  few := by decide
  storable := by
    intro v mem
    simp only [List.mem_cons, List.not_mem_nil, or_false] at mem
    rcases mem with rfl | rfl
    · exact Nat.le_of_ble_eq_true rfl
    · trivial
  answers := by
    intro w free v s w' reserved answer
    cases answer
    decide

def chattyFrame : Ctx (Output Unit) := ⟨[.object 0, .string (ascii "a")], 66, quietWorld⟩

theorem dukPrintAlertHelper_ends_test : ∃ ctx : Ctx (Output Unit),
    ctx.world.heap.writes = [(.stdout, ascii "x\n"), (.stdout, ascii "a y\n")] ∧
      ∃ out w', Prints chattyToStr quietWorld [.string (ascii "a"), .object 0] out w' ∧
        ctx.world = written w' .stdout out := by
  have runs : returnsIn (fun ctx => ctx.world.heap.writes =
      [(.stdout, ascii "x\n"), (.stdout, ascii "a y\n")])
      (dukPrintAlertHelper chattyToStr (Vector.replicate _ 7) .stdout) chattyFrame = true := by
    decide +kernel
  obtain ⟨_, ctx, ran, writes⟩ := returnsIn_eq_true.mp runs
  refine ⟨ctx, decide_eq_true_iff.mp writes, ?_⟩
  have slots : Slots [.string (ascii "a"), .object 0] 64 quietWorld chattyFrame :=
    ⟨rfl, by decide, rfl⟩
  exact (dukPrintAlertHelper_ends _ .stdout chatty_arguments (by decide)).of_ok slots ran

end Endings

end DukBridge
