import DukBridge.Lib.Cesu8
import DukBridge.ModuleSearch

/-!
# The module home in the script

`set_modSearch` puts the path between two quotes of its script with `%s`. What the literal then
stands for, and where it ends, is up to Duktape's lexer.
-/
namespace DukBridge

open Cesu8

/-! ### The script -/

def lines (text : List String) : Bytes := [(0x0A : UInt8)].intercalate (text.map ascii)

/-- `modSearch_impl` up to its `%s`. -/
def modSearchOpening : Bytes := lines [
    "Duktape.modSearch = function (id, require, exports, module) \x7b",
    "    /* readFile(): reads a file from disk, and returns a string or undefined.",
    "     * 'id' is in resolved canonical form so it only contains terms and",
    "     * slashes, and no '.' or '..' terms.",
    "     *",
    "     * loadAndInitDll(): load DLL, call its init function, return module",
    "     * init function return value (typically an object containing the",
    "     * module's function/constant bindings).  Return undefined if DLL",
    "     * not found.",
    "     */",
    "    var name;",
    "    var src;",
    "    var mod;",
    "    //print('in modSearch_impl');",
    "\tvar modHome = '"]

/-- `modSearch_impl` after the quote that ends the literal. -/
def modSearchRest : Bytes := lines [
    ";",
    "\tif (id.endsWith('.js')) \x7b",
    "\t\tname = modHome + id;",
    "\t\tsrc = readFile(name);",
    "\t\tif (typeof src === 'string') \x7b",
    "\t\t\treturn src;",
    "\t\t\x7d",
    "\t\tthrow new Error('module not found: ' + id);",
    "\t\x7d",
    "\t/* ECMAScript check. */",
    "\tname = modHome + id + '.js';",
    "\tsrc = readFile(name);",
    "\tif (typeof src === 'string') \x7b",
    "\t\treturn src;",
    "\t\x7d",
    "   /* DLL check.  DLL init function is platform specific.",
    "\t*",
    "\t* The DLL loader could also need e.g. 'require' to load further modules,",
    "\t* but typically native modules don't need to load submodules.",
    "\t*/",
    "\tname = modHome + id + '.so';",
    "\tmod = loadAndInitDll(name, id);",
    "\tif (mod) \x7b",
    "\t\tmodule.exports = mod;  /* replace exports table with module's exports */",
    "\t\treturn undefined;",
    "\t\x7d",
    "\t/* load native module */",
    "\tmod = loadNativeModule(modHome, id);",
    "\tif (mod) \x7b",
    "\t\tmodule.exports = mod;",
    "\t\treturn undefined;",
    "\t\x7d",
    "    /* Must find either a DLL or an ECMAScript file (or both) */",
    "    throw new Error('module not found: ' + id);",
    "\x7d"]

def modulesDir : Bytes := ascii "/modules/"

/-- The bytes of a quote. -/
def quoteByte : UInt8 := 0x27

/-- `modSearch_impl` after its `%s`. -/
def modSearchClosing : Bytes := modulesDir ++ quoteByte :: modSearchRest

/-- `DUK_PUSH_SPRINTF_SANITY_LIMIT` -/
def sprintfLimit : Nat := 2 ^ 30

/-- The loop of `duk_push_vsprintf`: the buffer is doubled until the text fits with its
terminator, and 30 times are more than the limit allows. -/
def sprintfFits (len : Nat) : Nat → Nat → Bool
  | _, 0 => false
  | sz, n + 1 =>
    if len < sz then true
    else if sprintfLimit ≤ sz * 2 then false
    else sprintfFits len (sz * 2) n

/-- The first buffer has 16 bytes more than the format, which is longer than
`DUK_PUSH_SPRINTF_INITIAL_SIZE`. -/
def formatFits (opening closing arg : Bytes) : Bool :=
  sprintfFits (opening ++ (arg ++ closing)).length
    ((opening ++ (ascii "%s" ++ closing)).length + 16) 30

/-- `duk_push_sprintf` with a string between two parts of its format, or nothing for a
RangeError. -/
def pushSprintf (opening closing arg : Bytes) : Option Bytes :=
  if formatFits opening closing arg then some (opening ++ (arg ++ closing)) else none

/-- `duk_push_sprintf(ctx, modSearch_impl, mod_path)` -/
def pushModSearch (modPath : Bytes) : Option Bytes :=
  pushSprintf modSearchOpening modSearchClosing modPath

/-! ### The lexer -/

def isLineTerminator (cp : Nat) : Bool := cp == 0x0A || cp == 0x0D || cp == 0x2028 || cp == 0x2029

/-- `duk__hexval_validate` -/
def hexval (x : Nat) : Option Nat :=
  if 0x30 ≤ x ∧ x ≤ 0x39 then some (x - 0x30)
  else if 0x61 ≤ x ∧ x ≤ 0x66 then some (x - 0x61 + 10)
  else if 0x41 ≤ x ∧ x ≤ 0x46 then some (x - 0x41 + 10)
  else none

/-- So many hex digits, as in `\xHH` and `\uHHHH`. -/
def hexDigits : Nat → Nat → Bytes → Option (Nat × Bytes)
  | 0, escval, src => some (escval, src)
  | n + 1, escval, src =>
    match readChar src with
    | none => none
    | some (x, rest) =>
      match hexval x with
      | none => none
      | some dig => hexDigits n (escval * 16 + dig) rest

theorem readChar_length {src rest : Bytes} {cp : Nat} (read : readChar src = some (cp, rest)) :
    rest.length < src.length := by
  obtain ⟨chunk, rfl, pos, _⟩ := readChar_eq_some read
  rw [List.length_append]
  omega

/-- The digits and the bracket of the escape with brackets; there has to be a digit. -/
def bracedDigits (any : Bool) (escval : Nat) (src : Bytes) : Option (Nat × Bytes) :=
  match _read : readChar src with
  | none => none
  | some (x, rest) =>
    match hexval x with
    | some dig =>
      if 0x10FFFF < escval * 16 + dig then none else bracedDigits true (escval * 16 + dig) rest
    | none => if x = 0x7D ∧ any then some (escval, rest) else none
termination_by src.length
decreasing_by exact readChar_length ‹_›

/-- Up to so many octal digits, as long as the value fits a byte. -/
def octalDigits : Nat → Nat → Bytes → Nat × Bytes
  | 0, cp, src => (cp, src)
  | n + 1, cp, src =>
    match readChar src with
    | none => (cp, src)
    | some (x, rest) =>
      if 0x30 ≤ x ∧ x ≤ 0x37 ∧ cp * 8 + (x - 0x30) ≤ 0xFF then
        octalDigits n (cp * 8 + (x - 0x30)) rest
      else (cp, src)

/-- The escapes of one character: quotes, the backslash and `b`, `f`, `n`, `r`, `t`, `v`. -/
def singleEscapes : List (Nat × Nat) :=
  [(0x27, 0x27), (0x22, 0x22), (0x5C, 0x5C), (0x62, 0x08), (0x66, 0x0C), (0x6E, 0x0A),
    (0x72, 0x0D), (0x74, 0x09), (0x76, 0x0B)]

/-- What an escape stands for, after its backslash. -/
def parseEscape (src : Bytes) : Option (Bytes × Bytes) :=
  match readChar src with
  | none => none
  | some (x, rest) =>
    match singleEscapes.lookup x with
    | some cp => some (encode cp, rest)
    | none =>
      if x = 0x78 then (hexDigits 2 0 rest).map fun esc => (encode esc.1, esc.2)
      else if x = 0x75 then
        match readChar rest with
        | some (0x7B, digits) => (bracedDigits false 0 digits).map fun esc => (encode esc.1, esc.2)
        | _ => (hexDigits 4 0 rest).map fun esc => (encode esc.1, esc.2)
      else if isLineTerminator x then
        -- a line continuation; CR LF is one line terminator
        match readChar rest with
        | some (0x0A, after) => if x = 0x0D then some ([], after) else some ([], rest)
        | _ => some ([], rest)
      else if 0x30 ≤ x ∧ x ≤ 0x37 then
        let octal := octalDigits 3 0 src
        some (encode octal.1, octal.2)
      else some (encode x, rest)

/-! ### What an escape takes -/

theorem hexval_lt {x dig : Nat} (digit : hexval x = some dig) : dig < 16 := by
  unfold hexval at digit
  split_ifs at digit <;> cases digit <;> omega

theorem hexDigits_eq_some {n escval cp : Nat} {src rest : Bytes}
    (read : hexDigits n escval src = some (cp, rest)) :
    ∃ chunk, src = chunk ++ rest ∧ n ≤ chunk.length ∧ cp < (escval + 1) * 16 ^ n := by
  induction n generalizing escval src with
  | zero =>
    cases read
    exact ⟨[], rfl, Nat.le_refl 0, by omega⟩
  | succ n ih =>
    rw [hexDigits] at read
    split at read
    · cases read
    next x src' first =>
    split at read
    · cases read
    next dig digit =>
    obtain ⟨chunk, rfl, pos, _⟩ := readChar_eq_some first
    obtain ⟨more, rfl, long, value⟩ := ih read
    refine ⟨chunk ++ more, by simp, by simp; omega, value.trans_le ?_⟩
    have small := hexval_lt digit
    calc (escval * 16 + dig + 1) * 16 ^ n ≤ ((escval + 1) * 16) * 16 ^ n :=
          Nat.mul_le_mul_right _ (by omega)
      _ = (escval + 1) * 16 ^ (n + 1) := by rw [pow_succ']; ring

theorem bracedDigits_eq_some {any : Bool} {escval cp : Nat} {src rest : Bytes}
    (read : bracedDigits any escval src = some (cp, rest)) :
    ∃ chunk digits, src = chunk ++ rest ∧ digits + 1 ≤ chunk.length ∧
      cp < (escval + 1) * 16 ^ digits := by
  generalize size : src.length = n
  induction n using Nat.strong_induction_on generalizing any escval src with
  | _ n ih =>
    rw [bracedDigits] at read
    split at read
    · cases read
    next x src' first =>
    have shorter := readChar_length first
    obtain ⟨chunk, rfl, pos, _⟩ := readChar_eq_some first
    split at read
    · next dig digit =>
      split at read
      · cases read
      obtain ⟨more, digits, rfl, long, value⟩ := ih _ (size ▸ shorter) read rfl
      refine ⟨chunk ++ more, digits + 1, by simp, by simp; omega, value.trans_le ?_⟩
      have small := hexval_lt digit
      calc (escval * 16 + dig + 1) * 16 ^ digits ≤ ((escval + 1) * 16) * 16 ^ digits :=
            Nat.mul_le_mul_right _ (by omega)
        _ = (escval + 1) * 16 ^ (digits + 1) := by rw [pow_succ']; ring
    · split at read
      · cases read
        exact ⟨chunk, 0, rfl, by omega, by omega⟩
      · cases read

theorem octalDigits_eq {n cp cp' : Nat} {src rest : Bytes} (small : cp ≤ 0xFF)
    (read : octalDigits n cp src = (cp', rest)) :
    ∃ chunk digits, src = chunk ++ rest ∧ digits ≤ chunk.length ∧ cp' ≤ 0xFF ∧
      cp' < (cp + 1) * 8 ^ digits := by
  induction n generalizing cp src with
  | zero =>
    cases read
    exact ⟨[], 0, rfl, Nat.le_refl 0, small, by omega⟩
  | succ n ih =>
    rw [octalDigits] at read
    split at read
    · cases read
      exact ⟨[], 0, rfl, Nat.le_refl 0, small, by omega⟩
    next x src' first =>
    split at read
    · next octal =>
      obtain ⟨chunk, rfl, pos, _⟩ := readChar_eq_some first
      obtain ⟨more, digits, rfl, long, byte, value⟩ := ih octal.2.2 read
      refine ⟨chunk ++ more, digits + 1, by simp, by simp; omega, byte, value.trans_le ?_⟩
      calc (cp * 8 + (x - 0x30) + 1) * 8 ^ digits ≤ ((cp + 1) * 8) * 8 ^ digits :=
            Nat.mul_le_mul_right _ (by omega)
        _ = (cp + 1) * 8 ^ (digits + 1) := by rw [pow_succ']; ring
    · cases read
      exact ⟨[], 0, rfl, Nat.le_refl 0, small, by omega⟩

/-- `emitted` stands for the bytes before `rest`, and is not longer than they are. -/
def Takes (src emitted rest : Bytes) : Prop :=
  ∃ chunk, src = chunk ++ rest ∧ (∀ b ∈ emitted, b.toNat < 0xF0) ∧
    ((∀ b ∈ chunk, b.toNat < 0xF0) → emitted.length ≤ chunk.length)

theorem takes_encode {chunk rest : Bytes} {cp : Nat}
    (long : (encode cp).length ≤ chunk.length) : Takes (chunk ++ rest) (encode cp) rest :=
  ⟨chunk, rfl, fun _ member => encode_lt member, fun _ => long⟩

theorem takes_nothing (chunk rest : Bytes) : Takes (chunk ++ rest) [] rest :=
  ⟨chunk, rfl, by simp, fun _ => Nat.zero_le _⟩

theorem encode_length_le {cp digits : Nat} (value : cp < 16 ^ digits) :
    (encode cp).length ≤ digits + 3 := by
  rw [encode_length]
  split_ifs with one two three
  · omega
  · omega
  · omega
  · -- it takes five digits to get here
    by_contra short
    have few : 16 ^ digits ≤ 16 ^ 4 := Nat.pow_le_pow_right (by decide) (by omega)
    omega

theorem singleEscapes_lt {x cp : Nat} (single : singleEscapes.lookup x = some cp) : cp < 0x80 := by
  have all : ∀ entry ∈ singleEscapes, entry.2 < 0x80 := by decide
  obtain ⟨before, after, split, _⟩ := List.lookup_eq_some_iff.mp single
  exact all (x, cp) (by simp [split])

theorem parseEscape_takes {src rest emitted : Bytes}
    (read : parseEscape src = some (emitted, rest)) : Takes src emitted rest := by
  unfold parseEscape at read
  split at read
  · cases read
  next x src' first =>
  obtain ⟨chunk, rfl, pos, own⟩ := readChar_eq_some first
  split at read
  · next cp single =>
    cases read
    apply takes_encode
    rw [encode_length, if_pos (singleEscapes_lt single)]
    exact pos
  split at read
  · -- two hex digits are worth two bytes at most
    obtain ⟨⟨cp, _⟩, digits, same⟩ := Option.map_eq_some_iff.mp read
    cases same
    obtain ⟨more, rfl, long, value⟩ := hexDigits_eq_some digits
    rw [← List.append_assoc]
    apply takes_encode
    rw [encode_length, List.length_append]
    split_ifs <;> omega
  split at read
  · split at read
    · next digits second =>
      obtain ⟨⟨cp, _⟩, braced, same⟩ := Option.map_eq_some_iff.mp read
      cases same
      obtain ⟨bracket, rfl, posB, _⟩ := readChar_eq_some second
      obtain ⟨more, count, rfl, long, value⟩ := bracedDigits_eq_some braced
      rw [← List.append_assoc, ← List.append_assoc]
      apply takes_encode
      have few : cp < 16 ^ count := by simpa using value
      have short := encode_length_le few
      simp only [List.length_append]
      omega
    · obtain ⟨⟨cp, _⟩, digits, same⟩ := Option.map_eq_some_iff.mp read
      cases same
      obtain ⟨more, rfl, long, value⟩ := hexDigits_eq_some digits
      rw [← List.append_assoc]
      apply takes_encode
      rw [encode_length, List.length_append]
      split_ifs <;> omega
  split at read
  · split at read
    · next after second =>
      obtain ⟨feed, rfl, _⟩ := readChar_eq_some second
      split at read
      · cases read
        rw [← List.append_assoc]
        exact takes_nothing _ _
      · cases read
        exact takes_nothing _ _
    · cases read
      exact takes_nothing _ _
  split at read
  · next octal =>
    -- the first digit is there, and three of them are worth two bytes at most
    have step : octalDigits 3 0 (chunk ++ src') = octalDigits 2 (x - 0x30) src' := by
      rw [octalDigits, first]
      simp only [Nat.zero_mul, Nat.zero_add]
      rw [if_pos ⟨octal.1, octal.2, by omega⟩]
    rw [step] at read
    generalize ran : octalDigits 2 (x - 0x30) src' = octal' at read
    obtain ⟨cp, rest'⟩ := octal'
    cases read
    obtain ⟨more, digits, rfl, long, byte, value⟩ := octalDigits_eq (by omega) ran
    rw [← List.append_assoc]
    apply takes_encode
    rw [encode_length, List.length_append]
    split_ifs with one
    · omega
    · have some : digits ≠ 0 := by
        rintro rfl
        rw [pow_zero, Nat.mul_one] at value
        omega
      omega
    all_goals omega
  · cases read
    exact ⟨chunk, rfl, fun _ member => encode_lt member, fun small => (own small).2.1⟩

theorem parseEscape_length {src rest emitted : Bytes}
    (read : parseEscape src = some (emitted, rest)) : rest.length ≤ src.length := by
  obtain ⟨chunk, rfl, _⟩ := parseEscape_takes read
  simp

/-- `duk__lexer_parse_string_literal` after the opening quote: what the literal stands for, and the
source after it. Bytes that are no text are found where they are read, not some characters
earlier; nothing comes back in either case. -/
def parseStringLiteral (src : Bytes) : Option (Bytes × Bytes) :=
  match _read : readChar src with
  | none => none
  | some (x, rest) =>
    if x = 0x27 then some ([], rest)
    else if x = 0x5C then
      match _escape : parseEscape rest with
      | none => none
      | some (emitted, rest') =>
        (parseStringLiteral rest').map fun more => (emitted ++ more.1, more.2)
    else if isLineTerminator x then none
    else (parseStringLiteral rest).map fun more => (encode x ++ more.1, more.2)
termination_by src.length
decreasing_by
  · exact (parseEscape_length ‹_›).trans_lt (readChar_length ‹_›)
  · exact readChar_length ‹_›

/-! ### Literals without escapes -/

/-- A character that stands for itself between two quotes. -/
structure PlainUnit (u : Nat) : Prop where
  unit : u < 0x10000
  noQuote : u ≠ 0x27
  noEscape : u ≠ 0x5C
  sameLine : isLineTerminator u = false

instance (u : Nat) : Decidable (PlainUnit u) :=
  decidable_of_iff (u < 0x10000 ∧ u ≠ 0x27 ∧ u ≠ 0x5C ∧ isLineTerminator u = false)
    ⟨fun ⟨unit, noQuote, noEscape, sameLine⟩ => ⟨unit, noQuote, noEscape, sameLine⟩,
      fun ⟨unit, noQuote, noEscape, sameLine⟩ => ⟨unit, noQuote, noEscape, sameLine⟩⟩

/-- Text of such characters, each in its own form of one to three bytes. -/
def PlainText (text : Bytes) : Prop :=
  ∃ units : List Nat, (∀ u ∈ units, PlainUnit u) ∧ text = units.flatMap encode

theorem parseStringLiteral_char {src src' : Bytes} {u : Nat} (plain : PlainUnit u)
    (read : readChar src = some (u, src')) : parseStringLiteral src =
      (parseStringLiteral src').map fun more => (encode u ++ more.1, more.2) := by
  rw [parseStringLiteral]
  split
  · next ended => exact absurd (ended.symm.trans read) (by simp)
  · next x rest same =>
    cases same.symm.trans read
    rw [if_neg plain.noQuote, if_neg plain.noEscape, if_neg (by simp [plain.sameLine])]

theorem parseStringLiteral_plain {units : List Nat} (plain : ∀ u ∈ units, PlainUnit u)
    (rest : Bytes) :
    parseStringLiteral (units.flatMap encode ++ quoteByte :: rest) =
      some (units.flatMap encode, rest) := by
  induction units with
  | nil =>
    have closing : readChar (quoteByte :: rest) = some (0x27, rest) := rfl
    rw [List.flatMap_nil, List.nil_append, parseStringLiteral]
    split
    · next ended => exact absurd (ended.symm.trans closing) (by simp)
    · next x rest' same =>
      cases same.symm.trans closing
      rfl
  | cons u units ih =>
    have first := plain u (by simp)
    have more := ih fun u' member => plain u' (by simp [member])
    rw [List.flatMap_cons, List.append_assoc,
      parseStringLiteral_char first (readChar_encode first.unit _), more]
    rfl

theorem PlainText.cons {u : Nat} {text : Bytes} (first : PlainUnit u) (more : PlainText text) :
    PlainText (encode u ++ text) := by
  obtain ⟨units, plain, rfl⟩ := more
  refine ⟨u :: units, ?_, by simp⟩
  simpa [first] using plain

/-- A literal stands for no more bytes than it has, and for as many only if all of its characters
stand for themselves. -/
theorem parseStringLiteral_eq_some {src value rest : Bytes}
    (read : parseStringLiteral src = some (value, rest)) :
    ∃ text close, src = text ++ (close ++ rest) ∧ 1 ≤ close.length ∧
      (∀ b ∈ value, b.toNat < 0xF0) ∧ ((∀ b ∈ text, b.toNat < 0xF0) →
        value.length ≤ text.length ∧
          (value.length = text.length → value = text ∧ PlainText text)) := by
  -- on the length of the source: every character of the literal takes some of it
  generalize size : src.length = n
  induction n using Nat.strong_induction_on generalizing src value with
  | _ n ih =>
    rw [parseStringLiteral] at read
    split at read
    · cases read
    next x src' first =>
    have shorter := readChar_length first
    obtain ⟨chunk, rfl, pos, own⟩ := readChar_eq_some first
    split at read
    · -- the closing quote
      cases read
      exact ⟨[], chunk, rfl, pos, by simp, fun _ => ⟨Nat.le_refl 0, fun _ => ⟨rfl, [], by simp, rfl⟩⟩⟩
    next noQuote =>
    split at read
    · -- an escape is longer than what it stands for
      split at read
      · cases read
      next emitted src'' escape =>
      have shorter' := parseEscape_length escape
      obtain ⟨chunk', rfl, low, long⟩ := parseEscape_takes escape
      obtain ⟨⟨value', _⟩, more, same⟩ := Option.map_eq_some_iff.mp read
      cases same
      obtain ⟨text, close, rfl, closes, low', bound⟩ := ih _ (by omega) more rfl
      refine ⟨chunk ++ chunk' ++ text, close, by simp, closes, ?_, ?_⟩
      · intro b member
        exact (List.mem_append.mp member).elim (low b) (low' b)
      · intro small
        have short := long fun b member => small b (by simp [member])
        have short' := (bound fun b member => small b (by simp [member])).1
        simp only [List.length_append]
        exact ⟨by omega, fun same => by omega⟩
    next noEscape =>
    split at read
    · cases read
    next sameLine =>
    obtain ⟨⟨value', _⟩, more, same⟩ := Option.map_eq_some_iff.mp read
    cases same
    -- any other character stands for itself, in at least as many bytes
    obtain ⟨text, close, rfl, closes, low, bound⟩ := ih _ (size ▸ shorter) more rfl
    refine ⟨chunk ++ text, close, by simp, closes, ?_, ?_⟩
    · intro b member
      exact (List.mem_append.mp member).elim encode_lt (low b)
    · intro small
      obtain ⟨unit, short, itself⟩ := own fun b member => small b (by simp [member])
      obtain ⟨short', itself'⟩ := bound fun b member => small b (by simp [member])
      simp only [List.length_append]
      refine ⟨by omega, fun same => ?_⟩
      obtain ⟨rfl, plain⟩ := itself' (by omega)
      obtain rfl := itself (by omega)
      exact ⟨rfl, plain.cons ⟨unit, noQuote, noEscape, by simpa using sameLine⟩⟩

/-! ### The path -/

/-- `mod_path`, as a file system has it. -/
structure ModPath where
  bytes : Bytes
  noNul : (0 : UInt8) ∉ bytes

/-- The literal of the script stands for the path and `/modules/`, and ends where the rest of the
script begins. -/
def EmbeddedFaithfully (modPath : ModPath) : Prop :=
  ∃ src, pushModSearch modPath.bytes = some (modSearchOpening ++ src) ∧
    parseStringLiteral src = some (modPath.bytes ++ modulesDir, modSearchRest)

theorem pushSprintf_fits {opening closing arg : Bytes}
    (fits : formatFits opening closing arg = true) :
    pushSprintf opening closing arg = some (opening ++ (arg ++ closing)) := by
  rw [pushSprintf, if_pos fits]

theorem pushSprintf_eq_some {opening closing arg text : Bytes}
    (pushed : pushSprintf opening closing arg = some text) :
    formatFits opening closing arg = true ∧ text = opening ++ (arg ++ closing) := by
  rw [pushSprintf] at pushed
  split at pushed
  · next fits =>
    cases pushed
    exact ⟨fits, rfl⟩
  · cases pushed

theorem pushModSearch_eq_some {modPath src : Bytes}
    (pushed : pushModSearch modPath = some (modSearchOpening ++ src)) :
    formatFits modSearchOpening modSearchClosing modPath = true ∧
      src = modPath ++ modSearchClosing := by
  obtain ⟨fits, split⟩ := pushSprintf_eq_some pushed
  exact ⟨fits, List.append_cancel_left split⟩

theorem plainText_modulesDir : PlainText modulesDir :=
  ⟨modulesDir.map UInt8.toNat, by decide, by decide⟩

theorem PlainText.append {text text' : Bytes} (first : PlainText text) (second : PlainText text') :
    PlainText (text ++ text') := by
  obtain ⟨units, plain, rfl⟩ := first
  obtain ⟨units', plain', rfl⟩ := second
  refine ⟨units ++ units', ?_, by simp⟩
  intro u member
  exact (List.mem_append.mp member).elim (plain u) (plain' u)

/-- The path ends before a slash, so it is text of whole characters. -/
theorem PlainText.of_append {path : Bytes} (whole : PlainText (path ++ modulesDir)) :
    PlainText path := by
  obtain ⟨units, plain, split⟩ := whole
  have slash : units.flatMap encode = path ++ 0x2F :: ascii "modules/" := split.symm
  obtain ⟨units', before, rfl⟩ := exists_prefix slash (by decide)
  exact ⟨units', fun u member => plain u (before.subset member), rfl⟩

/-- A literal that stands for all the bytes before its quote has no escapes among them. -/
theorem EmbeddedFaithfully.plainText {modPath : ModPath} (embedded : EmbeddedFaithfully modPath) :
    PlainText modPath.bytes := by
  obtain ⟨src, pushed, read⟩ := embedded
  obtain ⟨_, rfl⟩ := pushModSearch_eq_some pushed
  obtain ⟨text, close, cut, closes, low, bound⟩ := parseStringLiteral_eq_some read
  have ends : modPath.bytes ++ modulesDir ++ [quoteByte] = text ++ close := by
    have both : modPath.bytes ++ modulesDir ++ [quoteByte] ++ modSearchRest =
        text ++ close ++ modSearchRest := by simpa [modSearchClosing] using cut
    exact List.append_cancel_right both
  have small : ∀ b ∈ text, b.toNat < 0xF0 := by
    intro b member
    have among : b ∈ modPath.bytes ++ modulesDir ++ [quoteByte] := by simp [ends, member]
    rcases List.mem_append.mp among with inside | closing
    · exact low b inside
    · rw [List.mem_singleton.mp closing]
      decide
  -- the literal has room for one byte more than it stands for, and that is its quote
  have lengths := congrArg List.length ends
  simp only [List.length_append, List.length_cons, List.length_nil] at lengths
  obtain ⟨short, itself⟩ := bound small
  rw [List.length_append] at short itself
  obtain ⟨rfl, plain⟩ := itself (by omega)
  exact plain.of_append

theorem modHome_embedded_iff (modPath : ModPath) : EmbeddedFaithfully modPath ↔
    formatFits modSearchOpening modSearchClosing modPath.bytes = true ∧
      PlainText modPath.bytes := by
  constructor
  · intro embedded
    obtain ⟨src, pushed, _⟩ := id embedded
    exact ⟨(pushModSearch_eq_some pushed).1, embedded.plainText⟩
  · rintro ⟨fits, plain⟩
    obtain ⟨units, all, whole⟩ := plain.append plainText_modulesDir
    refine ⟨modPath.bytes ++ modSearchClosing, pushSprintf_fits fits, ?_⟩
    rw [modSearchClosing, ← List.append_assoc, whole]
    exact parseStringLiteral_plain all _

/-- The name ends the literal after the `o`. -/
theorem quote_ends_modHome : ¬ EmbeddedFaithfully ⟨ascii "/home/o'brien", by decide⟩ := by
  rintro ⟨src, pushed, read⟩
  obtain ⟨_, rfl⟩ := pushModSearch_eq_some pushed
  have plain : ∀ u ∈ (ascii "/home/o").map UInt8.toNat, PlainUnit u := by decide
  have cut := parseStringLiteral_plain plain (ascii "brien" ++ modSearchClosing)
  have same := congrArg (fun found => found.map Prod.fst) (cut.symm.trans read)
  exact absurd same (by decide)

/-! ### What a search starts from -/

theorem PlainText.noSymbol {text : Bytes} (plain : PlainText text) : isSymbol text = false := by
  obtain ⟨units, _, rfl⟩ := plain
  cases units with
  | nil => rfl
  | cons u units =>
    cases starts : encode u with
    | nil => exact absurd (encode_length_pos u) (by simp [starts])
    | cons b rest =>
      have head := encode_head starts
      rw [List.flatMap_cons, starts]
      by_contra symbol
      simp only [List.cons_append, isSymbol, Bool.not_eq_false, Bool.or_eq_true, beq_iff_eq] at symbol
      rcases symbol with ((rfl | rfl) | rfl) | rfl <;> revert head <;> decide

theorem sprintfFits_lt {len sz n : Nat} (fits : sprintfFits len sz n = true) :
    len < sz ∨ len < sprintfLimit := by
  induction n generalizing sz with
  | zero => cases fits
  | succ n ih =>
    rw [sprintfFits] at fits
    split at fits
    · next now => exact .inl now
    split at fits
    · cases fits
    · next below =>
      rcases ih fits with first | limit
      · exact .inr (first.trans (Nat.not_le.mp below))
      · exact .inr limit

/-- A text that fits is not much longer than its format, or is within the limit. -/
theorem formatFits_le {opening closing arg : Bytes} (fits : formatFits opening closing arg = true) :
    arg.length ≤ sprintfLimit := by
  have percent : (ascii "%s").length = 2 := by decide
  rw [formatFits] at fits
  have limit := sprintfFits_lt fits
  simp only [List.length_append, percent] at limit
  rw [sprintfLimit] at limit ⊢
  omega

theorem EmbeddedFaithfully.within {modPath : ModPath} (embedded : EmbeddedFaithfully modPath) :
    (modPath.bytes ++ modulesDir).length + 258 ≤ maxStringLen := by
  obtain ⟨_, pushed, _⟩ := embedded
  have short := formatFits_le (pushModSearch_eq_some pushed).1
  have dir : modulesDir.length = 9 := by decide
  rw [sprintfLimit] at short
  rw [List.length_append, dir, maxStringLen]
  omega

/-- The `modHome` that a path gives the searches. -/
def ModPath.modHome (modPath : ModPath) (embedded : EmbeddedFaithfully modPath) : ModHome where
  bytes := modPath.bytes ++ modulesDir
  noSymbol := (embedded.plainText.append plainText_modulesDir).noSymbol
  within := embedded.within

end DukBridge
