import DukBridge.CallOutcomes
import DukBridge.HandedLengths

/-!
# Scripts in files

`EvalFile` and `SyntaxCheckFile` read the text with `readFileContent` and go on as `EvalBytes` and
`SyntaxCheck` do. Where there is no text, one code alone reaches the callback of the caller.
-/
namespace DukBridge

open Effect

/-! ### readFileContent -/

/-- What a path leads to. -/
structure DiskFile where
  /-- `st_size` -/
  size : Nat
  content : Bytes
  /-- `fopen` succeeds. -/
  opens : Bool
  /-- `fread` meets no error. -/
  reads : Bool

def defReadFileContent (stat : Bytes → Option DiskFile) (mallocs : Nat → Bool) (f : Bytes) :
    Except Int32 (Option Bytes) :=
  match stat f with
  | none => .error (-1)
  | some file =>
    if file.size = 0 then .error (-2)
    else if !mallocs file.size then .error (-3)
    else if !file.opens then .error (-4)
    else if !file.reads || file.content.length < file.size then .error (-5)
    else .ok (some (file.content.take file.size))

/-- The function that `readFileContent` points at. -/
inductive FileReader where
  | default (stat : Bytes → Option DiskFile) (mallocs : Nat → Bool)
  /-- Set by `js_set_readfile`; 0 would be a success. -/
  | replaced (read : Bytes → Except Int32 (Option Bytes))
      (fails : ∀ f ret, read f = .error ret → ret ≠ 0)

namespace FileReader

def read : FileReader → Bytes → Except Int32 (Option Bytes)
  | default stat mallocs => defReadFileContent stat mallocs
  | replaced read _ => read

theorem read_ne_zero (reader : FileReader) {f : Bytes} {ret : Int32}
    (failed : reader.read f = .error ret) : ret ≠ 0 := by
  cases reader with
  | replaced read fails => exact fails f ret failed
  | default stat mallocs =>
    simp only [read, defReadFileContent] at failed
    -- one code for each way out
    repeat' split at failed
    all_goals simp at failed
    all_goals simp [← failed]

/-- The file exists and is readable, with this content, of which a NULL block has none. -/
def Readable (f c : Bytes) : FileReader → Prop
  | default stat mallocs => stat f = some ⟨c.length, c, true, true⟩ ∧ mallocs c.length = true
  | replaced read _ => ∃ block, read f = .ok block ∧ block.getD [] = c

/-- A readable file is handed over, or it is empty and the default reader has a code for that. -/
theorem read_of_readable {reader : FileReader} {f c : Bytes} (readable : reader.Readable f c) :
    (∃ block, reader.read f = .ok block ∧ block.getD [] = c) ∨
      c = [] ∧ reader.read f = .error (-2) := by
  cases reader with
  | replaced read fails => exact .inl readable
  | default stat mallocs =>
    obtain ⟨found, allocated⟩ := readable
    by_cases empty : c = []
    · exact .inr ⟨empty, by simp [read, defReadFileContent, found, empty]⟩
    · exact .inl ⟨some c, by simp [read, defReadFileContent, found, allocated, empty], rfl⟩

end FileReader

/-- The engine with this memory and this reader. -/
def Host.withReader {H : Type} (engine : Host H) (mem : Memory) (reader : FileReader) : Host H :=
  { engine with mem, readFileContent := reader.read }

/-! ### SyntaxCheck and SyntaxCheckFile -/

/-- `if ret == 0 || res == nil`, and the switch behind it. -/
def Returned.check (mem : Memory) (returned : Returned) : Option GoErr :=
  let res := (returned.2.map (goResultReceived mem)).getD .nil
  if returned.1 = 0 ∨ res = .nil then none
  else
    match res with
    | .error text => some (.text text)
    | _ => fromErrorCode returned.1

namespace JSEnv

variable {H : Type} (host : Host H)

def syntaxCheck (jsCode : GoBytes host.mem) : Duk H (Option GoErr) := do
  let returned ← jsCheckSyntax host (scriptBytes host jsCode) true
  return returned.check host.mem

def syntaxCheckFile (scriptFile : Bytes) : Duk H (Option GoErr) := do
  let returned ← jsCheckSyntaxFile host (cString scriptFile) true
  return returned.check host.mem

end JSEnv

/-! ### Files that can be read -/

/-- On every engine and in every state the variants return the same. -/
def VariantsAgree (reader : FileReader) (scriptFile : Bytes) {mem : Memory} (c : GoBytes mem) :
    Prop :=
  ∀ (H : Type) (engine : Host H) (ctx : Ctx H),
    JSEnv.evalFile (engine.withReader mem reader) scriptFile ctx =
      JSEnv.evalBytes (engine.withReader mem reader) c ctx ∧
    JSEnv.syntaxCheckFile (engine.withReader mem reader) scriptFile ctx =
      JSEnv.syntaxCheck (engine.withReader mem reader) c ctx

/-- An engine that compiles every source but one. -/
def refusingHost (refused : Option Bytes) : Host Unit :=
  { stillHost with
    compile := fun w _ _ src _ => if src = refused then .throws .undefined w 0
      else .returns .undefined w 0 }

theorem jsEval_refused (mem : Memory) (reader : FileReader) (src : Option Bytes) :
    jsEval ((refusingHost src).withReader mem reader) src true freshEnvironment =
      .ok (-1, some ⟨.none, .word 0, none⟩) freshEnvironment := by
  have refused : ∀ w free mode name, ((refusingHost src).withReader mem reader).compile w free
      mode src name = .throws .undefined w 0 := fun w _ _ _ => if_pos rfl
  simp only [jsEval, pevalLstring, pcompileLstring, refused]
  rfl

theorem jsEval_accepted (mem : Memory) (reader : FileReader) {refused src : Option Bytes}
    (other : src ≠ refused) :
    jsEval ((refusingHost refused).withReader mem reader) src true freshEnvironment =
      .ok (0, some ⟨.none, .word 0, none⟩) freshEnvironment := by
  have accepted : ∀ w free mode name, ((refusingHost refused).withReader mem reader).compile w free
      mode src name = .returns .undefined w 0 := fun w _ _ _ => if_neg other
  simp only [jsEval, pevalLstring, pcompileLstring, accepted]
  rfl

section Readable

variable {reader : FileReader} {scriptFile : Bytes} {mem : Memory} {c : GoBytes mem}

/-- What reaches the compiler on every engine with this memory. -/
def GoBytes.source (c : GoBytes mem) : Option Bytes :=
  if c.addr = 0 then none
  else some (mem.read c.addr (sizeOfInt (cInt c.data.length)).toNat)

theorem scriptBytes_withReader {H : Type} (engine : Host H) :
    scriptBytes (engine.withReader mem reader) c = c.source := by
  change (if c.addr = 0 then none else some (mem.read c.addr (if c.addr = 0 then 0 else _))) = _
  rw [GoBytes.source]
  split <;> rfl

theorem source_of_short (short : c.data.length < 2 ^ 31) :
    c.source = if c.addr = 0 then none else some c.data := by
  rw [GoBytes.source, (handed_eq_iff c).mpr short, c.stored]

/-- The variants agree exactly if the reader hands over the source that the script is. -/
theorem variantsAgree_iff_source (readable : reader.Readable (cString scriptFile) c.data) :
    VariantsAgree reader scriptFile c ↔
      reader.read (cString scriptFile) = .ok c.source := by
  constructor
  · intro agree
    rcases FileReader.read_of_readable readable with ⟨block, file, _⟩ | ⟨_, failed⟩
    · -- an engine that refuses the file's source alone tells it from any other
      have same := (agree Unit (refusingHost block) freshEnvironment).1
      have read : ((refusingHost block).withReader mem reader).readFileContent (cString scriptFile) =
        .ok block := file
      simp only [JSEnv.evalFile, JSEnv.evalBytes, jsEvalFile, read, scriptBytes_withReader] at same
      rw [bind_ok (jsEval_refused mem reader block)] at same
      rw [file]
      by_contra other
      rw [bind_ok (jsEval_accepted mem reader fun equal => other (congrArg _ equal.symm))] at same
      cases same
    · -- the file is refused with a code, and an engine that compiles everything has no error
      have file : JSEnv.evalFile (stillHost.withReader mem reader) scriptFile freshEnvironment =
          .ok (.nil, some (.code (-2))) freshEnvironment := by
        have unread : (stillHost.withReader mem reader).readFileContent (cString scriptFile) =
            .error (-2) := failed
        simp only [JSEnv.evalFile, jsEvalFile, unread]
        rfl
      have same := (agree Unit stillHost freshEnvironment).1
      rw [file] at same
      cases same
  · intro source H engine ctx
    have file : (engine.withReader mem reader).readFileContent (cString scriptFile) =
      .ok c.source := source
    simp [JSEnv.evalFile, JSEnv.evalBytes, JSEnv.syntaxCheckFile, JSEnv.syntaxCheck, jsEvalFile,
      jsCheckSyntaxFile, file, scriptBytes_withReader]

/-- The variants run the same source, unless its length does not fit, the reader refuses an empty
file, or only one of an empty file and an empty script is NULL. -/
theorem variantsAgree_iff (readable : reader.Readable (cString scriptFile) c.data) :
    VariantsAgree reader scriptFile c ↔ c.data.length < 2 ^ 31 ∧ (c.data = [] →
      reader.read (cString scriptFile) = .ok (if c.addr = 0 then none else some [])) := by
  rw [variantsAgree_iff_source readable]
  by_cases short : c.data.length < 2 ^ 31
  · rw [and_iff_right short, source_of_short short]
    by_cases empty : c.data = []
    · rw [empty]
      exact ⟨fun file _ => file, fun file => file rfl⟩
    · refine iff_of_true ?_ fun isEmpty => absurd isEmpty empty
      rcases FileReader.read_of_readable readable with ⟨block, file, content⟩ | ⟨isEmpty, _⟩
      · rw [file, if_neg (c.located empty)]
        cases block with
        | none => exact absurd content.symm empty
        | some data => exact congrArg (fun d => Except.ok (some d)) content
      · exact absurd isEmpty empty
  · refine iff_of_false ?_ fun both => short both.1
    have some : c.data ≠ [] := fun empty => by simp [empty] at short
    intro source
    rcases FileReader.read_of_readable readable with ⟨block, file, content⟩ | ⟨isEmpty, _⟩
    · -- the length that was handed over belongs to another text
      have same := Except.ok.inj (file.symm.trans source)
      rw [GoBytes.source, if_neg (c.located some)] at same
      rw [same, Option.getD_some] at content
      have length := congrArg List.length content
      rw [Memory.length_read] at length
      exact short ((handed_eq_iff c).mp length)
    · exact some isEmpty

end Readable

/-! ### Files that cannot be read -/

variable {H : Type} {host : Host H}

theorem received_nil_iff {ctx ctx' : Ctx H} {d : Delivered} (inside : 1 ≤ ctx.height)
    (converted : callResultCallback host ctx = .ok d ctx') :
    goResultReceived host.mem d = .nil ↔ (ctx.get 0).NilLike := by
  rcases callResultCallback_received inside converted with ⟨isError, _, text, received⟩ | ⟨_, image⟩
  · rw [received]
    cases v : ctx.get 0 <;> simp [v, Ctx.ErrorInstance, JsVal.NilLike] at isError ⊢
  · generalize goResultReceived host.mem d = res at image
    generalize ctx.get 0 = v at image
    cases image with
    | json structured => cases v <;> simp_all [JsVal.structured, JsVal.NilLike]
    | _ => simp [JsVal.NilLike]

/-- The value that stands for a missing file was made, and can be delivered. -/
def NotFound (host : Host H) (scriptFile : Bytes) (ctx reported : Ctx H) : Prop :=
  pushErrorObject host (cString scriptFile ++ ascii " not found") ctx = .ok () reported ∧
    Returns (callResultCallback host) reported

/-- The way out that both checks and missing files take: the value on top is delivered. -/
theorem deliverTop_eq_ok {t s : Ctx H} {status : Int32} {returned : Returned}
    (inside : 1 ≤ t.height) :
    (do let delivered ← callResultCallback host
        pop
        return (status, some delivered) : Duk H Returned) t = .ok returned s ↔
      ∃ d after, callResultCallback host t = .ok d after ∧ returned = (status, some d) ∧
        s = { after with stack := after.stack.drop 1 } := by
  constructor
  · intro ran
    obtain ⟨d, after, converted, rest⟩ := bind_eq_ok.mp ran
    obtain ⟨_, _, popped, last⟩ := bind_eq_ok.mp rest
    obtain ⟨_, rfl⟩ := popN_eq_ok.mp popped
    cases last
    exact ⟨d, after, converted, rfl, rfl⟩
  · rintro ⟨d, after, converted, rfl, rfl⟩
    rw [bind_ok converted]
    -- the value is still there to be popped
    have level := moves_callResultCallback host _ _ _ converted
    have tall : 1 ≤ after.height := by
      simp only [stackHeight, Ctx.height] at level inside ⊢
      omega
    have popped : pop after = .ok () { after with stack := after.stack.drop 1 } :=
      popN_eq_ok.mpr ⟨tall, rfl⟩
    exact bind_ok popped _

theorem height_of_pushErrorObject {message : Bytes} {ctx reported : Ctx H}
    (made : pushErrorObject host message ctx = .ok () reported) : 1 ≤ reported.height := by
  have grown := moves_pushErrorObject host _ _ _ _ made
  simp only [stackHeight, Ctx.height] at grown ⊢
  omega

theorem fileNotRead_missing {scriptFile : Bytes} {ctx : Ctx H} {returned : Returned} {s : Ctx H} :
    fileNotRead host (cString scriptFile) (-1) true ctx = .ok returned s ↔
      ∃ reported d after, pushErrorObject host (cString scriptFile ++ ascii " not found") ctx =
          .ok () reported ∧ callResultCallback host reported = .ok d after ∧
        returned = (-1, some d) ∧ s = { after with stack := after.stack.drop 1 } := by
  have missing : fileNotRead host (cString scriptFile) (-1) true = do
      pushErrorObject host (cString scriptFile ++ ascii " not found")
      let delivered ← callResultCallback host
      pop
      return (-1, some delivered) := by simp [fileNotRead]
  rw [missing]
  constructor
  · intro ran
    obtain ⟨_, reported, made, rest⟩ := bind_eq_ok.mp ran
    obtain ⟨d, after, delivered⟩ := (deliverTop_eq_ok (height_of_pushErrorObject made)).mp rest
    exact ⟨reported, d, after, made, delivered⟩
  · rintro ⟨reported, d, after, made, delivered⟩
    rw [bind_ok made]
    exact (deliverTop_eq_ok (height_of_pushErrorObject made)).mpr ⟨d, after, delivered⟩

theorem fileNotRead_other {scriptFile : Bytes} {ret : Int32} (other : ret ≠ -1) (ctx : Ctx H) :
    fileNotRead host scriptFile ret true ctx = .ok (ret, none) ctx := by
  simp [fileNotRead, other]

theorem parse_error (mem : Memory) {status : Int32} (failed : status ≠ 0) (d : Option Delivered) :
    ∃ res err, Returned.parse mem (status, d) = (res, some err) := by
  simp only [Returned.parse, parseResult]
  cases (d.map (goResultReceived mem)).getD .nil <;> simp [failed, fromErrorCode]

theorem check_eq_none_iff {mem : Memory} {returned : Returned} : returned.check mem = none ↔
    returned.1 = 0 ∨ (returned.2.map (goResultReceived mem)).getD .nil = .nil := by
  simp only [Returned.check]
  split
  next passed => simp [passed]
  next reported =>
    obtain ⟨failed, some⟩ := not_or.mp reported
    generalize (returned.2.map (goResultReceived mem)).getD .nil = res at some ⊢
    cases res <;> simp [failed, fromErrorCode] at some ⊢

variable {scriptFile : Bytes} {ctx : Ctx H} {ret : Int32}

theorem evalFile_fails_iff (failed : host.readFileContent (cString scriptFile) = .error ret)
    (nonzero : ret ≠ 0) : (∃ res err s, JSEnv.evalFile host scriptFile ctx = .ok (res, some err) s) ↔
      (ret = -1 → ∃ reported, NotFound host scriptFile ctx reported) := by
  have unread : JSEnv.evalFile host scriptFile = do
      let returned ← fileNotRead host (cString scriptFile) ret true
      return returned.parse host.mem := by
    simp only [JSEnv.evalFile, jsEvalFile, failed]
  rw [unread]
  by_cases missing : ret = -1
  · rw [missing]
    constructor
    · rintro ⟨res, err, s, ran⟩ -
      obtain ⟨returned, _, notRead, _⟩ := bind_eq_ok.mp ran
      obtain ⟨reported, d, after, made, converted, _⟩ := fileNotRead_missing.mp notRead
      exact ⟨reported, made, d, after, converted⟩
    · intro found
      obtain ⟨reported, made, d, after, converted⟩ := found rfl
      have notRead := fileNotRead_missing.mpr ⟨reported, d, after, made, converted, rfl, rfl⟩
      obtain ⟨res, err, same⟩ := parse_error host.mem (by decide : (-1 : Int32) ≠ 0) (some d)
      exact ⟨res, err, _, by rw [bind_ok notRead, same, pure_run]⟩
  · obtain ⟨res, err, same⟩ := parse_error host.mem nonzero none
    refine iff_of_true ⟨res, err, ctx, ?_⟩ fun same => absurd same missing
    rw [bind_ok (fileNotRead_other missing ctx), same, pure_run]

theorem syntaxCheckFile_unread (failed : host.readFileContent (cString scriptFile) = .error ret) :
    JSEnv.syntaxCheckFile host scriptFile = do
      let returned ← fileNotRead host (cString scriptFile) ret true
      return returned.check host.mem := by
  simp only [JSEnv.syntaxCheckFile, jsCheckSyntaxFile, failed]

/-- The result of `SyntaxCheckFile` for a file that is missing, or that was not read. -/
theorem syntaxCheckFile_unread_eq_ok {res : Option GoErr} {s : Ctx H}
    (failed : host.readFileContent (cString scriptFile) = .error ret)
    (ran : JSEnv.syntaxCheckFile host scriptFile ctx = .ok res s) :
    res ≠ none ↔ ret = -1 ∧ ∃ reported, NotFound host scriptFile ctx reported ∧
      ¬ (reported.get 0).NilLike := by
  rw [syntaxCheckFile_unread failed] at ran
  obtain ⟨returned, mid, notRead, checked⟩ := bind_eq_ok.mp ran
  cases checked
  by_cases missing : ret = -1
  · rw [missing] at notRead
    obtain ⟨reported, d, after, made, converted, rfl, rfl⟩ := fileNotRead_missing.mp notRead
    have inside := height_of_pushErrorObject made
    rw [Ne, check_eq_none_iff, Option.map_some, Option.getD_some, received_nil_iff inside converted]
    constructor
    · intro reports
      exact ⟨missing, reported, ⟨made, d, after, converted⟩, fun nilLike => reports (.inr nilLike)⟩
    · rintro ⟨_, other, ⟨made', _⟩, notNil⟩
      rw [made] at made'
      cases made'
      simpa using notNil
  · rw [fileNotRead_other missing] at notRead
    cases notRead
    -- without a value the code is not looked at
    simp [check_eq_none_iff, missing]

theorem syntaxCheckFile_fails_iff
    (failed : host.readFileContent (cString scriptFile) = .error ret) :
    (∃ err s, JSEnv.syntaxCheckFile host scriptFile ctx = .ok (some err) s) ↔
      ret = -1 ∧ ∃ reported, NotFound host scriptFile ctx reported ∧ ¬ (reported.get 0).NilLike := by
  constructor
  · rintro ⟨err, s, ran⟩
    exact (syntaxCheckFile_unread_eq_ok failed ran).mp (Option.some_ne_none err)
  · rintro ⟨rfl, reported, ⟨made, d, after, converted⟩, notNil⟩
    have notRead := fileNotRead_missing.mpr ⟨reported, d, after, made, converted, rfl, rfl⟩
    have ran : JSEnv.syntaxCheckFile host scriptFile ctx =
        .ok (Returned.check host.mem (-1, some d))
          { after with stack := after.stack.drop 1 } := by
      rw [syntaxCheckFile_unread failed, bind_ok notRead, pure_run]
    have reports := (syntaxCheckFile_unread_eq_ok failed ran).mpr
      ⟨rfl, reported, ⟨made, d, after, converted⟩, notNil⟩
    obtain ⟨err, same⟩ := Option.ne_none_iff_exists'.mp reports
    rw [same] at ran
    exact ⟨err, _, ran⟩

/-! ### No error -/

/-- The text was read, and is a program. -/
def ReadAndCompiles (host : Host H) (scriptFile : Bytes) (ctx : Ctx H) : Prop :=
  ∃ c func w reserved, host.readFileContent (cString scriptFile) = .ok c ∧
    host.compile ctx.world ctx.free .program c none = .returns func w reserved

/-- What stands for the failure is a value: that of the missing file, or of the syntax error. -/
def FailsWithValue (host : Host H) (scriptFile : Bytes) (ctx : Ctx H) : Prop :=
  match host.readFileContent (cString scriptFile) with
  | .error ret => ret = -1 ∧ ∀ reported,
      pushErrorObject host (cString scriptFile ++ ascii " not found") ctx = .ok () reported →
      ¬ (reported.get 0).NilLike
  | .ok c => ctx.height + 1 ≤ ctx.reserve → ∀ e w reserved,
      host.compile ctx.world ctx.free .program c none = .throws e w reserved → ¬ e.NilLike

/-- A value that Go takes for none is delivered without any further work. -/
theorem callResultCallback_nilLike (host : Host H) (nilLike : (ctx.get 0).NilLike) :
    callResultCallback host ctx = .ok ⟨.none, .word 0, none⟩ ctx := by
  rw [callResultCallback, bind_run, get_run]
  cases v : ctx.get 0 <;> simp [v, JsVal.NilLike] at nilLike ⊢

/-- A program that is refused, with what `js_check_syntax` hands over. -/
theorem jsCheckSyntax_refused {src : Option Bytes} {u : Ctx H} {e : JsVal} {returned : Returned}
    {s : Ctx H} (room : ctx.height + 1 ≤ ctx.reserve)
    (refused : Ends (host.compile ctx.world ctx.free .program src none) ctx (.abrupt e) u) :
    jsCheckSyntax host src true ctx = .ok returned s ↔
      ∃ d after, callResultCallback host (u.pushed e) = .ok d after ∧
        returned = (-1, some d) ∧ s = { after with stack := after.stack.drop 1 } := by
  have compiled : pcompileLstring host .program src ctx = .ok 1 (u.pushed e) :=
    pcompileLstring_of_ends room refused
  have rest : jsCheckSyntax host src true ctx = (do
      let delivered ← callResultCallback host
      pop
      return (-1, some delivered) : Duk H Returned) (u.pushed e) := by
    rw [jsCheckSyntax, bind_ok compiled]
    simp [deliver]
  rw [rest]
  exact deliverTop_eq_ok (Nat.le_add_left 1 _)

theorem nil_iff_unread (failed : host.readFileContent (cString scriptFile) = .error ret) :
    (∀ s, JSEnv.syntaxCheckFile host scriptFile ctx = .ok none s →
      ReadAndCompiles host scriptFile ctx) ↔
    ret = -1 ∧ ∀ reported,
      pushErrorObject host (cString scriptFile ++ ascii " not found") ctx = .ok () reported →
      ¬ (reported.get 0).NilLike := by
  have unread : ¬ ReadAndCompiles host scriptFile ctx := by
    rintro ⟨c, _, _, _, read, _⟩
    rw [failed] at read
    cases read
  constructor
  · intro onlyPrograms
    have missing : ret = -1 := by
      by_contra other
      have ran : JSEnv.syntaxCheckFile host scriptFile ctx =
          .ok (Returned.check host.mem (ret, none)) ctx := by
        rw [syntaxCheckFile_unread failed, bind_ok (fileNotRead_other other ctx), pure_run]
      rw [check_eq_none_iff.mpr (.inr rfl)] at ran
      exact unread (onlyPrograms _ ran)
    refine ⟨missing, ?_⟩
    intro reported made nilLike
    rw [missing] at failed
    have converted := callResultCallback_nilLike host nilLike
    have notRead := fileNotRead_missing.mpr ⟨reported, _, _, made, converted, rfl, rfl⟩
    refine unread (onlyPrograms { reported with stack := reported.stack.drop 1 } ?_)
    rw [syntaxCheckFile_unread failed, bind_ok notRead, pure_run, check_eq_none_iff.mpr (.inr rfl)]
  · rintro ⟨rfl, hasValue⟩ s ran
    have noError := (syntaxCheckFile_unread_eq_ok failed ran).not.mp (fun some => some rfl)
    rw [syntaxCheckFile_unread failed] at ran
    obtain ⟨_, _, notRead, _⟩ := bind_eq_ok.mp ran
    obtain ⟨reported, d, after, made, converted, _⟩ := fileNotRead_missing.mp notRead
    exact absurd ⟨rfl, reported, ⟨made, d, after, converted⟩, hasValue reported made⟩ noError

theorem nil_iff_read {src : Option Bytes}
    (read : host.readFileContent (cString scriptFile) = .ok src) :
    (∀ s, JSEnv.syntaxCheckFile host scriptFile ctx = .ok none s →
      ReadAndCompiles host scriptFile ctx) ↔
    (ctx.height + 1 ≤ ctx.reserve → ∀ e w reserved,
      host.compile ctx.world ctx.free .program src none = .throws e w reserved → ¬ e.NilLike) := by
  have checks : JSEnv.syntaxCheckFile host scriptFile ctx = (do
      let returned ← jsCheckSyntax host src true
      return returned.check host.mem : Duk H (Option GoErr)) ctx := by
    simp only [JSEnv.syntaxCheckFile, jsCheckSyntaxFile, read]
  rw [checks]
  constructor
  · intro onlyPrograms room e w reserved refused nilLike
    have converted : callResultCallback host
        (Ctx.pushed { ctx with world := w, reserve := ctx.reserve + reserved } e) = _ :=
      callResultCallback_nilLike _ nilLike
    have ran := (jsCheckSyntax_refused room (.abrupt refused)).mpr ⟨_, _, converted, rfl, rfl⟩
    obtain ⟨c', _, _, _, read', compiles⟩ := onlyPrograms _ (bind_ok ran _)
    -- the same text would compile and be refused
    rw [read] at read'
    cases read'
    rw [refused] at compiles
    cases compiles
  · intro hasValue s ran
    obtain ⟨returned, mid, checked, last⟩ := bind_eq_ok.mp ran
    obtain ⟨_, _, compiled, _⟩ := bind_eq_ok.mp checked
    obtain ⟨c, u, room, ends, _⟩ := compiled_of_ran compiled
    cases ends with
    | normal compiles => exact ⟨src, _, _, _, read, compiles⟩
    | abrupt refused =>
      obtain ⟨d, after, converted, rfl, rfl⟩ :=
        (jsCheckSyntax_refused room (.abrupt refused)).mp checked
      injection last with same
      rw [check_eq_none_iff] at same
      simp only [Option.map_some, Option.getD_some] at same
      rcases same with passed | nil
      · exact absurd passed (by decide)
      · exact absurd ((received_nil_iff (Nat.le_add_left 1 _) converted).mp nil)
          (hasValue room _ _ _ refused)

/-- `SyntaxCheckFile` has no error only for a program, exactly if every failure has a value. -/
theorem nil_iff_failsWithValue :
    (∀ s, JSEnv.syntaxCheckFile host scriptFile ctx = .ok none s →
      ReadAndCompiles host scriptFile ctx) ↔ FailsWithValue host scriptFile ctx := by
  rw [FailsWithValue]
  cases outcome : host.readFileContent (cString scriptFile) with
  | error ret => exact nil_iff_unread outcome
  | ok src => exact nil_iff_read outcome

/-! ### Every path and every outcome of the reader -/

/-- For a file that can be read, the variants agree on every engine exactly if its text is shorter
than 2^31 bytes, and an empty one is handed over, as a NULL block for a NULL script alone. When the
reader fails, both methods report an error exactly if the code is -1 and the value made for the
missing file can be delivered as a value. `SyntaxCheckFile` reports none only for programs exactly
if failures have a value. -/
theorem file_variants_iff (reader : FileReader) (scriptFile : Bytes) (mem : Memory) :
    (∀ c : GoBytes mem, reader.Readable (cString scriptFile) c.data →
      (VariantsAgree reader scriptFile c ↔ c.data.length < 2 ^ 31 ∧ (c.data = [] →
        reader.read (cString scriptFile) = .ok (if c.addr = 0 then none else some [])))) ∧
    ∀ (H : Type) (engine : Host H) (ctx : Ctx H),
      (∀ ret, reader.read (cString scriptFile) = .error ret →
        ((∃ res err s, JSEnv.evalFile (engine.withReader mem reader) scriptFile ctx =
            .ok (res, some err) s) ∧
          (∃ err s, JSEnv.syntaxCheckFile (engine.withReader mem reader) scriptFile ctx =
            .ok (some err) s) ↔
        ret = -1 ∧ ∃ reported, NotFound (engine.withReader mem reader) scriptFile ctx reported ∧
          ¬ (reported.get 0).NilLike)) ∧
      ((∀ s, JSEnv.syntaxCheckFile (engine.withReader mem reader) scriptFile ctx = .ok none s →
          ReadAndCompiles (engine.withReader mem reader) scriptFile ctx) ↔
        FailsWithValue (engine.withReader mem reader) scriptFile ctx) := by
  refine ⟨fun c readable => variantsAgree_iff readable, ?_⟩
  intro H engine ctx
  refine ⟨?_, nil_iff_failsWithValue⟩
  intro ret failed
  have outcome : (engine.withReader mem reader).readFileContent (cString scriptFile) = .error ret :=
    failed
  rw [evalFile_fails_iff outcome (reader.read_ne_zero failed), syntaxCheckFile_fails_iff outcome]
  constructor
  · exact fun both => both.2
  · rintro ⟨missing, reported, found, notNil⟩
    exact ⟨fun _ => ⟨reported, found⟩, missing, reported, found, notNil⟩

/-- The default reader where every path is an empty file. -/
def emptyFiles : FileReader := .default (fun _ => some ⟨0, [], true, true⟩) fun _ => true

/-- An empty file is an error for `EvalFile` alone, and the empty script is none for anybody. -/
theorem empty_file_differs : emptyFiles.Readable (cString (ascii "a.js")) [] ∧
    JSEnv.evalFile (stillHost.withReader (fun _ => 0) emptyFiles) (ascii "a.js") freshEnvironment =
      .ok (.nil, some (.code (-2))) freshEnvironment ∧
    JSEnv.syntaxCheckFile (stillHost.withReader (fun _ => 0) emptyFiles) (ascii "a.js")
      freshEnvironment = .ok none freshEnvironment ∧
    JSEnv.evalBytes (stillHost.withReader (fun _ => 0) emptyFiles) (zeros 0 (by decide))
      freshEnvironment = .ok (.nil, none) freshEnvironment :=
  ⟨⟨rfl, rfl⟩, rfl, rfl, rfl⟩

/-- A reader where every file has one line. -/
def oneLine : FileReader := .replaced (fun _ => .ok (some [0, 0])) fun _ _ failed => by cases failed

theorem file_variants_oneLine : VariantsAgree oneLine (ascii "b.js") (zeros 2 (by decide)) :=
  ((file_variants_iff oneLine (ascii "b.js") fun _ => 0).1 (zeros 2 (by decide)) ⟨_, rfl, rfl⟩).mpr
    ⟨by decide, fun empty => by cases empty⟩

end DukBridge
