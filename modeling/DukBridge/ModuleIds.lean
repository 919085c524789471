import DukBridge.Lib.InPlace
import DukBridge.Lib.TermPath
import DukBridge.ModuleSearch
import Mathlib.Data.List.Induction
import Mathlib.Data.List.TakeWhile

/-!
# The resolution of module ids

`require` makes an absolute id of the name it is given. The input is formatted into a buffer on
the C stack and resolved over itself, a term in each round of a loop.
-/
namespace DukBridge

open TermPath

/-! ### The resolver -/

/-- `DUK_COMMONJS_MODULE_ID_LIMIT` -/
def moduleIdLimit : Nat := 256

def slash : UInt8 := 47

def dot : UInt8 := 46

/-- `buf` with the pointers into it as offsets. -/
structure IdBuffer where
  buf : Bytes
  p : Nat
  q : Nat
  qLast : Nat
deriving DecidableEq

inductive ResolveFault where
  | resolveError
  /-- An access outside the buffer; what happens then is not said. -/
  | overrun
deriving DecidableEq

/-- How a round of the loop ends. -/
inductive Round where
  | again (s : IdBuffer)
  | loopDone (s : IdBuffer)
deriving DecidableEq

def readAt (buf : Bytes) (i : Nat) : Except ResolveFault UInt8 :=
  match buf[i]? with
  | some c => .ok c
  | none => .error .overrun

def writeAt (buf : Bytes) (i : Nat) (c : UInt8) : Except ResolveFault Bytes :=
  if i < buf.length then .ok (buf.set i c) else .error .overrun

/-- Every step reads one byte further, so that no more steps than bytes are left stay inside. -/
def eatDupSlashes (buf : Bytes) : Nat → Nat → Except ResolveFault Nat
  | 0, _ => .error .overrun
  | fuel + 1, p => do
    let c ← readAt buf p
    if c = slash then eatDupSlashes buf fuel (p + 1) else return p

/-- Back to the previous slash or the start of the buffer. -/
def backtrack (buf : Bytes) : Nat → Except ResolveFault Nat
  | 0 => return 0
  | q + 1 => do
    let c ← readAt buf q
    if c = slash then return q + 1 else backtrack buf q

/-- The term is copied until its end or a slash, which is copied too; the flag says that it was
the last one. -/
def copyTerm : Nat → Bytes → Nat → Nat → UInt8 → Except ResolveFault (Bytes × Nat × Nat × Bool)
  | 0, _, _, _, _ => .error .overrun
  | fuel + 1, buf, p, q, c => do
    let buf ← writeAt buf q c
    let c ← readAt buf p
    if c = 0 then return (buf, p + 1, q + 1, true)
    else if c = slash then
      let buf ← writeAt buf (q + 1) slash
      return (buf, p + 1, q + 2, false)
    else copyTerm fuel buf (p + 1) (q + 1) c

/-- The end of a round that is not the last. -/
def nextTerm (buf : Bytes) (p q qLast : Nat) : Except ResolveFault Round := do
  let p ← eatDupSlashes buf buf.length p
  return .again ⟨buf, p, q, qLast⟩

/-- One round; `p` is at the start of a term. -/
def resolveRound (s : IdBuffer) : Except ResolveFault Round := do
  let qLast := s.q
  let c ← readAt s.buf s.p
  if c = 0 then throw .resolveError
  else if c = dot then
    let c ← readAt s.buf (s.p + 1)
    if c = slash then nextTerm s.buf (s.p + 2) s.q qLast
    else
      -- The byte after the second period is read only if there is one.
      let up ← if c = dot then (· == slash) <$> readAt s.buf (s.p + 2) else pure false
      if up then
        if s.q = 0 then throw .resolveError
        let q ← backtrack s.buf (s.q - 1)
        nextTerm s.buf (s.p + 3) q qLast
      else throw .resolveError
  else if c = slash then throw .resolveError
  else
    let (buf, p, q, last) ← copyTerm s.buf.length s.buf (s.p + 1) s.q c
    if last then return .loopDone ⟨buf, p, q, qLast⟩ else nextTerm buf p q qLast

def resolveLoop : Nat → IdBuffer → Except ResolveFault IdBuffer
  | 0, _ => .error .overrun
  | fuel + 1, s => do
    match ← resolveRound s with
    | .again s => resolveLoop fuel s
    | .loopDone s => return s

/-- The name itself, or, where it is relative and there is a current module, the name after the
id of the module and a step up. -/
def resolutionInput (reqId : Bytes) : Option Bytes → Bytes
  | some modId =>
    if (cString reqId).head? = some dot then cString modId ++ ascii "/../" ++ cString reqId
    else cString reqId
  | none => cString reqId

/-- `snprintf` into a buffer that has room for the text. -/
def formatted (buf text : Bytes) : Bytes := text ++ 0 :: buf.drop (text.length + 1)

inductive Resolution where
  | ids (resolved lastComp : Bytes)
  | typeError (message : Bytes)
  /-- An access outside the buffer. -/
  | overrun
deriving DecidableEq

def cannotResolve (reqId : Bytes) : Bytes := ascii "cannot resolve module id: " ++ cString reqId

/-- `buf` is what the array holds before anything is written to it. A length that does not fit
an `int` is negative, and an error like every other one from the limit on. -/
def dukResolveModuleId (buf : Vector UInt8 moduleIdLimit) (reqId : Bytes) (modId : Option Bytes) :
    Resolution :=
  let input := resolutionInput reqId modId
  if moduleIdLimit ≤ input.length then .typeError (cannotResolve reqId)
  else
    match resolveLoop moduleIdLimit ⟨formatted buf.toList input, 0, 0, 0⟩ with
    | .ok s => .ids (s.buf.take s.q) ((s.buf.take s.q).drop s.qLast)
    | .error .resolveError => .typeError (cannotResolve reqId)
    | .error .overrun => .overrun

/-! ### The parts of a round -/

section

variable {out inp junk rest t buf : Bytes} {p q : Nat} {c : UInt8}

theorem readAt_ahead (here : InPlace out inp buf p q) {i : Nat} (reads : inp[i]? = some c) :
    readAt buf (p + i) = .ok c := by
  rw [readAt, here.ahead i, reads]

theorem readAt_start (here : InPlace out (c :: inp) buf p q) : readAt buf p = .ok c :=
  readAt_ahead (i := 0) here rfl

theorem writeAt_behind (here : InPlace out inp buf p q) (q_lt : q < p) :
    writeAt buf q c = .ok (buf.set q c) := by
  rw [writeAt, if_pos (Nat.lt_of_lt_of_le q_lt here.within)]

theorem eatDupSlashes_run {fuel : Nat} (here : InPlace out (rest ++ 0 :: junk) buf p q)
    (enough : rest.length < fuel) :
    ∃ p', eatDupSlashes buf fuel p = .ok p' ∧
      InPlace out (rest.dropWhile (· == slash) ++ 0 :: junk) buf p' q := by
  induction rest generalizing p fuel with
  | nil =>
    obtain ⟨fuel, rfl⟩ := Nat.exists_eq_succ_of_ne_zero (Nat.ne_of_gt enough)
    refine ⟨p, ?_, here⟩
    rw [eatDupSlashes, readAt_start here]
    rfl
  | cons c rest ih =>
    obtain ⟨fuel, rfl⟩ := Nat.exists_eq_succ_of_ne_zero (Nat.ne_of_gt (Nat.zero_lt_of_lt enough))
    rw [eatDupSlashes, readAt_start here]
    by_cases same : c = slash
    · obtain ⟨p', eats, there⟩ := ih here.skip (Nat.lt_of_succ_lt_succ enough)
      refine ⟨p', ?_, by rwa [List.dropWhile_cons_of_pos (by simpa using same)]⟩
      simp only [bind, Except.bind, if_pos same, eats]
    · refine ⟨p, ?_, by rwa [List.dropWhile_cons_of_neg (by simpa using same)]⟩
      simp only [bind, Except.bind, if_neg same]
      rfl

theorem nextTerm_run (qLast : Nat) (here : InPlace out (rest ++ 0 :: junk) buf p q) :
    ∃ p', nextTerm buf p q qLast = .ok (.again ⟨buf, p', q, qLast⟩) ∧
      InPlace out (rest.dropWhile (· == slash) ++ 0 :: junk) buf p' q := by
  have room : rest.length < buf.length := by
    have := here.length_inp
    simp only [List.length_append, List.length_cons] at this
    omega
  obtain ⟨p', eats, there⟩ := eatDupSlashes_run here room
  refine ⟨p', ?_, there⟩
  rw [nextTerm, eats]
  rfl

/-- The slash that ends a directory stops the way back. -/
theorem backtrack_dir {place : List Bytes} :
    backtrack (dir slash place ++ t) (dir slash place).length =
      .ok (dir slash place).length := by
  cases place with
  | nil => rfl
  | cons u place =>
    rw [dir_cons, List.length_append, List.length_singleton, backtrack, readAt]
    simp [bind, Except.bind, pure, Except.pure]

/-- The last name of a directory is passed on the way back. -/
theorem backtrack_run {place : List Bytes} (tail : Bytes) (noSlash : slash ∉ t) :
    backtrack (dir slash place ++ (t ++ tail)) ((dir slash place).length + t.length) =
      .ok (dir slash place).length := by
  induction t using List.reverseRecOn generalizing tail with
  | nil => exact backtrack_dir
  | append_singleton t c ih =>
    have other : c ≠ slash := fun same => noSlash (by simp [same])
    have := ih (c :: tail) fun mem => noSlash (by simp [mem])
    rw [List.length_append, List.length_singleton, ← Nat.add_assoc, backtrack, readAt]
    simpa [bind, Except.bind, other, List.getElem?_append_right] using this

theorem copyTerm_run {e : UInt8} {fuel : Nat} (here : InPlace out (t ++ e :: inp) buf p q)
    (ends : e = 0 ∨ e = slash) (noNul : 0 ∉ t) (noSlash : slash ∉ t) (behind : q < p)
    (enough : t.length < fuel) :
    ∃ buf' p' q', copyTerm fuel buf p q c = .ok (buf', p', q', e == 0) ∧
      buf'.length = buf.length ∧
      InPlace (out ++ c :: t ++ if e = 0 then [] else [slash]) inp buf' p' q' := by
  induction t generalizing out buf p q c fuel with
  | nil =>
    obtain ⟨fuel, rfl⟩ := Nat.exists_eq_succ_of_ne_zero (Nat.ne_of_gt enough)
    have copied := here.write (c := c) behind
    rw [copyTerm, writeAt_behind here behind]
    rcases ends with rfl | rfl
    · refine ⟨_, _, _, ?_, List.length_set, by simpa using copied.skip⟩
      simp only [bind, Except.bind, readAt_start copied]
      rfl
    · have last := copied.skip.write (c := slash) (Nat.add_lt_add_right behind 1)
      refine ⟨_, _, _, ?_, ?_, by simpa [slash] using last⟩
      · simp only [bind, Except.bind, readAt_start copied,
          writeAt_behind copied.skip (Nat.add_lt_add_right behind 1)]
        rfl
      · rw [List.length_set, List.length_set]
  | cons c' t ih =>
    obtain ⟨fuel, rfl⟩ := Nat.exists_eq_succ_of_ne_zero (Nat.ne_of_gt (Nat.zero_lt_of_lt enough))
    have copied := here.write (c := c) behind
    have notNul : c' ≠ 0 := fun same => noNul (by simp [same])
    have other : c' ≠ slash := fun same => noSlash (by simp [same])
    obtain ⟨buf', p', q', copies, size, there⟩ := ih (c := c') copied.skip
      (fun mem => noNul (by simp [mem])) (fun mem => noSlash (by simp [mem]))
      (Nat.add_lt_add_right behind 1) (Nat.lt_of_succ_lt_succ enough)
    refine ⟨buf', p', q', ?_, by rw [size, List.length_set], by simpa using there⟩
    rw [copyTerm, writeAt_behind here behind]
    simp only [bind, Except.bind, readAt_start copied, if_neg notNul, if_neg other]
    exact copies

end

/-! ### A round -/

/-- The top of the loop: the names of a place have been written, and `rest` is to be read. -/
structure AtTerm (s : IdBuffer) (place : List Bytes) (rest : Bytes) : Prop where
  inPlace : ∃ junk, InPlace (dir slash place) (rest ++ 0 :: junk) s.buf s.p s.q
  noNul : 0 ∉ rest
  names : ∀ t ∈ place, IsName slash dot t

/-- What a round makes of the place and the rest of the input. -/
inductive RoundEnds (size : Nat) (place : List Bytes) (rest : Bytes) :
    Except ResolveFault Round → Prop where
  | again {s : IdBuffer} {place' : List Bytes} {rest' : Bytes} (there : AtTerm s place' rest')
      (sized : s.buf.length = size) (start : rest'.head? ≠ some slash) (read : rest' <:+ rest)
      (shorter : rest'.length < rest.length)
      (same : resolveFrom slash dot place' rest' = resolveFrom slash dot place rest) :
      RoundEnds size place rest (.ok (.again s))
  | loopDone {s : IdBuffer} {t junk : Bytes}
      (there : InPlace (dir slash place ++ t) junk s.buf s.p s.q)
      (last : s.qLast = (dir slash place).length)
      (leads : resolveFrom slash dot place rest = some (t :: place)) :
      RoundEnds size place rest (.ok (.loopDone s))
  | resolveError (nowhere : resolveFrom slash dot place rest = none) :
      RoundEnds size place rest (.error .resolveError)

section

variable {s : IdBuffer} {place : List Bytes} {rest : Bytes}

/-- A term has been dealt with, and the separators after it go. -/
theorem nextTerm_ends (place' : List Bytes) (rest' : Bytes) {junk buf : Bytes} {p q : Nat}
    (there : InPlace (dir slash place') (rest' ++ 0 :: junk) buf p q) (noNul : 0 ∉ rest)
    (names : ∀ t ∈ place', IsName slash dot t) (read : rest' <:+ rest)
    (shorter : rest'.length < rest.length)
    (same : resolveFrom slash dot place' rest' = resolveFrom slash dot place rest) (qLast : Nat) :
    RoundEnds buf.length place rest (nextTerm buf p q qLast) := by
  obtain ⟨p', eats, there⟩ := nextTerm_run qLast there
  have eaten := List.dropWhile_suffix (· == slash) (l := rest')
  rw [eats]
  refine .again ⟨⟨junk, there⟩, fun mem => noNul (read.subset (eaten.subset mem)), names⟩ rfl ?_
    (eaten.trans read) (Nat.lt_of_le_of_lt eaten.length_le shorter)
    ((resolveFrom_dropWhile place' rest').trans same)
  intro head
  have := List.head?_dropWhile_not (· == slash) rest'
  rw [head] at this
  simp at this

theorem resolveRound_slash (top : AtTerm s place rest) (start : rest.head? = some slash) :
    resolveRound s = .error .resolveError := by
  obtain ⟨junk, here⟩ := top.inPlace
  obtain ⟨rest, rfl⟩ : ∃ rest', rest = slash :: rest' := by
    cases rest with
    | nil => cases start
    | cons c rest => exact ⟨rest, by rw [Option.some.inj start]⟩
  rw [resolveRound, readAt_start here]
  rfl

/-- Two periods take the last name off again. -/
theorem resolveRound_up (top : AtTerm s place (dot :: dot :: slash :: rest)) :
    RoundEnds s.buf.length place (dot :: dot :: slash :: rest) (resolveRound s) := by
  obtain ⟨junk, here⟩ := top.inPlace
  have apart : slash ≠ dot := by decide
  have first : readAt s.buf s.p = .ok dot := readAt_start here
  have second : readAt s.buf (s.p + 1) = .ok dot := readAt_ahead here rfl
  have third : readAt s.buf (s.p + 2) = .ok slash := readAt_ahead here rfl
  have runs : resolveRound s = if s.q = 0 then .error .resolveError else
      (backtrack s.buf (s.q - 1)).bind fun q => nextTerm s.buf (s.p + 3) q s.q := by
    simp only [resolveRound, bind, Except.bind, Functor.map, Except.map, first, second, third]
    rfl
  rw [runs]
  cases place with
  | nil =>
    -- nothing is left that could be taken off
    have noSep : slash ∉ [dot, dot] := by decide
    have fails : resolveFrom slash dot [] ([dot, dot] ++ slash :: rest) = none := by
      rw [resolveFrom_term noSep]
      rfl
    have root : s.q = 0 := here.length_out.symm
    rw [if_pos root]
    exact .resolveError fails
  | cons t place =>
    have above : s.q = (dir slash place).length + t.length + 1 := by
      rw [← here.length_out, dir_cons, List.length_append, List.length_append]
      rfl
    -- the output ends with the name `t` and its slash, and `q` goes back in front of `t`
    obtain ⟨after, cut⟩ : ∃ after, s.buf = dir slash place ++ (t ++ slash :: after) := by
      refine ⟨s.buf.drop s.q, ?_⟩
      have := List.take_append_drop s.q s.buf
      rw [here.output, dir_cons] at this
      simpa using this.symm
    have back : backtrack s.buf (s.q - 1) = .ok (dir slash place).length := by
      rw [above, Nat.add_sub_cancel, cut]
      exact backtrack_run _ (top.names t (List.mem_cons_self ..)).2.2
    rw [if_neg (by omega), back]
    rw [dir_cons, List.append_assoc] at here
    refine nextTerm_ends place rest here.skip.skip.skip.retract top.noNul
      (fun u mem => top.names u (List.mem_cons_of_mem _ mem)) ⟨[dot, dot, slash], rfl⟩
      (by simp only [List.length_cons]; omega) ?_ s.q
    exact (resolveFrom_up apart).symm

/-- A term that begins with a period. -/
theorem resolveRound_period (top : AtTerm s place rest) (period : rest.head? = some dot) :
    RoundEnds s.buf.length place rest (resolveRound s) := by
  obtain ⟨junk, here⟩ := top.inPlace
  obtain ⟨rest, rfl⟩ : ∃ rest', rest = dot :: rest' := by
    cases rest with
    | nil => cases period
    | cons c rest => exact ⟨rest, by rw [Option.some.inj period]⟩
  have first : readAt s.buf s.p = .ok dot := readAt_start here
  have apart : slash ≠ dot := by decide
  cases rest with
  | nil =>
    -- The input ends with a lone period.
    have second : readAt s.buf (s.p + 1) = .ok 0 := readAt_ahead here rfl
    simp only [resolveRound, bind, Except.bind, first, second]
    exact .resolveError (resolveFrom_period rfl apart (by simp) (by simp))
  | cons c rest =>
    have second : readAt s.buf (s.p + 1) = .ok c := readAt_ahead here rfl
    by_cases one : c = slash
    · subst one
      simp only [resolveRound, bind, Except.bind, first, second]
      refine nextTerm_ends place rest here.skip.skip top.noNul top.names ⟨[dot, slash], rfl⟩
        (by simp only [List.length_cons]; omega) ?_ s.q
      have noSep : slash ∉ [dot] := by decide
      have stays : resolveFrom slash dot place ([dot] ++ slash :: rest) = _ :=
        resolveFrom_term noSep
      exact stays.symm
    · by_cases two : c = dot
      · subst two
        cases rest with
        | nil =>
          have third : readAt s.buf (s.p + 2) = .ok 0 := readAt_ahead here rfl
          simp only [resolveRound, bind, Except.bind, first, second, third]
          exact .resolveError (resolveFrom_period rfl apart (by simp [apart.symm]) (by simp))
        | cons c rest =>
          have third : readAt s.buf (s.p + 2) = .ok c := readAt_ahead here rfl
          by_cases up : c = slash
          · subst up
            exact resolveRound_up top
          · have other : (c == slash) = false := by simpa using up
            simp only [resolveRound, bind, Except.bind, Functor.map, Except.map, first, second,
              third, other]
            exact .resolveError (resolveFrom_period rfl apart (by simp [apart.symm])
              (by simpa using up))
      · simp only [resolveRound, bind, Except.bind, first, second, if_neg one, if_neg two]
        exact .resolveError (resolveFrom_period rfl apart (by simpa using one) (by simp [two]))

/-- A term that names something. -/
theorem resolveRound_name {c : UInt8} (top : AtTerm s place (c :: rest)) (noDot : c ≠ dot)
    (noSlash : c ≠ slash) : RoundEnds s.buf.length place (c :: rest) (resolveRound s) := by
  obtain ⟨junk, here⟩ := top.inPlace
  have notNul : c ≠ 0 := fun same => top.noNul (by simp [same])
  have noNul : 0 ∉ rest := fun mem => top.noNul (List.mem_cons_of_mem _ mem)
  have first : readAt s.buf s.p = .ok c := readAt_start here
  have behind : s.q < s.p + 1 := Nat.lt_succ_of_le here.order
  have room : rest.length < s.buf.length := by
    have := here.length_inp
    simp only [List.length_append, List.length_cons] at this
    omega
  have name {t : Bytes} (inside : slash ∉ t) : IsName slash dot (c :: t) :=
    ⟨by simp, by simpa using noDot, by simpa [inside] using noSlash.symm⟩
  -- the name ends at the next slash or where the input does
  by_cases found : slash ∈ rest
  · obtain ⟨t, rest', rfl, inside⟩ := List.eq_append_cons_of_mem found
    have ahead : InPlace (dir slash place) (t ++ slash :: (rest' ++ 0 :: junk)) s.buf (s.p + 1) s.q := by
      simpa using here.skip
    have noNul' : 0 ∉ t := fun mem => noNul (by simp [mem])
    have room' : t.length < s.buf.length := by
      simp only [List.length_append, List.length_cons] at room
      omega
    obtain ⟨buf, p, q, copies, size, there⟩ := copyTerm_run (c := c) ahead (.inr rfl) noNul' inside behind
      room'
    have there' : InPlace (dir slash ((c :: t) :: place)) (rest' ++ 0 :: junk) buf p q := by
      rw [dir_cons]
      exact there
    simp only [resolveRound, bind, Except.bind, first, if_neg notNul, if_neg noDot, if_neg noSlash,
      copies]
    rw [← size]
    refine nextTerm_ends _ rest' there' top.noNul ?_ ⟨c :: (t ++ [slash]), by simp⟩
      (by simp only [List.length_append, List.length_cons]; omega) ?_ s.q
    · simpa using ⟨name inside, top.names⟩
    · have goes : resolveFrom slash dot place (c :: t ++ slash :: rest') = _ :=
        resolveFrom_term (name inside).2.2
      rw [moveOf_name (name inside)] at goes
      exact goes.symm
  · obtain ⟨buf, p, q, copies, size, there⟩ := copyTerm_run (c := c) here.skip (.inl rfl) noNul found
      behind room
    simp only [resolveRound, bind, Except.bind, first, if_neg notNul, if_neg noDot, if_neg noSlash,
      copies]
    refine .loopDone (t := c :: rest) (by simpa using there) here.length_out.symm ?_
    rw [resolveFrom_last (name found).2.2, if_pos (name found)]

theorem resolveRound_ends (top : AtTerm s place rest) (start : rest.head? ≠ some slash) :
    RoundEnds s.buf.length place rest (resolveRound s) := by
  cases rest with
  | nil =>
    obtain ⟨junk, here⟩ := top.inPlace
    rw [resolveRound, readAt_start here]
    exact .resolveError (resolveFrom_nil place)
  | cons c rest =>
    by_cases period : c = dot
    · exact resolveRound_period top (by rw [period, List.head?_cons])
    · exact resolveRound_name top period fun same => start (by rw [same, List.head?_cons])

end

/-! ### The loop -/

/-- What the loop makes of the place and the rest of the input. -/
inductive LoopEnds (place : List Bytes) (rest : Bytes) : Except ResolveFault IdBuffer → Prop where
  | loopDone {s : IdBuffer} {t junk : Bytes} {place' : List Bytes}
      (there : InPlace (dir slash place' ++ t) junk s.buf s.p s.q)
      (last : s.qLast = (dir slash place').length)
      (leads : resolveFrom slash dot place rest = some (t :: place')) : LoopEnds place rest (.ok s)
  | resolveError (nowhere : resolveFrom slash dot place rest = none) :
      LoopEnds place rest (.error .resolveError)

theorem resolveLoop_ends {s : IdBuffer} {place : List Bytes} {rest : Bytes} {fuel : Nat}
    (top : AtTerm s place rest) (start : rest.head? ≠ some slash) (enough : rest.length < fuel) :
    LoopEnds place rest (resolveLoop fuel s) := by
  induction fuel generalizing s place rest with
  | zero => exact absurd enough (Nat.not_lt_zero _)
  | succ fuel ih =>
    have round := resolveRound_ends top start
    rw [resolveLoop]
    generalize resolveRound s = ended at round
    cases round with
    | again there size start read shorter same =>
      -- The rounds left resolve to the same place from where this one has come.
      have ends := ih there start (by omega)
      simp only [bind, Except.bind]
      generalize resolveLoop fuel _ = result at ends
      cases ends with
      | loopDone there last leads => exact .loopDone there last (same ▸ leads)
      | resolveError nowhere => exact .resolveError (same ▸ nowhere)
    | loopDone there last leads => exact .loopDone there last leads
    | resolveError nowhere => exact .resolveError nowhere

theorem resolveLoop_slash {s : IdBuffer} {place : List Bytes} {rest : Bytes} (fuel : Nat)
    (top : AtTerm s place rest) (start : rest.head? = some slash) :
    resolveLoop (fuel + 1) s = .error .resolveError := by
  rw [resolveLoop, resolveRound_slash top start]
  rfl

/-! ### Resolution -/

theorem zero_notMem_cString (s : Bytes) : 0 ∉ cString s := by
  intro mem
  have := List.mem_takeWhile_imp mem
  simp at this

theorem noNul_resolutionInput (reqId : Bytes) (modId : Option Bytes) :
    0 ∉ resolutionInput reqId modId := by
  cases modId with
  | none => exact zero_notMem_cString reqId
  | some modId =>
    rw [resolutionInput]
    split
    · have upward : 0 ∉ ascii "/../" := by decide
      simp [zero_notMem_cString, upward]
    · exact zero_notMem_cString reqId

/-- The place a name leads to. -/
def resolveId (reqId : Bytes) (modId : Option Bytes) : Option (List Bytes) :=
  if moduleIdLimit ≤ (resolutionInput reqId modId).length then none
  else resolve slash dot (resolutionInput reqId modId)

/-- The id of a place, and its last component. -/
def Resolution.ofPlace (reqId : Bytes) : Option (List Bytes) → Resolution
  | some (t :: place) => .ids (path slash (t :: place)) t
  | _ => .typeError (cannotResolve reqId)

theorem atTerm_formatted (buf input : Bytes) (noNul : 0 ∉ input) :
    AtTerm ⟨formatted buf input, 0, 0, 0⟩ [] input where
  inPlace := ⟨_, InPlace.start _⟩
  noNul := noNul
  names := by simp

/-- Whatever the array held, the resolver stays inside it and finds the place the input leads to,
or raises the error where there is none. -/
theorem dukResolveModuleId_eq (buf : Vector UInt8 moduleIdLimit) (reqId : Bytes)
    (modId : Option Bytes) :
    dukResolveModuleId buf reqId modId = .ofPlace reqId (resolveId reqId modId) := by
  rw [dukResolveModuleId, resolveId]
  split
  · rfl
  · next fits =>
    have top := atTerm_formatted buf.toList _ (noNul_resolutionInput reqId modId)
    generalize resolutionInput reqId modId = input at fits top
    by_cases start : input.head? = some slash
    · have fails : resolveLoop moduleIdLimit ⟨formatted buf.toList input, 0, 0, 0⟩ =
          .error .resolveError := resolveLoop_slash 255 top start
      rw [fails, resolve, if_pos start]
      rfl
    · have ends := resolveLoop_ends top start (Nat.lt_of_not_le fits)
      rw [resolve, if_neg start]
      generalize resolveLoop moduleIdLimit _ = result at ends
      cases ends with
      | loopDone there last leads =>
        simp only [leads, Resolution.ofPlace, path_cons, there.output, last, List.drop_left]
      | resolveError nowhere =>
        rw [nowhere]
        rfl

example : dukResolveModuleId (Vector.replicate 256 7) (ascii "./quux") (some (ascii "foo/bar")) =
    .ids (ascii "foo/quux") (ascii "quux") := by decide +kernel

/-! ### Every round -/

section

variable (buf : Vector UInt8 moduleIdLimit) (reqId : Bytes) (modId : Option Bytes)

/-- The states the loop is in when a round begins. -/
inductive AtLoopTop : IdBuffer → Prop where
  | start (fits : (resolutionInput reqId modId).length < moduleIdLimit) :
      AtLoopTop ⟨formatted buf.toList (resolutionInput reqId modId), 0, 0, 0⟩
  | round {s s' : IdBuffer} (top : AtLoopTop s) (again : resolveRound s = .ok (.again s')) :
      AtLoopTop s'

/-- What the disabled assertions of the resolver say, and what they rest on. -/
structure Asserted (input : Bytes) (s : IdBuffer) : Prop where
  size : s.buf.length = moduleIdLimit
  order : s.q ≤ s.p
  inside : s.p < moduleIdLimit
  slashBefore : 0 < s.q → s.buf[s.q - 1]? = some slash
  /-- What is still to be read is an end of the input, terminated. -/
  unread : ∃ rest junk, rest <:+ input ∧ s.buf.drop s.p = rest ++ 0 :: junk
  noOverrun : resolveRound s ≠ .error .overrun
  /-- If this round is the last, `q_last` lies in the output at `loop_done`. -/
  component : ∀ done, resolveRound s = .ok (.loopDone done) → done.qLast ≤ done.q ∧ done.q ≤ done.p

variable {buf reqId modId}

theorem asserted_of_atTerm {s : IdBuffer} {place : List Bytes} {rest input : Bytes}
    (top : AtTerm s place rest) (size : s.buf.length = moduleIdLimit) (left : rest <:+ input) :
    Asserted input s := by
  obtain ⟨junk, here⟩ := top.inPlace
  refine ⟨size, here.order, ?_, fun behind => ?_, ⟨rest, junk, left, here.input⟩, fun overruns => ?_,
    fun done last => ?_⟩
  · have := here.length_inp
    rw [size, List.length_append, List.length_cons] at this
    omega
  · cases place with
    | nil =>
      have : s.q = 0 := here.length_out.symm
      omega
    | cons t place =>
      rw [here.behind (Nat.sub_lt behind Nat.one_pos), ← here.length_out, dir_cons]
      simp
  · by_cases start : rest.head? = some slash
    · rw [resolveRound_slash top start] at overruns
      cases overruns
    · have ends := resolveRound_ends top start
      rw [overruns] at ends
      cases ends
  · by_cases start : rest.head? = some slash
    · rw [resolveRound_slash top start] at last
      cases last
    · have ends := resolveRound_ends top start
      rw [last] at ends
      cases ends with
      | loopDone there before leads =>
        have output := there.length_out
        rw [List.length_append] at output
        exact ⟨by omega, there.order⟩

/-- Only the very first round can find a slash. -/
theorem atLoopTop_inv {s : IdBuffer} (top : AtLoopTop buf reqId modId s) :
    s.buf.length = moduleIdLimit ∧ ∃ place rest, AtTerm s place rest ∧
      rest <:+ resolutionInput reqId modId := by
  induction top with
  | start fits =>
    refine ⟨?_, [], _, atTerm_formatted _ _ (noNul_resolutionInput reqId modId), List.suffix_refl _⟩
    simp only [formatted, List.length_append, List.length_cons, List.length_drop,
      Vector.length_toList]
    omega
  | round top again ih =>
    obtain ⟨size, place, rest, here, left⟩ := ih
    by_cases start : rest.head? = some slash
    · rw [resolveRound_slash here start] at again
      cases again
    · have ends := resolveRound_ends here start
      rw [again] at ends
      cases ends with
      | again there sized start read shorter same =>
        exact ⟨sized.trans size, _, _, there, read.trans left⟩

/-- The assertions hold at the top of every round, and those at `loop_done` after the last one. -/
theorem atLoopTop_asserted {s : IdBuffer} (top : AtLoopTop buf reqId modId s) :
    Asserted (resolutionInput reqId modId) s := by
  obtain ⟨size, place, rest, here, left⟩ := atLoopTop_inv top
  exact asserted_of_atTerm here size left

theorem atLoopTop_asserted_test : Asserted (ascii "a//../b")
    ⟨formatted (List.replicate 256 7) (ascii "a//../b"), 3, 2, 0⟩ := by
  have top : AtLoopTop (Vector.replicate 256 7) (ascii "a//../b") none
      ⟨formatted (List.replicate 256 7) (ascii "a//../b"), 3, 2, 0⟩ :=
    .round (.start (by decide)) (by decide +kernel)
  exact atLoopTop_asserted top

end

/-! ### Module ids -/

/-- What `require.id` and `module.id` are. -/
@[ext]
structure ModuleId where
  /-- The names, the last component first. -/
  place : List Bytes
  canonical : Canonical slash dot place
  noNul : 0 ∉ path slash place
  within : (path slash place).length < moduleIdLimit

namespace ModuleId

variable (id : ModuleId)

def bytes : Bytes := path slash id.place

def lastComp : Bytes := id.place.head id.canonical.nonempty

/-- The names above the last component. -/
def dirname : List Bytes := id.place.tail

theorem place_eq : id.place = id.lastComp :: id.dirname :=
  (List.cons_head_tail id.canonical.nonempty).symm

theorem dirname_names : ∀ t ∈ id.dirname, IsName slash dot t :=
  fun t mem => id.canonical.names t (List.mem_of_mem_tail mem)

theorem cString_bytes : cString id.bytes = id.bytes := by
  rw [cString, List.takeWhile_eq_self_iff]
  intro c mem
  have notNul : c ≠ 0 := fun same => id.noNul (same ▸ mem)
  simpa using notNul

theorem bytes_noDot : id.bytes.head? ≠ some dot := by
  have names : ∀ t ∈ id.lastComp :: id.dirname, t ≠ [] ∧ t.head? ≠ some dot := fun t mem =>
    have name := id.canonical.names t (id.place_eq ▸ mem)
    ⟨name.1, name.2.1⟩
  have last := names _ (List.mem_cons_self ..)
  rw [bytes, place_eq, path_cons]
  exact head?_dir_append (fun t mem => names t (List.mem_cons_of_mem _ mem)) last.2

theorem resolutionInput_bytes (modId : Option Bytes) :
    resolutionInput id.bytes modId = id.bytes := by
  cases modId with
  | none => exact id.cString_bytes
  | some modId => rw [resolutionInput, id.cString_bytes, if_neg id.bytes_noDot]

theorem bytes_length_pos : 1 ≤ id.bytes.length := by
  have name := id.canonical.names _ (id.place_eq ▸ List.mem_cons_self ..)
  have : 0 < id.lastComp.length := List.length_pos_iff.mpr name.1
  rw [bytes, place_eq, path_cons, List.length_append]
  omega

/-- The search for a module relies on this much. -/
def toResolvedId : ResolvedId where
  bytes := id.bytes
  nonempty := id.bytes_length_pos
  within := Nat.le_of_lt_succ id.within
  noNul := id.noNul

end ModuleId

/-- A module id resolves to itself, whichever module asks. -/
theorem resolveId_bytes (id : ModuleId) (modId : Option Bytes) :
    resolveId id.bytes modId = some id.place := by
  have fits : ¬ moduleIdLimit ≤ id.bytes.length := Nat.not_le_of_lt id.within
  rw [resolveId, id.resolutionInput_bytes, if_neg fits]
  exact resolve_path id.canonical

theorem moduleId_of_resolveId {reqId : Bytes} {modId : Option Bytes} {place : List Bytes}
    (leads : resolveId reqId modId = some place) : ∃ id : ModuleId, id.place = place := by
  rw [resolveId] at leads
  split at leads
  · cases leads
  · next fits =>
    have symbols := noNul_resolutionInput reqId modId
    generalize resolutionInput reqId modId = input at fits leads symbols
    have canonical := resolve_canonical leads
    rw [resolve] at leads
    split at leads
    · cases leads
    · have shorter := length_path_le leads
      have notNul := resolveFrom_symbols (P := (· ≠ 0)) (by simp)
        (fun c mem same => symbols (same ▸ mem)) leads
      refine ⟨⟨place, canonical, fun mem => ?_, ?_⟩, rfl⟩
      · exact path_symbols (P := (· ≠ 0)) (by decide) notNul 0 mem rfl
      · simp only [dir, List.reverse_nil, List.map_nil, List.flatten_nil, List.length_nil] at shorter
        omega

theorem ofPlace_eq_ids {reqId resolved last : Bytes} {place : Option (List Bytes)} :
    Resolution.ofPlace reqId place = .ids resolved last ↔
      ∃ above, place = some (last :: above) ∧ resolved = path slash (last :: above) := by
  rcases place with _ | _ | ⟨t, above⟩
  · simp [Resolution.ofPlace]
  · simp [Resolution.ofPlace]
  · simp only [Resolution.ofPlace, Resolution.ids.injEq, Option.some.injEq, List.cons.injEq]
    constructor
    · rintro ⟨rfl, rfl⟩
      exact ⟨above, ⟨rfl, rfl⟩, rfl⟩
    · rintro ⟨_, ⟨rfl, rfl⟩, rfl⟩
      exact ⟨rfl, rfl⟩

theorem ofPlace_eq_typeError {reqId : Bytes} {place : Option (List Bytes)}
    (nonempty : place ≠ some []) :
    Resolution.ofPlace reqId place = .typeError (cannotResolve reqId) ↔ place = none := by
  rcases place with _ | _ | ⟨t, above⟩
  · simp [Resolution.ofPlace]
  · exact absurd rfl nonempty
  · simp [Resolution.ofPlace]

theorem ofPlace_place (reqId : Bytes) (id : ModuleId) :
    Resolution.ofPlace reqId (some id.place) = .ids id.bytes id.lastComp := by
  rw [ofPlace_eq_ids]
  exact ⟨id.dirname, by rw [← id.place_eq], by rw [← id.place_eq]; rfl⟩

theorem moduleId_of_ids {buf : Vector UInt8 moduleIdLimit} {reqId resolved last : Bytes}
    {modId : Option Bytes} (ids : dukResolveModuleId buf reqId modId = .ids resolved last) :
    ∃ id : ModuleId, id.bytes = resolved ∧ id.lastComp = last := by
  rw [dukResolveModuleId_eq, ofPlace_eq_ids] at ids
  obtain ⟨above, leads, rfl⟩ := ids
  obtain ⟨id, same⟩ := moduleId_of_resolveId leads
  exact ⟨id, by rw [ModuleId.bytes, same], by simp only [ModuleId.lastComp, same, List.head_cons]⟩

/-- The ids the resolver makes, with their last components, are exactly the module ids. -/
theorem resolved_iff_moduleId (resolved last : Bytes) :
    (∃ buf reqId modId, dukResolveModuleId buf reqId modId = .ids resolved last) ↔
      ∃ id : ModuleId, id.bytes = resolved ∧ id.lastComp = last := by
  constructor
  · rintro ⟨buf, reqId, modId, ids⟩
    exact moduleId_of_ids ids
  · rintro ⟨id, rfl, rfl⟩
    refine ⟨Vector.replicate moduleIdLimit 0, id.bytes, none, ?_⟩
    rw [dukResolveModuleId_eq, resolveId_bytes, ofPlace_place]

/-- What has been resolved stays as it is, whichever module asks for it again. -/
theorem resolve_resolved {buf : Vector UInt8 moduleIdLimit} {reqId resolved last : Bytes}
    {modId : Option Bytes} (ids : dukResolveModuleId buf reqId modId = .ids resolved last)
    (buf' : Vector UInt8 moduleIdLimit) (modId' : Option Bytes) :
    dukResolveModuleId buf' resolved modId' = .ids resolved last := by
  obtain ⟨id, rfl, rfl⟩ := moduleId_of_ids ids
  rw [dukResolveModuleId_eq, resolveId_bytes, ofPlace_place]

theorem resolve_resolved_test : dukResolveModuleId (Vector.replicate 256 0) (ascii "foo/quux")
    (some (ascii "other")) = .ids (ascii "foo/quux") (ascii "quux") := by
  have ids : dukResolveModuleId (Vector.replicate 256 7) (ascii "./quux") (some (ascii "foo/bar")) =
      .ids (ascii "foo/quux") (ascii "quux") := by decide +kernel
  exact resolve_resolved ids _ _

/-! ### Relative names -/

section

variable (id : ModuleId) {reqId : Bytes}

/-- A relative name starts in the directory of the module that asks. -/
theorem resolveId_relative (relative : (cString reqId).head? = some dot) :
    resolveId reqId (some id.bytes) =
      if moduleIdLimit ≤ id.bytes.length + 4 + (cString reqId).length then none
      else resolveFrom slash dot id.dirname (cString reqId) := by
  have joined : resolutionInput reqId (some id.bytes) =
      id.bytes ++ ([slash, dot, dot, slash] ++ cString reqId) := by
    rw [resolutionInput, if_pos relative, id.cString_bytes, List.append_assoc]
    rfl
  have length : (id.bytes ++ ([slash, dot, dot, slash] ++ cString reqId)).length =
      id.bytes.length + 4 + (cString reqId).length := by
    simp only [List.length_append, List.length_cons, List.length_nil]
    omega
  have apart : slash ≠ dot := by decide
  rw [resolveId, joined, length, ModuleId.bytes, id.place_eq,
    resolve_relative (id.place_eq ▸ id.canonical) apart]

/-- A relative name goes the way its terms say from the directory of the module that asks. -/
theorem dukResolveModuleId_relative (buf : Vector UInt8 moduleIdLimit)
    (relative : (cString reqId).head? = some dot) (resolved last : Bytes) :
    dukResolveModuleId buf reqId (some id.bytes) = .ids resolved last ↔
      id.bytes.length + 4 + (cString reqId).length < moduleIdLimit ∧
      ∃ ms above, moves slash dot (cString reqId) = some ms ∧
        walk id.dirname ms = some (last :: above) ∧ resolved = path slash (last :: above) := by
  rw [dukResolveModuleId_eq, resolveId_relative id relative, ofPlace_eq_ids, ← Nat.not_le]
  split
  · next long => simp [long]
  · next fits =>
    constructor
    · rintro ⟨above, leads, same⟩
      obtain ⟨ms, read, walks⟩ := Option.bind_eq_some_iff.mp leads
      exact ⟨fits, ms, above, read, walks, same⟩
    · rintro ⟨_, ms, above, read, walks, same⟩
      exact ⟨above, Option.bind_eq_some_iff.mpr ⟨ms, read, walks⟩, same⟩

theorem dukResolveModuleId_relative_test :
    dukResolveModuleId (Vector.replicate 256 7) (ascii ".//../x") (some (ascii "foo/bar")) =
      .ids (ascii "x") (ascii "x") := by
  let id : ModuleId := ⟨[ascii "bar", ascii "foo"], ⟨by decide, by decide⟩, by decide, by decide⟩
  have relative : (cString (ascii ".//../x")).head? = some dot := rfl
  have goes := dukResolveModuleId_relative id (Vector.replicate 256 7) relative (ascii "x")
    (ascii "x")
  exact goes.mpr ⟨by decide, [.stay, .stay, .up, .down (ascii "x")], [], by decide +kernel, rfl, rfl⟩

/-- A relative name is refused where it is too long with the id in front of it, where a term is
of no use, and where it goes up further than the directory is deep. -/
theorem dukResolveModuleId_refuses (buf : Vector UInt8 moduleIdLimit)
    (relative : (cString reqId).head? = some dot) :
    dukResolveModuleId buf reqId (some id.bytes) = .typeError (cannotResolve reqId) ↔
      moduleIdLimit ≤ id.bytes.length + 4 + (cString reqId).length ∨
      moves slash dot (cString reqId) = none ∨
      ∃ before after, moves slash dot (cString reqId) = some (before ++ after) ∧
        id.dirname.length + drift before < 0 := by
  rw [dukResolveModuleId_eq, resolveId_relative id relative]
  split
  · next long => simp [Resolution.ofPlace, long]
  · next fits =>
    have nonempty : resolveFrom slash dot id.dirname (cString reqId) ≠ some [] := fun leads =>
      (resolveFrom_canonical id.dirname_names leads).nonempty rfl
    rw [ofPlace_eq_typeError nonempty, or_iff_right fits, resolveFrom]
    cases moves slash dot (cString reqId) with
    | none => simp
    | some ms => simp [walk_eq_none_iff]

theorem dukResolveModuleId_refuses_test :
    dukResolveModuleId (Vector.replicate 256 7) (ascii "../../x") (some (ascii "foo/bar")) =
      .typeError (ascii "cannot resolve module id: ../../x") := by
  let id : ModuleId := ⟨[ascii "bar", ascii "foo"], ⟨by decide, by decide⟩, by decide, by decide⟩
  have relative : (cString (ascii "../../x")).head? = some dot := rfl
  have refuses := dukResolveModuleId_refuses id (Vector.replicate 256 7) relative
  exact refuses.mpr (.inr (.inr ⟨[.up, .up], [.down (ascii "x")], by decide +kernel, by decide⟩))

theorem under_canonical (pre : ModuleId) : Canonical slash dot (id.place ++ pre.place) where
  nonempty := List.append_ne_nil_of_left_ne_nil id.canonical.nonempty _
  names := fun t mem => by
    rcases List.mem_append.mp mem with mem | mem
    · exact id.canonical.names t mem
    · exact pre.canonical.names t mem

theorem under_path (pre : ModuleId) :
    path slash (id.place ++ pre.place) = pre.bytes ++ slash :: id.bytes :=
  path_append id.canonical.nonempty pre.canonical.nonempty

theorem under_noNul (pre : ModuleId) : 0 ∉ path slash (id.place ++ pre.place) := by
  have upper := pre.noNul
  have lower := id.noNul
  have apart : (0 : UInt8) ≠ slash := by decide
  rw [under_path]
  simp only [ModuleId.bytes, List.mem_append, List.mem_cons, upper, lower, apart, or_self,
    not_false_eq_true]

theorem under_within (pre : ModuleId)
    (within : pre.bytes.length + 1 + id.bytes.length < moduleIdLimit) :
    (path slash (id.place ++ pre.place)).length < moduleIdLimit := by
  rw [under_path, List.length_append, List.length_cons]
  omega

/-- The module of this id with the directory of another module above its own. -/
def ModuleId.under (pre : ModuleId) (within : pre.bytes.length + 1 + id.bytes.length < moduleIdLimit) :
    ModuleId where
  place := id.place ++ pre.place
  canonical := under_canonical id pre
  noNul := under_noNul id pre
  within := under_within id pre within

theorem ModuleId.under_bytes (pre : ModuleId)
    (within : pre.bytes.length + 1 + id.bytes.length < moduleIdLimit) :
    (id.under pre within).bytes = pre.bytes ++ slash :: id.bytes := under_path id pre

theorem ModuleId.under_dirname (pre : ModuleId)
    (within : pre.bytes.length + 1 + id.bytes.length < moduleIdLimit) :
    (id.under pre within).dirname = id.dirname ++ pre.place :=
  List.tail_append_of_ne_nil id.canonical.nonempty

/-- Moved into a directory as a whole, modules find each other as before: a name that one of
them resolves inside leads to the same place there. -/
theorem resolve_relocated (pre : ModuleId) {buf : Vector UInt8 moduleIdLimit}
    {resolved last : Bytes} (relative : (cString reqId).head? = some dot)
    (fits : pre.bytes.length + 1 + id.bytes.length + 4 + (cString reqId).length < moduleIdLimit)
    (ids : dukResolveModuleId buf reqId (some id.bytes) = .ids resolved last) :
    dukResolveModuleId buf reqId (some (pre.bytes ++ slash :: id.bytes)) =
      .ids (pre.bytes ++ slash :: resolved) last := by
  have within : pre.bytes.length + 1 + id.bytes.length < moduleIdLimit := by omega
  rw [dukResolveModuleId_relative id buf relative] at ids
  obtain ⟨_, ms, above, read, walks, rfl⟩ := ids
  rw [← id.under_bytes pre within, dukResolveModuleId_relative _ buf relative]
  refine ⟨by rw [id.under_bytes pre within]; simp only [List.length_append, List.length_cons]; omega,
    ms, above ++ pre.place, read, ?_, ?_⟩
  · rw [id.under_dirname pre within]
    exact walk_under pre.place walks
  · rw [← List.cons_append, path_append (List.cons_ne_nil _ _) pre.canonical.nonempty]
    rfl

theorem resolve_relocated_test : dukResolveModuleId (Vector.replicate 256 7) (ascii "./quux")
    (some (ascii "lib/foo/bar")) = .ids (ascii "lib/foo/quux") (ascii "quux") := by
  have ids : dukResolveModuleId (Vector.replicate 256 7) (ascii "./quux")
      (some (path slash [ascii "bar", ascii "foo"])) = .ids (ascii "foo/quux") (ascii "quux") := by
    decide +kernel
  exact resolve_relocated ⟨[ascii "bar", ascii "foo"], ⟨by decide, by decide⟩, by decide, by decide⟩
    ⟨[ascii "lib"], ⟨by decide, by decide⟩, by decide, by decide⟩ rfl (by decide) ids

end

end DukBridge
