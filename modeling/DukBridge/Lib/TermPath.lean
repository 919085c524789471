import Mathlib.Data.List.Basic
import Mathlib.Tactic.Linarith

/-!
# Paths of terms

A path leads down from a root by names. An expression for one is a list of symbols cut into
terms at a separator: an empty term or a single period stays where it is, two periods go up,
and a name goes down. The last term has to be a name.
-/
namespace DukBridge.TermPath

section Moves

variable {τ : Type}

inductive Move (τ : Type) where
  | stay
  | up
  | down (t : τ)
deriving DecidableEq

/-- A place is the list of the names that lead to it, the deepest first. -/
def Move.apply : Move τ → List τ → Option (List τ)
  | .stay, place => some place
  | .up, [] => none
  | .up, _ :: place => some place
  | .down t, place => some (t :: place)

/-- By how much a move goes deeper. -/
def Move.drift : Move τ → Int
  | .stay => 0
  | .up => -1
  | .down _ => 1

def walk (place : List τ) (moves : List (Move τ)) : Option (List τ) :=
  moves.foldlM (fun place m => m.apply place) place

def drift (moves : List (Move τ)) : Int := (moves.map Move.drift).sum

@[simp] theorem walk_nil (place : List τ) : walk place [] = some place := rfl

@[simp] theorem walk_cons (place : List τ) (m : Move τ) (ms : List (Move τ)) :
    walk place (m :: ms) = (m.apply place).bind (walk · ms) := rfl

theorem walk_append (place : List τ) (xs ys : List (Move τ)) :
    walk place (xs ++ ys) = (walk place xs).bind (walk · ys) := by
  rw [walk, List.foldlM_append]
  rfl

/-- A walk that stays below where it starts takes the same course from a deeper start. -/
theorem walk_under {place place' : List τ} {moves : List (Move τ)} (below : List τ)
    (walks : walk place moves = some place') :
    walk (place ++ below) moves = some (place' ++ below) := by
  induction moves generalizing place with
  | nil =>
    cases walks
    rfl
  | cons m ms ih =>
    obtain ⟨next, first, rest⟩ := Option.bind_eq_some_iff.mp walks
    rw [walk_cons]
    cases m with
    | stay =>
      cases first
      exact ih rest
    | down t =>
      cases first
      exact ih rest
    | up =>
      cases place with
      | nil => cases first
      | cons t place =>
        cases first
        exact ih rest

/-- The depth a walk ends at. -/
theorem walk_length {place place' : List τ} {moves : List (Move τ)}
    (walks : walk place moves = some place') :
    (place'.length : Int) = place.length + drift moves := by
  induction moves generalizing place with
  | nil =>
    cases walks
    simp [drift]
  | cons m ms ih =>
    obtain ⟨next, first, rest⟩ := Option.bind_eq_some_iff.mp walks
    have tail := ih rest
    have head : (next.length : Int) = place.length + m.drift := by
      rcases m with _ | _ | t
      · cases first
        simp [Move.drift]
      · cases place with
        | nil => cases first
        | cons t place =>
          cases first
          simp [Move.drift]
      · cases first
        simp [Move.drift]
    simp only [drift, List.map_cons, List.sum_cons] at tail ⊢
    omega

/-- A walk fails exactly where some beginning of it goes up further than there is to go. -/
theorem walk_eq_none_iff {place : List τ} {moves : List (Move τ)} :
    walk place moves = none ↔
      ∃ before after, moves = before ++ after ∧ place.length + drift before < 0 := by
  constructor
  · intro fails
    induction moves generalizing place with
    | nil => cases fails
    | cons m ms ih =>
      rw [walk_cons] at fails
      cases first : m.apply place with
      | none =>
        -- Only a move up from the root fails.
        rcases m with _ | _ | t
        · cases first
        · cases place with
          | nil => exact ⟨[.up], ms, rfl, by simp [drift, Move.drift]⟩
          | cons t place => cases first
        · cases first
      | some next =>
        rw [first] at fails
        obtain ⟨before, after, cut, deep⟩ := ih fails
        have one : walk place [m] = some next := by simp [first]
        have head := walk_length one
        refine ⟨m :: before, after, by rw [cut, List.cons_append], ?_⟩
        simp only [drift, List.map_cons, List.map_nil, List.sum_cons, List.sum_nil] at head deep ⊢
        omega
  · rintro ⟨before, after, rfl, deep⟩
    cases walks : walk place before with
    | none => rw [walk_append, walks, Option.bind_none]
    | some place' =>
      have := walk_length walks
      omega

end Moves

section Places

variable {α : Type} (sep dot : α)

/-- A term that names something. -/
def IsName (t : List α) : Prop := t ≠ [] ∧ t.head? ≠ some dot ∧ sep ∉ t

/-- The shortest expression for a place. -/
def path (place : List (List α)) : List α := [sep].intercalate place.reverse

/-- The names that lead to a place, each with a separator after it. -/
def dir (place : List (List α)) : List α := (place.reverse.map (· ++ [sep])).flatten

variable {sep dot}

theorem dir_cons (t : List α) (place : List (List α)) :
    dir sep (t :: place) = dir sep place ++ t ++ [sep] := by
  simp [dir]

theorem path_cons (t : List α) (place : List (List α)) :
    path sep (t :: place) = dir sep place ++ t := by
  rw [path, dir, List.reverse_cons]
  induction place.reverse with
  | nil => simp
  | cons u us ih =>
    rw [List.cons_append, List.intercalate_cons_of_ne_nil (by simp), ih]
    simp

theorem dir_eq_path (t : List α) (place : List (List α)) :
    dir sep (t :: place) = path sep (t :: place) ++ [sep] := by
  rw [dir_cons, path_cons]

theorem IsName.nonempty_start {t : List α} (name : IsName sep dot t) : t ≠ [] ∧ t.head? ≠ some sep :=
  ⟨name.1, fun same => name.2.2 (List.mem_of_head? same)⟩

/-- What no name and not the rest begins with is not what the whole begins with. -/
theorem head?_dir_append {place : List (List α)} {s : List α} {c : α}
    (names : ∀ t ∈ place, t ≠ [] ∧ t.head? ≠ some c) (start : s.head? ≠ some c) :
    (dir sep place ++ s).head? ≠ some c := by
  induction place generalizing s with
  | nil => exact start
  | cons t place ih =>
    obtain ⟨nonempty, other⟩ := names t (List.mem_cons_self ..)
    rw [dir_cons, List.append_assoc, List.append_assoc]
    apply ih fun u mem => names u (List.mem_cons_of_mem _ mem)
    rwa [List.head?_append_of_ne_nil _ nonempty]

theorem dir_append (place below : List (List α)) :
    dir sep (place ++ below) = dir sep below ++ dir sep place := by
  simp [dir]

/-- The expression for a place below another begins with that of the other. -/
theorem path_append {place below : List (List α)} (deeper : place ≠ []) (above : below ≠ []) :
    path sep (place ++ below) = path sep below ++ sep :: path sep place := by
  obtain ⟨t, place, rfl⟩ := List.exists_cons_of_ne_nil deeper
  obtain ⟨u, below, rfl⟩ := List.exists_cons_of_ne_nil above
  rw [List.cons_append, path_cons, dir_append, dir_eq_path, path_cons t place]
  simp

theorem path_symbols {P : α → Prop} {place : List (List α)} (atSep : P sep)
    (symbols : ∀ t ∈ place, ∀ c ∈ t, P c) : ∀ c ∈ path sep place, P c := by
  cases place with
  | nil => simp [path]
  | cons t place =>
    intro c mem
    rw [path_cons, dir, List.mem_append, List.mem_flatten] at mem
    rcases mem with ⟨_, inside, mem⟩ | mem
    · obtain ⟨u, there, rfl⟩ := List.mem_map.mp inside
      rcases List.mem_append.mp mem with mem | mem
      · exact symbols u (by simp [List.mem_reverse.mp there]) c mem
      · rw [List.mem_singleton.mp mem]
        exact atSep
    · exact symbols t (List.mem_cons_self ..) c mem

end Places

section Terms

variable {α : Type} [DecidableEq α] (sep dot : α)

instance (t : List α) : Decidable (IsName sep dot t) := inferInstanceAs (Decidable (_ ∧ _ ∧ _))

/-- What a term before a separator does; nothing can be done with one that begins with a
period and is neither of the two that mean something. -/
def moveOf (t : List α) : Option (Move (List α)) :=
  match t with
  | [] => some .stay
  | c :: rest =>
    if c = dot then
      if rest = [] then some .stay else if rest = [dot] then some .up else none
    else some (.down t)

def movesOf : List (List α) → Option (List (Move (List α)))
  | [] => none
  | [last] => if IsName sep dot last then some [.down last] else none
  | t :: rest => (moveOf dot t).bind fun m => (movesOf rest).map (m :: ·)

/-- The moves an expression stands for. -/
def moves (s : List α) : Option (List (Move (List α))) := movesOf sep dot (s.splitOn sep)

def resolveFrom (place : List (List α)) (s : List α) : Option (List (List α)) :=
  (moves sep dot s).bind (walk place)

/-- The place an expression leads to from the root; the first term must not be empty. -/
def resolve (s : List α) : Option (List (List α)) :=
  if s.head? = some sep then none else resolveFrom sep dot [] s

variable {sep dot}

theorem moveOf_name {t : List α} (name : IsName sep dot t) : moveOf dot t = some (.down t) := by
  obtain ⟨nonempty, noDot, _⟩ := name
  cases t with
  | nil => exact absurd rfl nonempty
  | cons c rest =>
    have other : c ≠ dot := fun same => noDot (by rw [same, List.head?_cons])
    rw [moveOf, if_neg other]

theorem moveOf_eq_none {t : List α} (period : t.head? = some dot) (one : t ≠ [dot])
    (two : t ≠ [dot, dot]) : moveOf dot t = none := by
  cases t with
  | nil => cases period
  | cons c rest =>
    cases period
    rw [moveOf, if_pos rfl, if_neg fun none => one (by rw [none]),
      if_neg fun single => two (by rw [single])]

theorem moveOf_down {t u : List α} (read : moveOf dot t = some (.down u)) :
    u = t ∧ t ≠ [] ∧ t.head? ≠ some dot := by
  cases t with
  | nil => cases read
  | cons c t =>
    rw [moveOf] at read
    split at read
    · split at read
      · cases read
      · split at read <;> cases read
    · next other =>
      cases read
      exact ⟨rfl, List.cons_ne_nil _ _, by simpa using other⟩

theorem movesOf_cons {t : List α} {rest : List (List α)} (more : rest ≠ []) :
    movesOf sep dot (t :: rest) =
      (moveOf dot t).bind fun m => (movesOf sep dot rest).map (m :: ·) := by
  cases rest with
  | nil => exact absurd rfl more
  | cons u rest => rfl

/-! ### Resolution term by term -/

@[simp] theorem resolveFrom_nil (place : List (List α)) : resolveFrom sep dot place [] = none := by
  simp [resolveFrom, moves, movesOf, IsName]

theorem resolveFrom_last {place : List (List α)} {t : List α} (noSep : sep ∉ t) :
    resolveFrom sep dot place t = if IsName sep dot t then some (t :: place) else none := by
  rw [resolveFrom, moves, List.splitOn_eq_singleton noSep, movesOf]
  split <;> rfl

theorem resolveFrom_term {place : List (List α)} {t rest : List α} (noSep : sep ∉ t) :
    resolveFrom sep dot place (t ++ sep :: rest) =
      (moveOf dot t).bind fun m => (m.apply place).bind (resolveFrom sep dot · rest) := by
  rw [resolveFrom, moves, List.splitOn_append_cons_self_of_not_mem noSep,
    movesOf_cons (List.splitOn_ne_nil _ _)]
  cases moveOf dot t with
  | none => rfl
  | some m =>
    cases ms : movesOf sep dot (rest.splitOn sep) with
    | none => cases first : m.apply place <;> simp [resolveFrom, moves, ms]
    | some ms' => simp [resolveFrom, moves, ms]

/-- Separators in a row count as one. -/
theorem resolveFrom_sep (place : List (List α)) (rest : List α) :
    resolveFrom sep dot place (sep :: rest) = resolveFrom sep dot place rest := by
  have empty : sep ∉ ([] : List α) := List.not_mem_nil
  have stays : resolveFrom sep dot place ([] ++ sep :: rest) = _ := resolveFrom_term empty
  simpa [moveOf, Move.apply] using stays

theorem resolveFrom_dropWhile (place : List (List α)) (s : List α) :
    resolveFrom sep dot place (s.dropWhile (· == sep)) = resolveFrom sep dot place s := by
  induction s with
  | nil => rfl
  | cons c rest ih =>
    by_cases same : c = sep
    · subst same
      rw [List.dropWhile_cons_of_pos (by simp), ih, resolveFrom_sep]
    · rw [List.dropWhile_cons_of_neg (by simpa using same)]

/-- What is neither a name nor one of the two terms of periods leads nowhere. -/
theorem resolveFrom_period {place : List (List α)} {s : List α} (period : s.head? = some dot)
    (apart : sep ≠ dot) (one : ∀ rest, s ≠ [dot] ++ sep :: rest)
    (two : ∀ rest, s ≠ [dot, dot] ++ sep :: rest) : resolveFrom sep dot place s = none := by
  by_cases found : sep ∈ s
  · obtain ⟨t, rest, rfl, noSep⟩ := List.eq_append_cons_of_mem found
    have period' : t.head? = some dot := by
      cases t with
      | nil => exact absurd (Option.some.inj period) apart
      | cons c t => simpa using period
    have none : moveOf dot t = none :=
      moveOf_eq_none period' (fun same => one rest (by rw [same])) fun same => two rest (by rw [same])
    rw [resolveFrom_term noSep, none, Option.bind_none]
  · rw [resolveFrom_last found, if_neg]
    rintro ⟨_, noDot, _⟩
    exact noDot period

theorem resolveFrom_up {place : List (List α)} {t rest : List α} (apart : sep ≠ dot) :
    resolveFrom sep dot (t :: place) ([dot, dot] ++ sep :: rest) =
      resolveFrom sep dot place rest := by
  rw [resolveFrom_term (by simp [apart])]
  simp [moveOf, Move.apply]

/-! ### What resolution makes -/

/-- A place one can be sent to. -/
structure Canonical (sep dot : α) (place : List (List α)) : Prop where
  nonempty : place ≠ []
  names : ∀ t ∈ place, IsName sep dot t

theorem noSep_of_mem_splitOn {s t : List α} (mem : t ∈ s.splitOn sep) : sep ∉ t := by
  induction s generalizing t with
  | nil =>
    rw [List.splitOn_nil, List.mem_singleton] at mem
    simp [mem]
  | cons c s ih =>
    rw [List.splitOn_cons_eq_if_modifyHead] at mem
    obtain ⟨u, us, cut⟩ := List.exists_cons_of_ne_nil (List.splitOn_ne_nil sep s)
    rw [cut] at mem ih
    split at mem
    · rcases List.mem_cons.mp mem with rfl | mem
      · exact List.not_mem_nil
      · exact ih mem
    · next other =>
      rw [List.modifyHead_cons, List.mem_cons] at mem
      rcases mem with rfl | mem
      · intro inside
        rcases List.mem_cons.mp inside with same | inside
        · exact other (by simp [same])
        · exact ih (List.mem_cons_self ..) inside
      · exact ih (List.mem_cons_of_mem _ mem)

/-- The last move goes down, and only names are gone down to. -/
theorem movesOf_spec {ts : List (List α)} {ms : List (Move (List α))} (noSep : ∀ t ∈ ts, sep ∉ t)
    (read : movesOf sep dot ts = some ms) :
    (∃ before last, ms = before ++ [.down last]) ∧ ∀ t, .down t ∈ ms → IsName sep dot t := by
  induction ts generalizing ms with
  | nil => cases read
  | cons t rest ih =>
    by_cases more : rest = []
    · subst more
      rw [movesOf] at read
      split at read
      · next name =>
        cases read
        refine ⟨⟨[], t, rfl⟩, fun u mem => ?_⟩
        cases List.mem_singleton.mp mem
        exact name
      · cases read
    · rw [movesOf_cons more] at read
      obtain ⟨m, first, more⟩ := Option.bind_eq_some_iff.mp read
      obtain ⟨ms', tail, rfl⟩ := Option.map_eq_some_iff.mp more
      obtain ⟨⟨before, last, ends⟩, names⟩ := ih (fun u mem => noSep u (by simp [mem])) tail
      refine ⟨⟨m :: before, last, by rw [ends, List.cons_append]⟩, fun u mem => ?_⟩
      rcases List.mem_cons.mp mem with rfl | mem
      · obtain ⟨rfl, nonempty, noDot⟩ := moveOf_down first
        exact ⟨nonempty, noDot, noSep _ (List.mem_cons_self ..)⟩
      · exact names u mem

theorem walk_forall {τ : Type} {P : τ → Prop} {place place' : List τ} {ms : List (Move τ)}
    (start : ∀ t ∈ place, P t) (downs : ∀ t, .down t ∈ ms → P t)
    (walks : walk place ms = some place') : ∀ t ∈ place', P t := by
  induction ms generalizing place with
  | nil =>
    cases walks
    exact start
  | cons m ms ih =>
    obtain ⟨next, first, rest⟩ := Option.bind_eq_some_iff.mp walks
    refine ih ?_ (fun t mem => downs t (List.mem_cons_of_mem _ mem)) rest
    cases m with
    | stay =>
      cases first
      exact start
    | down t =>
      cases first
      simpa using ⟨downs t (List.mem_cons_self ..), start⟩
    | up =>
      cases place with
      | nil => cases first
      | cons u place =>
        cases first
        exact fun t mem => start t (List.mem_cons_of_mem _ mem)

theorem resolveFrom_canonical {place place' : List (List α)} {s : List α}
    (start : ∀ t ∈ place, IsName sep dot t) (leads : resolveFrom sep dot place s = some place') :
    Canonical sep dot place' := by
  obtain ⟨ms, read, walks⟩ := Option.bind_eq_some_iff.mp leads
  obtain ⟨⟨before, last, ends⟩, names⟩ := movesOf_spec (fun _ => noSep_of_mem_splitOn) read
  refine ⟨?_, walk_forall start names walks⟩
  rw [ends, walk_append] at walks
  obtain ⟨near, _, final⟩ := Option.bind_eq_some_iff.mp walks
  cases final
  exact List.cons_ne_nil _ _

theorem resolve_canonical {place : List (List α)} {s : List α}
    (leads : resolve sep dot s = some place) : Canonical sep dot place := by
  rw [resolve] at leads
  split at leads
  · cases leads
  · exact resolveFrom_canonical (by simp) leads

/-! ### Expressions for places -/

/-- Names in front of an expression are where it starts. -/
theorem resolveFrom_dir {ts place : List (List α)} {s : List α}
    (names : ∀ t ∈ ts, IsName sep dot t) :
    resolveFrom sep dot place (dir sep ts ++ s) = resolveFrom sep dot (ts ++ place) s := by
  induction ts generalizing s with
  | nil => rfl
  | cons t ts ih =>
    have name := names t (List.mem_cons_self ..)
    rw [dir_cons, List.append_assoc, List.append_assoc,
      ih (fun u mem => names u (List.mem_cons_of_mem _ mem)), List.singleton_append,
      resolveFrom_term name.2.2, moveOf_name name]
    rfl

/-- The expression for a place leads there. -/
theorem resolve_path {place : List (List α)} (canonical : Canonical sep dot place) :
    resolve sep dot (path sep place) = some place := by
  obtain ⟨t, place, rfl⟩ := List.exists_cons_of_ne_nil canonical.nonempty
  have name := canonical.names t (List.mem_cons_self ..)
  have names : ∀ u ∈ place, IsName sep dot u :=
    fun u mem => canonical.names u (List.mem_cons_of_mem _ mem)
  rw [path_cons, resolve, if_neg (head?_dir_append (fun u mem => (names u mem).nonempty_start)
      name.nonempty_start.2), resolveFrom_dir names,
    resolveFrom_last name.2.2, if_pos name, List.append_nil]

/-- Induction over the terms of an expression. -/
theorem terms_induction (sep : α) {motive : List α → Prop} (last : ∀ t, sep ∉ t → motive t)
    (term : ∀ t rest, sep ∉ t → motive rest → motive (t ++ sep :: rest)) (s : List α) :
    motive s := by
  by_cases found : sep ∈ s
  · obtain ⟨t, rest, cut, noSep⟩ := List.eq_append_cons_of_mem found
    have shorter : rest.length < s.length := by
      rw [cut, List.length_append, List.length_cons]
      omega
    rw [cut]
    exact term t rest noSep (terms_induction sep last term rest)
  · exact last s found
termination_by s.length

theorem length_dir_apply (sep : α) {t : List α} {m : Move (List α)} {place place' : List (List α)}
    (read : moveOf dot t = some m) (goes : m.apply place = some place') :
    (dir sep place').length ≤ (dir sep place).length + t.length + 1 := by
  rcases m with _ | _ | u
  · cases goes
    omega
  · cases place with
    | nil => cases goes
    | cons v place =>
      cases goes
      rw [dir_cons, List.length_append, List.length_append]
      omega
  · obtain ⟨rfl, _⟩ := moveOf_down read
    cases goes
    rw [dir_cons, List.length_append, List.length_append, List.length_singleton]

/-- The expression for a place is never longer than one that leads there. -/
theorem length_path_le {place place' : List (List α)} {s : List α}
    (leads : resolveFrom sep dot place s = some place') :
    (path sep place').length ≤ (dir sep place).length + s.length := by
  induction s using terms_induction sep generalizing place with
  | last t noSep =>
    rw [resolveFrom_last noSep] at leads
    split at leads
    · cases leads
      rw [path_cons, List.length_append]
    · cases leads
  | term t rest noSep ih =>
    rw [resolveFrom_term noSep] at leads
    obtain ⟨m, read, leads⟩ := Option.bind_eq_some_iff.mp leads
    obtain ⟨next, goes, leads⟩ := Option.bind_eq_some_iff.mp leads
    have first := length_dir_apply sep read goes
    have rest := ih leads
    rw [List.length_append, List.length_cons]
    omega

/-- What holds of every symbol of the terms holds of every symbol of the names. -/
theorem resolveFrom_symbols {P : α → Prop} {place place' : List (List α)} {s : List α}
    (start : ∀ t ∈ place, ∀ c ∈ t, P c) (symbols : ∀ c ∈ s, P c)
    (leads : resolveFrom sep dot place s = some place') : ∀ t ∈ place', ∀ c ∈ t, P c := by
  induction s using terms_induction sep generalizing place with
  | last t noSep =>
    rw [resolveFrom_last noSep] at leads
    split at leads
    · cases leads
      simpa using ⟨symbols, start⟩
    · cases leads
  | term t rest noSep ih =>
    rw [resolveFrom_term noSep] at leads
    obtain ⟨m, read, leads⟩ := Option.bind_eq_some_iff.mp leads
    obtain ⟨next, goes, leads⟩ := Option.bind_eq_some_iff.mp leads
    refine ih ?_ (fun c mem => symbols c (by simp [mem])) leads
    rcases m with _ | _ | u
    · cases goes
      exact start
    · cases place with
      | nil => cases goes
      | cons v place =>
        cases goes
        exact fun t mem => start t (List.mem_cons_of_mem _ mem)
    · obtain ⟨rfl, _⟩ := moveOf_down read
      cases goes
      simpa using ⟨fun c mem => symbols c (by simp [mem]), start⟩

/-- An expression after that of a place and a move up starts in the directory of the place. -/
theorem resolve_relative {t : List α} {place : List (List α)} {s : List α}
    (canonical : Canonical sep dot (t :: place)) (apart : sep ≠ dot) :
    resolve sep dot (path sep (t :: place) ++ ([sep, dot, dot, sep] ++ s)) =
      resolveFrom sep dot place s := by
  have joined : path sep (t :: place) ++ ([sep, dot, dot, sep] ++ s) =
      dir sep (t :: place) ++ ([dot, dot] ++ sep :: s) := by
    simp [dir_eq_path]
  have start : ([dot, dot] ++ sep :: s).head? ≠ some sep := fun same =>
    apart (Option.some.inj same).symm
  rw [joined, resolve,
    if_neg (head?_dir_append (fun u mem => (canonical.names u mem).nonempty_start) start),
    resolveFrom_dir canonical.names, List.append_nil, resolveFrom_up apart]

end Terms

end DukBridge.TermPath
