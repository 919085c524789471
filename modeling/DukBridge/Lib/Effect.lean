import Mathlib.Algebra.Group.Int.Defs

/-!
# Programs that may throw, over a state that survives the throw

`EStateM ε σ` runs on core's definitions. What is added is how a sequence returns,
how far a returning program moves a measure of the state, triples that say how a program ends
from some of its states, and what the rounds of a loop do.
-/
namespace Effect

variable {ε σ α β : Type}

@[simp] theorem pure_run (a : α) (s : σ) : (pure a : EStateM ε σ α) s = .ok a s := rfl

@[simp] theorem get_run (s : σ) : (get : EStateM ε σ σ) s = .ok s s := rfl

@[simp] theorem set_run (s t : σ) : (set t : EStateM ε σ PUnit) s = .ok ⟨⟩ t := rfl

@[simp] theorem map_run (f : α → β) (m : EStateM ε σ α) (s : σ) :
    (f <$> m) s = match m s with
      | .ok a s' => .ok (f a) s'
      | .error e s' => .error e s' := rfl

theorem bind_run (m : EStateM ε σ α) (f : α → EStateM ε σ β) (s : σ) :
    (m >>= f) s = match m s with
      | .ok a s' => f a s'
      | .error e s' => .error e s' := rfl

theorem bind_ok {m : EStateM ε σ α} {s s' : σ} {a : α} (first : m s = .ok a s')
    (f : α → EStateM ε σ β) : (m >>= f) s = f a s' := by
  rw [bind_run, first]

theorem bind_error {m : EStateM ε σ α} {s s' : σ} {e : ε} (first : m s = .error e s')
    (f : α → EStateM ε σ β) : (m >>= f) s = .error e s' := by
  rw [bind_run, first]

theorem bind_eq_ok {m : EStateM ε σ α} {f : α → EStateM ε σ β} {s t : σ} {b : β} :
    (m >>= f) s = .ok b t ↔ ∃ a s', m s = .ok a s' ∧ f a s' = .ok b t := by
  rw [bind_run]
  constructor
  · intro returned
    split at returned
    · next a s' first => exact ⟨a, s', first, returned⟩
    · cases returned
  · rintro ⟨a, s', first, rest⟩
    rw [first]
    exact rest

/-! ### Returning -/

def Returns (m : EStateM ε σ α) (s : σ) : Prop := ∃ a s', m s = .ok a s'

theorem returns_pure (a : α) (s : σ) : Returns (pure a : EStateM ε σ α) s := ⟨a, s, rfl⟩

theorem not_returns_of_error {m : EStateM ε σ α} {s s' : σ} {e : ε} (fails : m s = .error e s') :
    ¬ Returns m s := by
  rintro ⟨a, t, returned⟩
  rw [fails] at returned
  cases returned

theorem returns_bind_of_ok {m : EStateM ε σ α} {s s' : σ} {a : α} (first : m s = .ok a s')
    {f : α → EStateM ε σ β} : Returns (m >>= f) s ↔ Returns (f a) s' := by
  unfold Returns
  rw [bind_ok first]

theorem returns_bind {m : EStateM ε σ α} {f : α → EStateM ε σ β} {s : σ} :
    Returns (m >>= f) s ↔ ∃ a s', m s = .ok a s' ∧ Returns (f a) s' := by
  constructor
  · rintro ⟨b, t, returned⟩
    obtain ⟨a, s', first, rest⟩ := bind_eq_ok.mp returned
    exact ⟨a, s', first, b, t, rest⟩
  · rintro ⟨a, s', first, b, t, rest⟩
    exact ⟨b, t, bind_eq_ok.mpr ⟨a, s', first, rest⟩⟩

/-- The program returns in a state that passes the check. -/
def returnsIn (check : σ → Bool) (m : EStateM ε σ α) (s : σ) : Bool :=
  match m s with
  | .ok _ t => check t
  | .error _ _ => false

theorem returnsIn_eq_true {check : σ → Bool} {m : EStateM ε σ α} {s : σ} :
    returnsIn check m s = true ↔ ∃ a t, m s = .ok a t ∧ check t = true := by
  unfold returnsIn
  cases m s with
  | ok a t =>
    constructor
    · exact fun checked => ⟨a, t, rfl, checked⟩
    · rintro ⟨_, _, same, checked⟩
      cases same
      exact checked
  | error e t => simp

/-- The program ends in this fault, in a state that passes the check. -/
def throwsIn [DecidableEq ε] (e : ε) (check : σ → Bool) (m : EStateM ε σ α) (s : σ) : Bool :=
  match m s with
  | .ok _ _ => false
  | .error e' t => e' = e && check t

theorem throwsIn_eq_true [DecidableEq ε] {e : ε} {check : σ → Bool} {m : EStateM ε σ α} {s : σ} :
    throwsIn e check m s = true ↔ ∃ t, m s = .error e t ∧ check t = true := by
  unfold throwsIn
  cases m s with
  | ok a t => simp
  | error e' t =>
    dsimp only
    rw [Bool.and_eq_true, decide_eq_true_iff]
    constructor
    · rintro ⟨rfl, checked⟩
      exact ⟨t, rfl, checked⟩
    · rintro ⟨_, same, checked⟩
      cases same
      exact ⟨rfl, checked⟩

/-- Nothing after a program that cannot fail decides whether the sequence returns. -/
theorem returns_bind_total {m : EStateM ε σ α} {f : α → EStateM ε σ β} {s : σ}
    (total : ∀ a s', Returns (f a) s') : Returns (m >>= f) s ↔ Returns m s := by
  rw [returns_bind]
  constructor
  · rintro ⟨a, s', first, _⟩
    exact ⟨a, s', first⟩
  · rintro ⟨a, s', first⟩
    exact ⟨a, s', first, total a s'⟩

/-! ### Keeping a part of the state -/

/-- Whenever the program returns, it has left this view of the state as it was. -/
def Keeps {ρ : Type} (view : σ → ρ) (m : EStateM ε σ α) : Prop :=
  ∀ s a s', m s = .ok a s' → view s' = view s

section Keeps

variable {ρ : Type} {view : σ → ρ}

theorem Keeps.pure (a : α) : Keeps view (Pure.pure a : EStateM ε σ α) := by
  intro s b s' returned
  cases returned
  rfl

theorem Keeps.throw (e : ε) : Keeps view (MonadExcept.throw e : EStateM ε σ α) := by
  intro s a s' returned
  cases returned

theorem Keeps.bind {m : EStateM ε σ α} {f : α → EStateM ε σ β} (first : Keeps view m)
    (rest : ∀ a, Keeps view (f a)) : Keeps view (m >>= f) := by
  intro s b t returned
  obtain ⟨a, s', ran, ranRest⟩ := bind_eq_ok.mp returned
  exact (rest a s' b t ranRest).trans (first s a s' ran)

theorem Keeps.get_bind {f : σ → EStateM ε σ β} (rest : ∀ s, Keeps view (f s)) :
    Keeps view (get >>= f) :=
  fun s b t returned => rest s s b t returned

end Keeps

/-! ### Where a program leads -/

/-- The state a program ends in, whether it returns or throws. -/
def endState : EStateM.Result ε σ α → σ
  | .ok _ s => s
  | .error _ s => s

/-- However the program ends, the state it started in is related to the one it ends in. -/
def Leads (R : σ → σ → Prop) (m : EStateM ε σ α) : Prop := ∀ s, R s (endState (m s))

section Leads

variable {R : σ → σ → Prop}

theorem Leads.of_ok {m : EStateM ε σ α} (leads : Leads R m) {s s' : σ} {a : α}
    (returned : m s = .ok a s') : R s s' := by
  have related := leads s
  rwa [returned] at related

theorem Leads.of_error {m : EStateM ε σ α} (leads : Leads R m) {s s' : σ} {e : ε}
    (threw : m s = .error e s') : R s s' := by
  have related := leads s
  rwa [threw] at related

theorem Leads.pure (refl : ∀ s, R s s) (a : α) : Leads R (Pure.pure a : EStateM ε σ α) := refl

theorem Leads.throw (refl : ∀ s, R s s) (e : ε) :
    Leads R (MonadExcept.throw e : EStateM ε σ α) := refl

theorem Leads.bind (trans : ∀ {s t u}, R s t → R t u → R s u) {m : EStateM ε σ α}
    {f : α → EStateM ε σ β} (first : Leads R m) (rest : ∀ a, Leads R (f a)) :
    Leads R (m >>= f) := by
  intro s
  have start := first s
  rw [bind_run]
  cases ran : m s with
  | ok a s' =>
    rw [ran] at start
    exact trans start (rest a s')
  | error e s' =>
    rw [ran] at start
    exact start

theorem Leads.get_bind {f : σ → EStateM ε σ β} (rest : ∀ s, R s (endState (f s s))) :
    Leads R (get >>= f) := rest

theorem Leads.ite {c : Prop} [Decidable c] {m n : EStateM ε σ α} (yes : Leads R m)
    (no : Leads R n) : Leads R (if c then m else n) := by
  split
  · exact yes
  · exact no

end Leads

/-! ### Moving a measure -/

/-- Whenever the program returns, it has moved the measure by `k`. -/
def Shifts (μ : σ → Int) (k : Int) (m : EStateM ε σ α) : Prop :=
  ∀ s a s', m s = .ok a s' → μ s' = μ s + k

section Shifts

variable {μ : σ → Int} {j k : Int}

theorem Shifts.pure (a : α) : Shifts μ 0 (Pure.pure a : EStateM ε σ α) := by
  intro s b s' returned
  cases returned
  exact (Int.add_zero _).symm

theorem Shifts.throw (e : ε) : Shifts μ k (MonadExcept.throw e : EStateM ε σ α) := by
  intro s a s' returned
  cases returned

/-- The rest of a sequence has to make up for its first step. -/
theorem Shifts.next {m : EStateM ε σ α} {f : α → EStateM ε σ β} (first : Shifts μ j m)
    (rest : ∀ a, Shifts μ (k - j) (f a)) : Shifts μ k (m >>= f) := by
  intro s b t returned
  obtain ⟨a, s', ran, ranRest⟩ := bind_eq_ok.mp returned
  have start := first s a s' ran
  have stop := rest a s' b t ranRest
  omega

theorem Shifts.andThen {m : EStateM ε σ α} {n : EStateM ε σ β} (first : Shifts μ j m)
    (rest : Shifts μ (k - j) n) : Shifts μ k (m >>= fun _ => n) :=
  first.next fun _ => rest

theorem Shifts.get_next {f : σ → EStateM ε σ β} (rest : ∀ s, Shifts μ k (f s)) :
    Shifts μ k (get >>= f) :=
  fun s b t returned => rest s s b t returned

theorem Shifts.of_eq {m : EStateM ε σ α} (moves : Shifts μ j m) (same : j = k) : Shifts μ k m :=
  same ▸ moves

theorem Shifts.ite {c : Prop} [Decidable c] {m n : EStateM ε σ α} (yes : Shifts μ k m)
    (no : Shifts μ k n) : Shifts μ k (if c then m else n) := by
  split
  · exact yes
  · exact no

/-- A measure of a part of the state stands still with it. -/
theorem Keeps.shifts {ρ : Type} {view : σ → ρ} {m : EStateM ε σ α} (keeps : Keeps view m)
    (measure : ρ → Int) : Shifts (fun s => measure (view s)) 0 m := by
  intro s a s' returned
  dsimp only
  rw [keeps s a s' returned, Int.add_zero]

end Shifts

/-! ### Triples -/

/-- From a state that satisfies `P`, the program ends in one that satisfies `Q` or throws in one
that satisfies `E`. -/
def Meets (P : σ → Prop) (m : EStateM ε σ α) (Q : α → σ → Prop) (E : ε → σ → Prop) : Prop :=
  ∀ s, P s → match m s with
    | .ok a t => Q a t
    | .error e t => E e t

section Meets

variable {P P' : σ → Prop} {Q Q' : α → σ → Prop} {E : ε → σ → Prop} {m : EStateM ε σ α}

theorem Meets.of_ok {s t : σ} {a : α} (meets : Meets P m Q E) (pre : P s) (ran : m s = .ok a t) :
    Q a t := by
  have post := meets s pre
  rwa [ran] at post

theorem Meets.of_error {s t : σ} {e : ε} (meets : Meets P m Q E) (pre : P s)
    (ran : m s = .error e t) : E e t := by
  have post := meets s pre
  rwa [ran] at post

theorem Meets.pure {a : α} (post : ∀ s, P s → Q a s) :
    Meets P (Pure.pure a : EStateM ε σ α) Q E := post

theorem Meets.throw {e : ε} (post : ∀ s, P s → E e s) :
    Meets P (MonadExcept.throw e : EStateM ε σ α) Q E := post

theorem Meets.bind {f : α → EStateM ε σ β} {S : β → σ → Prop} (first : Meets P m Q E)
    (rest : ∀ a, Meets (Q a) (f a) S E) : Meets P (m >>= f) S E := by
  intro s pre
  have start := first s pre
  rw [bind_run]
  cases ran : m s with
  | ok a t =>
    rw [ran] at start
    exact rest a t start
  | error e t =>
    rw [ran] at start
    exact start

theorem Meets.get_bind {f : σ → EStateM ε σ α} (rest : ∀ s, P s → Meets (· = s) (f s) Q E) :
    Meets P (get >>= f) Q E := fun s pre => rest s pre s rfl

theorem Meets.mono (pre : ∀ s, P' s → P s) (post : ∀ a s, Q a s → Q' a s) (meets : Meets P m Q E) :
    Meets P' m Q' E := by
  intro s holds
  have ends := meets s (pre s holds)
  split at ends
  · exact post _ _ ends
  · exact ends

/-- How the program throws is left open. -/
theorem Meets.anyError (meets : Meets P m Q E) : Meets P m Q fun _ _ => True := by
  intro s pre
  have ends := meets s pre
  split at ends
  · exact ends
  · trivial

/-- What is known of no state in particular may be known beforehand. -/
theorem Meets.exists {ι : Type} {P : ι → σ → Prop} (each : ∀ i, Meets (P i) m Q E) :
    Meets (fun s => ∃ i, P i s) m Q E := fun s ⟨i, pre⟩ => each i s pre

theorem Meets.assume {p : Prop} (given : p → Meets P m Q E) : Meets (fun s => p ∧ P s) m Q E :=
  fun s ⟨holds, pre⟩ => given holds s pre

theorem Meets.ite {c : Prop} [Decidable c] {n : EStateM ε σ α} (yes : c → Meets P m Q E)
    (no : ¬ c → Meets P n Q E) : Meets P (if c then m else n) Q E := by
  split
  · next holds => exact yes holds
  · next fails => exact no fails

end Meets

/-! ### Cutting a program off -/

/-- The second program does what the first does, unless the first ends in this fault. -/
def UpTo (e : ε) (m n : EStateM ε σ α) : Prop := ∀ s, (∃ t, m s = .error e t) ∨ n s = m s

section UpTo

variable {e : ε}

theorem UpTo.refl (m : EStateM ε σ α) : UpTo e m m := fun _ => .inr rfl

theorem UpTo.bind {m n : EStateM ε σ α} {f g : α → EStateM ε σ β} (first : UpTo e m n)
    (rest : ∀ a, UpTo e (f a) (g a)) : UpTo e (m >>= f) (n >>= g) := by
  intro s
  rw [bind_run, bind_run]
  rcases first s with ⟨t, cut⟩ | same
  · exact .inl ⟨t, by rw [cut]⟩
  · rw [same]
    cases m s with
    | ok a t => exact rest a t
    | error e' t => exact .inr rfl

/-- Only the rest of a sequence is cut off. -/
theorem UpTo.next (m : EStateM ε σ α) {f g : α → EStateM ε σ β} (rest : ∀ a, UpTo e (f a) (g a)) :
    UpTo e (m >>= f) (m >>= g) := (UpTo.refl m).bind rest

theorem UpTo.ite {c : Prop} [Decidable c] {m m' n n' : EStateM ε σ α} (yes : UpTo e m m')
    (no : UpTo e n n') : UpTo e (if c then m else n) (if c then m' else n') := by
  split
  · exact yes
  · exact no

end UpTo

/-! ### Loops -/

/-- A program for each element, one after the other. -/
def each (body : α → EStateM ε σ Unit) : List α → EStateM ε σ Unit
  | [] => pure ()
  | a :: rest => body a >>= fun _ => each body rest

section Each

variable {body : α → EStateM ε σ Unit} {s t : σ}

theorem each_cons_eq_ok {a : α} {rest : List α} : each body (a :: rest) s = .ok () t ↔
    ∃ mid, body a s = .ok () mid ∧ each body rest mid = .ok () t := by
  rw [each, bind_eq_ok]
  constructor
  · rintro ⟨_, mid, first, others⟩
    exact ⟨mid, first, others⟩
  · rintro ⟨mid, first, others⟩
    exact ⟨(), mid, first, others⟩

theorem each_append_eq_ok {xs ys : List α} : each body (xs ++ ys) s = .ok () t ↔
    ∃ mid, each body xs s = .ok () mid ∧ each body ys mid = .ok () t := by
  induction xs generalizing s with
  | nil => simp [each]
  | cons a rest ih =>
    rw [List.cons_append]
    simp only [each_cons_eq_ok, ih]
    constructor
    · rintro ⟨one, first, mid, others, last⟩
      exact ⟨mid, ⟨one, first, others⟩, last⟩
    · rintro ⟨mid, ⟨one, first, others⟩, last⟩
      exact ⟨one, first, mid, others, last⟩

variable {inv : List α → σ → Prop} {l : List α}

/-- What holds of the elements to come and the state before a round holds before each round. -/
theorem each_inv
    (keeps : ∀ a rest s t, inv (a :: rest) s → body a s = .ok () t → inv rest t)
    {before after : List α} (start : inv (before ++ after) s)
    (ran : each body before s = .ok () t) : inv after t := by
  induction before generalizing s with
  | nil =>
    cases ran
    exact start
  | cons a rest ih =>
    obtain ⟨mid, first, others⟩ := each_cons_eq_ok.mp ran
    exact ih (keeps a _ s mid start first) others

/-- If a round does what it should exactly when a condition on the state before it holds, then the
loop comes to its end with every round as it should be exactly when the condition holds in every
state that the rounds before an element lead to. -/
theorem each_rounds_iff {Round : α → σ → σ → Prop} {Meets : α → σ → Prop}
    (round : ∀ a rest s, inv (a :: rest) s →
      ((∃ t, body a s = .ok () t ∧ Round a s t) ↔ Meets a s))
    (keeps : ∀ a rest s t, inv (a :: rest) s → body a s = .ok () t → inv rest t)
    (start : inv l s) :
    ((∃ t, each body l s = .ok () t) ∧ ∀ before a after, l = before ++ a :: after →
      ∃ mid next, each body before s = .ok () mid ∧ each body (before ++ [a]) s = .ok () next ∧
        Round a mid next) ↔
      ∀ before a after, l = before ++ a :: after →
        ∀ mid, each body before s = .ok () mid → Meets a mid := by
  constructor
  · rintro ⟨_, rounds⟩ before a after rfl mid ran
    obtain ⟨mid', next, ran', ended, good⟩ := rounds before a after rfl
    rw [ran] at ran'
    cases ran'
    obtain ⟨mid', ran', last⟩ := each_append_eq_ok.mp ended
    rw [ran] at ran'
    cases ran'
    obtain ⟨_, last, same⟩ := each_cons_eq_ok.mp last
    cases same
    exact (round a after mid (each_inv keeps start ran)).mp ⟨next, last, good⟩
  · intro meets
    induction l generalizing s with
    | nil =>
      refine ⟨⟨s, rfl⟩, ?_⟩
      intro before a after same
      cases before <;> cases same
    | cons first rest ih =>
      have now := meets [] first rest rfl s rfl
      obtain ⟨t, ran, good⟩ := (round first rest s start).mpr now
      -- the condition holds of the later rounds after this one
      have later : ∀ before a after, rest = before ++ a :: after →
          ∀ mid, each body before t = .ok () mid → Meets a mid := by
        intro before a after same mid others
        rw [same] at meets
        exact meets (first :: before) a after rfl mid (each_cons_eq_ok.mpr ⟨t, ran, others⟩)
      obtain ⟨⟨last, ended⟩, rounds⟩ := ih (keeps first rest s t start ran) later
      refine ⟨⟨last, each_cons_eq_ok.mpr ⟨t, ran, ended⟩⟩, ?_⟩
      intro before a after same
      cases before with
      | nil =>
        cases same
        exact ⟨s, t, rfl, each_cons_eq_ok.mpr ⟨t, ran, rfl⟩, good⟩
      | cons b before =>
        cases same
        obtain ⟨mid, next, others, one, good⟩ := rounds before a after rfl
        exact ⟨mid, next, each_cons_eq_ok.mpr ⟨t, ran, others⟩,
          each_cons_eq_ok.mpr ⟨t, ran, one⟩, good⟩

end Each

/-! ### Programs on a part of a larger state -/

/-- A part that can be read and replaced. -/
structure Part (τ σ : Type) where
  view : τ → σ
  put : τ → σ → τ
  view_put : ∀ t s, view (put t s) = s
  put_put : ∀ t s s', put (put t s) s' = put t s'

variable {τ : Type} {part : Part τ σ}

/-- The program sees its part and nothing else. -/
def zoom (part : Part τ σ) (m : EStateM ε σ α) : EStateM ε τ α := fun t =>
  match m (part.view t) with
  | .ok a s => .ok a (part.put t s)
  | .error e s => .error e (part.put t s)

theorem zoom_eq_ok {m : EStateM ε σ α} {t t' : τ} {a : α} :
    zoom part m t = .ok a t' ↔ ∃ s, m (part.view t) = .ok a s ∧ t' = part.put t s := by
  unfold zoom
  cases m (part.view t) with
  | ok b s =>
    constructor
    · intro returned
      cases returned
      exact ⟨s, rfl, rfl⟩
    · rintro ⟨_, same, rfl⟩
      cases same
      rfl
  | error e s => simp

/-- Two programs on one part are one program on it. -/
theorem zoom_bind (m : EStateM ε σ α) (f : α → EStateM ε σ β) :
    zoom part (m >>= f) = zoom part m >>= fun a => zoom part (f a) := by
  funext t
  rw [bind_run, zoom, zoom, bind_run]
  cases m (part.view t) with
  | ok a s =>
    simp only [zoom, part.view_put]
    cases f a s <;> simp only [part.put_put]
  | error e s => rfl

end Effect
