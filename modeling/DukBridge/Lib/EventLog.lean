import DukBridge.Lib.Effect

/-!
# Programs that keep a log of what they do

The log grows beside the state and survives a throw with it. A program that only logs
beside another one does what the other one does.
-/
namespace EventLog

open Effect

variable {ε σ κ α β : Type}

/-- A program over a state with a log. -/
abbrev Logged (ε σ κ α : Type) := EStateM ε (σ × List κ) α

/-- What is left of a result without the log. -/
def erased : EStateM.Result ε (σ × List κ) α → EStateM.Result ε σ α
  | .ok a s => .ok a s.1
  | .error e s => .error e s.1

/-- Everything logged when the program has returned or thrown. -/
def logOf (result : EStateM.Result ε (σ × List κ) α) : List κ := (endState result).2

/-- A program that logs nothing. -/
def perform (m : EStateM ε σ α) : Logged ε σ κ α := fun s =>
  match m s.1 with
  | .ok a s' => .ok a (s', s.2)
  | .error e s' => .error e (s', s.2)

def emit (event : κ) : Logged ε σ κ Unit := modify fun s => (s.1, s.2 ++ [event])

@[simp] theorem emit_run (event : κ) (s : σ) (log : List κ) :
    (emit event : Logged ε σ κ Unit) (s, log) = .ok () (s, log ++ [event]) := rfl

theorem perform_ok {m : EStateM ε σ α} {s s' : σ} {a : α} (returned : m s = .ok a s')
    (log : List κ) : perform m (s, log) = .ok a (s', log) := by
  simp only [perform, returned]

theorem perform_error {m : EStateM ε σ α} {s s' : σ} {e : ε} (threw : m s = .error e s')
    (log : List κ) : perform m (s, log) = .error e (s', log) := by
  simp only [perform, threw]

/-- A throw of the first step leaves the log as it was. -/
theorem logOf_perform_bind {m : EStateM ε σ α} {s : σ} (fails : ¬ Returns m s)
    (f : α → Logged ε σ κ β) (log : List κ) : logOf ((perform m >>= f) (s, log)) = log := by
  cases ran : m s with
  | ok a s' => exact absurd ⟨a, s', ran⟩ fails
  | error e s' =>
    rw [bind_error (perform_error ran log)]
    rfl

/-! ### Reading a history back, the newest event first -/

/-- `event` happened, and every later event spares what it did. -/
def HappenedSince (spares : κ → Prop) (event : κ) (history : List κ) : Prop :=
  ∃ since before, history = since ++ event :: before ∧ ∀ later ∈ since, spares later

theorem HappenedSince.mem {spares : κ → Prop} {event : κ} {history : List κ}
    (happened : HappenedSince spares event history) : event ∈ history := by
  obtain ⟨since, before, rfl, _⟩ := happened
  simp

theorem not_happenedSince_nil {spares : κ → Prop} {event : κ} :
    ¬ HappenedSince spares event [] := fun happened => by simpa using happened.mem

theorem happenedSince_cons {spares : κ → Prop} {event newest : κ} {history : List κ} :
    HappenedSince spares event (newest :: history) ↔
      newest = event ∨ (spares newest ∧ HappenedSince spares event history) := by
  constructor
  · rintro ⟨since, before, split, spared⟩
    cases since with
    | nil =>
      cases split
      exact .inl rfl
    | cons later since =>
      cases split
      have older := fun event member => spared event (List.mem_cons_of_mem _ member)
      exact .inr ⟨spared _ List.mem_cons_self, since, before, rfl, older⟩
  · rintro (rfl | ⟨spared, since, before, rfl, older⟩)
    · exact ⟨[], history, rfl, by simp⟩
    · exact ⟨newest :: since, before, rfl, by simpa using ⟨spared, older⟩⟩

/-! ### Without the log -/

/-- The first program does what the second does, and keeps a log of it. -/
def Logs (m : Logged ε σ κ α) (n : EStateM ε σ α) : Prop :=
  ∀ s log, erased (m (s, log)) = n s

theorem Logs.perform (m : EStateM ε σ α) : Logs (EventLog.perform m : Logged ε σ κ α) m := by
  intro s log
  cases ran : m s with
  | ok a s' => rw [perform_ok ran]; rfl
  | error e s' => rw [perform_error ran]; rfl

theorem Logs.pure (a : α) : Logs (Pure.pure a : Logged ε σ κ α) (Pure.pure a) :=
  fun _ _ => rfl

theorem Logs.bind {m : Logged ε σ κ α} {n : EStateM ε σ α} {f : α → Logged ε σ κ β}
    {g : α → EStateM ε σ β} (first : Logs m n) (rest : ∀ a, Logs (f a) (g a)) :
    Logs (m >>= f) (n >>= g) := by
  intro s log
  have start := first s log
  cases ran : m (s, log) with
  | ok a s' =>
    rw [ran] at start
    rw [bind_ok ran, bind_ok start.symm]
    exact rest a s'.1 s'.2
  | error e s' =>
    rw [ran] at start
    rw [bind_error ran, bind_error start.symm]
    rfl

/-- An event stands for nothing in the program without the log. -/
theorem Logs.emit_bind {event : κ} {f : Unit → Logged ε σ κ α} {n : EStateM ε σ α}
    (rest : Logs (f ()) n) : Logs (emit event >>= f) n := fun s log => rest s (log ++ [event])

theorem Logs.ite {c : Prop} [Decidable c] {m m' : Logged ε σ κ α} {n n' : EStateM ε σ α}
    (yes : Logs m n) (no : Logs m' n') :
    Logs (if c then m else m') (if c then n else n') := by
  split
  · exact yes
  · exact no

end EventLog
