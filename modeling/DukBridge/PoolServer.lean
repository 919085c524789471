import DukBridge.V2KPool

/-!
# Request and reply matching in V2KPool

Goroutines share the channels `od` and `res` of one pool. The rendezvous library
gives the invariant of the joint control states; here it is read for the pool.
-/
namespace DukBridge

open Rendezvous

variable {α σ ι : Type} [DecidableEq α] [GoValue α] [DecidableEq ι]

/-- A goroutine that uses one pool: what it does next may depend on every result so far. -/
inductive Goroutine (α : Type) where
  | finished
  | V2K (val : α) (next : Except α α → Goroutine α)
  | GetVal (key : α) (next : α → Goroutine α)
  | RemoveKey (key : α) (next : Goroutine α)
  | RemoveVal (val : α) (next : Goroutine α)

def Goroutine.prog : Goroutine α → PoolProg α Unit
  | .finished => pure ()
  | .V2K val next => do (next (← V2KPool.V2K val)).prog
  | .GetVal key next => do (next (← V2KPool.GetVal key)).prog
  | .RemoveKey key next => do
    V2KPool.RemoveKey key
    next.prog
  | .RemoveVal val next => do
    V2KPool.RemoveVal val
    next.prog

/-- The systems of one pool and any number of goroutines, after any number of rendezvous. -/
abbrev PoolReachable (p : V2KPool α σ) (goroutines : ι → Goroutine α) :
    State ι (V2KPool α σ) (OpWithData α) α Unit → Prop :=
  Reachable V2KPool.protocol (fun i => (goroutines i).prog) p

/-- `res` is what the sequential pool `q` computes for the request `od`. -/
def Answers (q : V2KPool α σ) (od : OpWithData α) (res : α) : Prop :=
  match od.op with
  | .v2k => ∃ q', q.val2Key od.data = .ok (res, q')
  | .k2v => q.getVal od.data = .ok res
  | _ => False

omit [DecidableEq ι] in
/-- Only `val2Key` and `getVal` send on `res`. -/
theorem answers_of_reply {q q' : V2KPool α σ} {od : OpWithData α} {res : α}
    (served : q.bgLoop od = .reply res q') : Answers q od res := by
  obtain ⟨op, data⟩ := od
  cases op with
  | v2k =>
    simp only [V2KPool.bgLoop] at served
    split at served
    · next k p' drawn =>
      cases served
      exact ⟨_, drawn⟩
    · cases served
  | k2v =>
    simp only [V2KPool.bgLoop] at served
    split at served
    · next v found =>
      cases served
      exact found
    · cases served
  | removeV | removeK =>
    simp only [V2KPool.bgLoop] at served
    split at served <;> cases served
  | exit => cases served

def Waiting (st : State ι (V2KPool α σ) (OpWithData α) α Unit) (i : ι) : Prop :=
  ∃ ticket next, st.clients i = .awaiting ticket next

/-- Nobody takes another goroutine's reply. -/
structure RepliesMatched (p : V2KPool α σ) (st : State ι (V2KPool α σ) (OpWithData α) α Unit) :
    Prop where
  /-- At most one goroutine is blocked on `res`. -/
  one_waiting : ∀ i j, Waiting st i → Waiting st j → i = j
  /-- Whoever is blocked sent the request its ticket counts to. -/
  sender : ∀ i ticket next, st.clients i = .awaiting ticket next →
    ∃ od, st.received[ticket]? = some (i, od)
  /-- A reply answers the request of the goroutine that got it, on the pool as the requests
  received before that one left it. -/
  own_reply : ∀ d ∈ st.delivered, ∃ od q, st.received[d.ticket]? = some (d.client, od) ∧
    (replay V2KPool.protocol p (st.received.take d.ticket)).state = some q ∧ Answers q od d.reply
  /-- The replies are those of executing every request in the order `bgLoop` received it;
  the last may still be on its way. -/
  sequential : ∃ inFlight, (replay V2KPool.protocol p st.received).answers =
    st.delivered ++ inFlight ∧ inFlight.length ≤ 1

theorem pool_replies_matched (p : V2KPool α σ) (goroutines : ι → Goroutine α)
    (st : State ι (V2KPool α σ) (OpWithData α) α Unit) (reach : PoolReachable p goroutines st) :
    RepliesMatched p st := by
  have inv := pending_reachable V2KPool.protocol reach
  have sequential := delivered_sequential inv
  refine ⟨?_, ?_, ?_, sequential⟩
  · rintro i j ⟨m, next, first⟩ ⟨n, next', second⟩
    exact awaiting_unique inv first second
  · intro i ticket next blocked
    exact awaiting_sender inv blocked
  · intro d member
    -- what was delivered is among the answers of the sequential run
    obtain ⟨inFlight, answers, _⟩ := sequential
    have answered : d ∈ (replay V2KPool.protocol p st.received).answers := by
      rw [answers]
      exact List.mem_append_left _ member
    obtain ⟨od, q, q', own, state, served⟩ :=
      replay_answer V2KPool.protocol p st.received d answered
    exact ⟨od, q, own, state, answers_of_reply served⟩

/-! ### A run of two goroutines -/

/-- An `interface{}` that holds an integer or nothing. -/
instance : GoValue (Option Int) where
  nil := none
  hashable _ := true
  isError _ := false

def countingPool : V2KPool (Option Int) Int :=
  .new (fun _ next => (.ok (some next), next + 1)) true 7

def storeAndLookup (first : Bool) : Goroutine (Option Int) :=
  if first then .V2K (some 5) fun _ => .finished else .GetVal (some 7) fun _ => .finished

theorem pool_replies_matched_storeAndLookup :
    ∃ st, PoolReachable countingPool storeAndLookup st ∧
      st.delivered = [⟨0, true, some 7⟩, ⟨1, false, some 5⟩] ∧ RepliesMatched countingPool st := by
  have start : PoolReachable countingPool storeAndLookup (.init _ countingPool) := .refl
  have stored := start.tail (.send (i := true) rfl rfl)
  have drawn := stored.tail (.execute rfl)
  have replied := drawn.tail (.deliver (i := true) rfl rfl)
  have asked := replied.tail (.send (i := false) rfl rfl)
  have found := asked.tail (.execute rfl)
  have answered := found.tail (.deliver (i := false) rfl rfl)
  exact ⟨_, answered, rfl, pool_replies_matched _ _ _ answered⟩

end DukBridge
