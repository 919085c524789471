import Mathlib.Data.List.Induction
import Mathlib.Logic.Relation
import Mathlib.Logic.Function.Basic

/-!
# One server behind one request channel and one untagged reply channel

Any number of clients hand operations to a single server by rendezvous and take
replies from a channel they all share. Nothing on the reply channel says whom a
reply is for. What keeps replies apart is that the server answers before it
receives again, so at most one client can be blocked on the reply channel.
-/
namespace Rendezvous

/-- What the server does with one operation. -/
inductive Served (S R : Type) where
  | reply (r : R) (s : S)
  | silent (s : S)
  | halted

/-- The server answers exactly when the sender blocks for an answer. -/
def Served.Matches {S R : Type} (awaited : Bool) : Served S R → Prop
  | .reply _ _ => awaited = true
  | .silent _ => awaited = false
  | .halted => True

structure Protocol (S Op R : Type) where
  /-- The sender of this operation blocks on the reply channel. -/
  awaits : Op → Bool
  serve : S → Op → Served S R
  matched : ∀ s op, (serve s op).Matches (awaits op)

/-- A client program: operations to send, continued by the reply when there is one. -/
inductive Prog (Op R α : Type) where
  | pure (a : α)
  | call (op : Op) (next : Option R → Prog Op R α)

namespace Prog

variable {Op R α β : Type}

def bind : Prog Op R α → (α → Prog Op R β) → Prog Op R β
  | .pure a, f => f a
  | .call op next, f => .call op fun r => (next r).bind f

instance : Monad (Prog Op R) where
  pure := Prog.pure
  bind := Prog.bind

/-- Send one operation; the result is the reply, if the operation has one. -/
def send (op : Op) : Prog Op R (Option R) := .call op .pure

end Prog

variable {ι S Op R α : Type}

inductive Client (Op R α : Type) where
  | running (p : Prog Op R α)
  /-- Blocked on the reply channel; `ticket` counts the operations received before this one. -/
  | awaiting (ticket : Nat) (next : Option R → Prog Op R α)

inductive Control (S Op R : Type) where
  | receiving (s : S)
  | serving (op : Op) (s : S)
  | replying (r : R) (s : S)
  | halted

/-- One reply taken from the channel: by whom, and for which of the received operations. -/
structure Delivery (ι R : Type) where
  ticket : Nat
  client : ι
  reply : R
deriving DecidableEq

structure State (ι S Op R α : Type) where
  clients : ι → Client Op R α
  control : Control S Op R
  received : List (ι × Op)
  delivered : List (Delivery ι R)

def State.init (programs : ι → Prog Op R α) (s : S) : State ι S Op R α where
  clients i := .running (programs i)
  control := .receiving s
  received := []
  delivered := []

variable [DecidableEq ι]

/-- After the hand-over the sender of an awaited operation turns to the reply channel. -/
def afterSend (P : Protocol S Op R) (ticket : Nat) (op : Op) (next : Option R → Prog Op R α) :
    Client Op R α :=
  if P.awaits op then .awaiting ticket next else .running (next none)

def afterServe : Served S R → Control S Op R
  | .reply r s => .replying r s
  | .silent s => .receiving s
  | .halted => .halted

inductive Step (P : Protocol S Op R) : State ι S Op R α → State ι S Op R α → Prop where
  | send {st i op next s} (ready : st.clients i = .running (.call op next))
      (idle : st.control = .receiving s) :
      Step P st
        { st with
          clients := Function.update st.clients i (afterSend P st.received.length op next)
          control := .serving op s
          received := st.received ++ [(i, op)] }
  | execute {st op s} (busy : st.control = .serving op s) :
      Step P st { st with control := afterServe (P.serve s op) }
  -- any blocked client may take the reply: the channel does not tell them apart
  | deliver {st i ticket next r s} (blocked : st.clients i = .awaiting ticket next)
      (ready : st.control = .replying r s) :
      Step P st
        { st with
          clients := Function.update st.clients i (.running (next (some r)))
          control := .receiving s
          delivered := st.delivered ++ [⟨ticket, i, r⟩] }

abbrev Reachable (P : Protocol S Op R) (programs : ι → Prog Op R α) (s : S) :
    State ι S Op R α → Prop :=
  Relation.ReflTransGen (Step P) (State.init programs s)

/-! ### Sequential execution -/

/-- All operations, one at a time: the replies with their tickets, and the state they leave. -/
structure Replay (ι S R : Type) where
  count : Nat
  answers : List (Delivery ι R)
  state : Option S

def Replay.advance (P : Protocol S Op R) (now : Replay ι S R) (request : ι × Op) :
    Replay ι S R :=
  match now.state with
  | none => { now with count := now.count + 1 }
  | some s =>
    match P.serve s request.2 with
    | .reply r s' =>
      ⟨now.count + 1, now.answers ++ [⟨now.count, request.1, r⟩], some s'⟩
    | .silent s' => ⟨now.count + 1, now.answers, some s'⟩
    | .halted => ⟨now.count + 1, now.answers, none⟩

def replay (P : Protocol S Op R) (s : S) (requests : List (ι × Op)) : Replay ι S R :=
  requests.foldl (Replay.advance P) ⟨0, [], some s⟩

omit [DecidableEq ι] in
theorem replay_snoc (P : Protocol S Op R) (s : S) (requests : List (ι × Op)) (last : ι × Op) :
    replay P s (requests ++ [last]) = (replay P s requests).advance P last := by
  simp [replay]

omit [DecidableEq ι] in
theorem advance_count (P : Protocol S Op R) (now : Replay ι S R) (request : ι × Op) :
    (now.advance P request).count = now.count + 1 := by
  unfold Replay.advance
  split
  · rfl
  · split <;> rfl

omit [DecidableEq ι] in
theorem replay_count (P : Protocol S Op R) (s : S) (requests : List (ι × Op)) :
    (replay P s requests).count = requests.length := by
  -- a left fold, so the last request is the one to take off
  induction requests using List.reverseRecOn with
  | nil => rfl
  | append_singleton rest last ih =>
    rw [replay_snoc, advance_count, ih, List.length_append, List.length_singleton]

/-- One program alone against the server, while nobody else sends. -/
def runAlone (P : Protocol S Op R) : S → Prog Op R α → Option (α × S)
  | s, .pure a => some (a, s)
  | s, .call op next =>
    match P.serve s op with
    | .reply r s' => runAlone P s' (next (some r))
    | .silent s' => runAlone P s' (next none)
    | .halted => none

/-! ### The invariant of the joint control states -/

/-- No client is blocked, except possibly `i` with this ticket. -/
def OnlyAwaits (clients : ι → Client Op R α) (i : ι) (ticket : Nat) : Prop :=
  ∀ j n next, clients j = .awaiting n next → j = i ∧ n = ticket

def NoneAwaits (clients : ι → Client Op R α) : Prop :=
  ∀ j n next, clients j ≠ .awaiting n next

/-- The pending operation is the last one received; its sender alone may be blocked. -/
inductive Pending (P : Protocol S Op R) (s₀ : S) : State ι S Op R α → Prop where
  | receiving {st s} (control : st.control = .receiving s)
      (free : NoneAwaits st.clients)
      (executed : (replay P s₀ st.received).state = some s)
      (replies : (replay P s₀ st.received).answers = st.delivered) : Pending P s₀ st
  | serving {st s i op past} (control : st.control = .serving op s)
      (log : st.received = past ++ [(i, op)])
      (only : OnlyAwaits st.clients i past.length)
      (posted : P.awaits op = false → NoneAwaits st.clients)
      (executed : (replay P s₀ past).state = some s)
      (replies : (replay P s₀ past).answers = st.delivered) : Pending P s₀ st
  | replying {st s r i op past} (control : st.control = .replying r s)
      (log : st.received = past ++ [(i, op)])
      (only : OnlyAwaits st.clients i past.length)
      (executed : (replay P s₀ st.received).state = some s)
      (replies : (replay P s₀ st.received).answers =
        st.delivered ++ [⟨past.length, i, r⟩]) : Pending P s₀ st
  | halted {st i op past} (control : st.control = .halted)
      (log : st.received = past ++ [(i, op)])
      (only : OnlyAwaits st.clients i past.length)
      (executed : (replay P s₀ st.received).state = none)
      (replies : (replay P s₀ st.received).answers = st.delivered) : Pending P s₀ st

omit [DecidableEq ι] in
theorem pending_init (P : Protocol S Op R) (programs : ι → Prog Op R α) (s : S) :
    Pending P s (State.init programs s) := by
  refine .receiving rfl ?_ rfl rfl
  intro j n next blocked
  simp [State.init] at blocked

theorem onlyAwaits_update {clients : ι → Client Op R α} (free : NoneAwaits clients) (i : ι)
    (P : Protocol S Op R) (ticket : Nat) (op : Op) (next : Option R → Prog Op R α) :
    OnlyAwaits (Function.update clients i (afterSend P ticket op next)) i ticket := by
  intro j n next' blocked
  by_cases same : j = i
  · subst same
    rw [Function.update_self] at blocked
    unfold afterSend at blocked
    split at blocked
    · cases blocked
      exact ⟨rfl, rfl⟩
    · cases blocked
  · rw [Function.update_of_ne same] at blocked
    exact absurd blocked (free j n next')

theorem noneAwaits_update_running {clients : ι → Client Op R α} (i : ι) (p : Prog Op R α)
    (others : ∀ j n next, clients j = .awaiting n next → j = i) :
    NoneAwaits (Function.update clients i (.running p)) := by
  intro j n next blocked
  by_cases same : j = i
  · subst same
    rw [Function.update_self] at blocked
    cases blocked
  · rw [Function.update_of_ne same] at blocked
    exact same (others j n next blocked)

/-- One step of any client or of the server keeps the invariant. -/
theorem pending_step (P : Protocol S Op R) (s₀ : S) {st st' : State ι S Op R α}
    (step : Step P st st') (inv : Pending P s₀ st) : Pending P s₀ st' := by
  cases step with
  | send ready idle =>
    rename_i i op next s
    cases inv with
    | receiving control free executed replies =>
      rw [idle] at control
      cases control
      -- nobody was blocked, so the sender is the only one who can be now
      refine .serving rfl rfl (onlyAwaits_update free i P _ op next) ?_ executed replies
      intro posted
      simp only [afterSend, posted, Bool.false_eq_true, if_false]
      exact noneAwaits_update_running i _ fun j n k blocked => absurd blocked (free j n k)
    | serving control => rw [idle] at control; cases control
    | replying control => rw [idle] at control; cases control
    | halted control => rw [idle] at control; cases control
  | execute busy =>
    rename_i op s
    cases inv with
    | serving control log only posted executed replies =>
      rename_i i op' past
      rw [busy] at control
      cases control
      have matched := P.matched s op
      -- the operation joins those that have been executed
      have next : replay P s₀ st.received = (replay P s₀ past).advance P (i, op) := by
        rw [log, replay_snoc]
      have count : (replay P s₀ past).count = past.length := replay_count P s₀ past
      simp only [Replay.advance, executed] at next
      cases outcome : P.serve s op with
      | reply r s' =>
        simp only [outcome] at next
        refine .replying rfl log only ?_ ?_
        · simp only [next]
        · simp only [next, replies, count]
      | silent s' =>
        -- the server owes no answer, so its sender waits for none
        rw [outcome] at matched
        simp only [outcome] at next
        refine .receiving rfl (posted matched) ?_ ?_
        · simp only [next]
        · simp only [next, replies]
      | halted =>
        simp only [outcome] at next
        refine .halted rfl log only ?_ ?_
        · simp only [next]
        · simp only [next, replies]
    | receiving control => rw [busy] at control; cases control
    | replying control => rw [busy] at control; cases control
    | halted control => rw [busy] at control; cases control
  | deliver blocked ready =>
    rename_i i ticket next r s
    cases inv with
    | replying control log only executed replies =>
      rename_i j op past
      rw [ready] at control
      cases control
      -- whoever takes the reply, it is the one client that is blocked
      obtain ⟨rfl, rfl⟩ := only i ticket next blocked
      refine .receiving rfl ?_ executed replies
      exact noneAwaits_update_running i _ fun k n p waits => (only k n p waits).1
    | receiving control => rw [ready] at control; cases control
    | serving control => rw [ready] at control; cases control
    | halted control => rw [ready] at control; cases control

theorem pending_reachable (P : Protocol S Op R) {programs : ι → Prog Op R α} {s₀ : S}
    {st : State ι S Op R α} (reach : Reachable P programs s₀ st) : Pending P s₀ st := by
  -- over the interleaving, whatever the programs are
  induction reach with
  | refl => exact pending_init P programs s₀
  | tail _ step ih => exact pending_step P s₀ step ih

/-! ### What the invariant says to a client -/

omit [DecidableEq ι] in
theorem awaiting_unique {P : Protocol S Op R} {s₀ : S} {st : State ι S Op R α}
    (inv : Pending P s₀ st) {i j : ι} {m n : Nat} {p q : Option R → Prog Op R α}
    (first : st.clients i = .awaiting m p) (second : st.clients j = .awaiting n q) : i = j := by
  cases inv with
  | receiving _ free => exact absurd first (free i m p)
  | serving _ _ only => exact (only i m p first).1.trans (only j n q second).1.symm
  | replying _ _ only => exact (only i m p first).1.trans (only j n q second).1.symm
  | halted _ _ only => exact (only i m p first).1.trans (only j n q second).1.symm

omit [DecidableEq ι] in
/-- The blocked client is the sender of the operation its ticket counts to. -/
theorem awaiting_sender {P : Protocol S Op R} {s₀ : S} {st : State ι S Op R α}
    (inv : Pending P s₀ st) {i : ι} {ticket : Nat} {next : Option R → Prog Op R α}
    (blocked : st.clients i = .awaiting ticket next) :
    ∃ op, st.received[ticket]? = some (i, op) := by
  have sender : ∀ {j op} {past : List (ι × Op)}, st.received = past ++ [(j, op)] →
      OnlyAwaits st.clients j past.length → ∃ op, st.received[ticket]? = some (i, op) := by
    intro j op past log only
    obtain ⟨rfl, rfl⟩ := only i ticket next blocked
    exact ⟨op, by simp [log]⟩
  cases inv with
  | receiving _ free => exact absurd blocked (free i ticket next)
  | serving _ log only => exact sender log only
  | replying _ log only => exact sender log only
  | halted _ log only => exact sender log only

omit [DecidableEq ι] in
/-- Every answer of a sequential execution is what the server said to that operation. -/
theorem replay_answer (P : Protocol S Op R) (s₀ : S) (requests : List (ι × Op))
    (d : Delivery ι R) (member : d ∈ (replay P s₀ requests).answers) :
    ∃ op s s', requests[d.ticket]? = some (d.client, op) ∧
      (replay P s₀ (requests.take d.ticket)).state = some s ∧
      P.serve s op = .reply d.reply s' := by
  induction requests using List.reverseRecOn with
  | nil => simp [replay] at member
  | append_singleton rest last ih =>
    -- an answer that was there before keeps its request and the state it was given in
    have earlier : d ∈ (replay P s₀ rest).answers →
        ∃ op s s', (rest ++ [last])[d.ticket]? = some (d.client, op) ∧
          (replay P s₀ ((rest ++ [last]).take d.ticket)).state = some s ∧
          P.serve s op = .reply d.reply s' := by
      intro old
      obtain ⟨op, s, s', at_ticket, state, served⟩ := ih old
      have within : d.ticket < rest.length := (List.getElem?_eq_some_iff.mp at_ticket).1
      refine ⟨op, s, s', ?_, ?_, served⟩
      · rw [List.getElem?_append_left within, at_ticket]
      · rwa [List.take_append_of_le_length (Nat.le_of_lt within)]
    rw [replay_snoc] at member
    unfold Replay.advance at member
    split at member
    · exact earlier member
    · next s state =>
      split at member
      · next r s' served =>
        rcases List.mem_append.mp member with old | new
        · exact earlier old
        · have new := List.mem_singleton.mp new
          subst new
          have count : (replay P s₀ rest).count = rest.length := replay_count P s₀ rest
          exact ⟨last.2, s, s', by simp [count], by simp [count, state], served⟩
      · exact earlier member
      · exact earlier member

omit [DecidableEq ι] in
theorem advance_answers (P : Protocol S Op R) (now : Replay ι S R) (request : ι × Op) :
    ∃ more, (now.advance P request).answers = now.answers ++ more ∧ more.length ≤ 1 := by
  unfold Replay.advance
  split
  · exact ⟨[], by simp, by simp⟩
  · split
    · exact ⟨_, rfl, by simp⟩
    · exact ⟨[], by simp, by simp⟩
    · exact ⟨[], by simp, by simp⟩

omit [DecidableEq ι] in
/-- The replies handed out are the sequential ones, in the order of receipt; at most the last
one is still on its way. -/
theorem delivered_sequential {P : Protocol S Op R} {s₀ : S} {st : State ι S Op R α}
    (inv : Pending P s₀ st) :
    ∃ inFlight, (replay P s₀ st.received).answers = st.delivered ++ inFlight ∧
      inFlight.length ≤ 1 := by
  cases inv with
  | receiving _ _ _ replies => exact ⟨[], by simp only [replies, List.append_nil], by simp⟩
  | serving _ log _ _ _ replies =>
    rw [log, replay_snoc, ← replies]
    exact advance_answers P _ _
  | replying _ _ _ _ replies => exact ⟨_, replies, by simp⟩
  | halted _ _ _ _ replies => exact ⟨[], by simp only [replies, List.append_nil], by simp⟩

/-! ### Invariants of the server's own state -/

def Control.state : Control S Op R → Option S
  | .receiving s => some s
  | .serving _ s => some s
  | .replying _ s => some s
  | .halted => none

/-- Runs in which every operation the server executes meets `ok`. -/
abbrev ReachableWhere (P : Protocol S Op R) (ok : S → Op → Prop) (programs : ι → Prog Op R α)
    (s : S) : State ι S Op R α → Prop :=
  Relation.ReflTransGen
    (fun st st' => Step P st st' ∧ ∀ op s, st.control = .serving op s → ok s op)
    (State.init programs s)

def Served.Keeps (I : S → Prop) : Served S R → Prop
  | .reply _ s => I s
  | .silent s => I s
  | .halted => True

/-- What every executed operation preserves holds of the server in every reachable state. -/
theorem server_invariant {P : Protocol S Op R} {ok : S → Op → Prop} {I : S → Prop}
    (preserved : ∀ s op, I s → ok s op → (P.serve s op).Keeps I)
    {programs : ι → Prog Op R α} {s₀ : S} (start : I s₀) {st : State ι S Op R α}
    (reach : ReachableWhere P ok programs s₀ st) :
    ∀ s, st.control.state = some s → I s := by
  induction reach with
  | refl =>
    intro s here
    cases here
    exact start
  | tail _ step ih =>
    obtain ⟨step, good⟩ := step
    intro s here
    cases step with
    | send ready idle =>
      cases here
      exact ih _ (by simp [idle, Control.state])
    | execute busy =>
      rename_i op before
      have kept := preserved before op (ih _ (by simp [busy, Control.state])) (good op before busy)
      simp only [afterServe] at here
      split at here <;> cases here
      · next served => simpa [served, Served.Keeps] using kept
      · next served => simpa [served, Served.Keeps] using kept
    | deliver blocked ready =>
      cases here
      exact ih _ (by simp [ready, Control.state])

/-! ### One program at a time -/

/-- `p` alone, from `s` to the result `a` and `s'`; whatever the server receives is admitted in
the state it is received in. -/
inductive RunsAlone (P : Protocol S Op R) (admits : S → Op → Prop) :
    S → Prog Op R α → α → S → Prop where
  | pure {s a} : RunsAlone P admits s (.pure a) a s
  | reply {s op next r t a s'} (admitted : admits s op) (served : P.serve s op = .reply r t)
      (rest : RunsAlone P admits t (next (some r)) a s') : RunsAlone P admits s (.call op next) a s'
  | silent {s op next t a s'} (admitted : admits s op) (served : P.serve s op = .silent t)
      (rest : RunsAlone P admits t (next none) a s') : RunsAlone P admits s (.call op next) a s'

variable {β : Type} {P : Protocol S Op R} {admits : S → Op → Prop}

omit [DecidableEq ι] in
theorem runsAlone_pure {s s' : S} {a b : α} :
    RunsAlone P admits s (.pure a) b s' ↔ b = a ∧ s' = s := by
  constructor
  · intro run
    cases run
    exact ⟨rfl, rfl⟩
  · rintro ⟨rfl, rfl⟩
    exact .pure

omit [DecidableEq ι] in
theorem runsAlone_bind {s s' : S} {p : Prog Op R α} {f : α → Prog Op R β} {b : β} :
    RunsAlone P admits s (p.bind f) b s' ↔
      ∃ a t, RunsAlone P admits s p a t ∧ RunsAlone P admits t (f a) b s' := by
  -- over the program: the server's answers are the same on both sides
  induction p generalizing s with
  | pure a =>
    constructor
    · exact fun run => ⟨a, s, .pure, run⟩
    · rintro ⟨_, _, first, rest⟩
      obtain ⟨rfl, rfl⟩ := runsAlone_pure.mp first
      exact rest
  | call op next ih =>
    constructor
    · intro run
      cases run with
      | reply admitted served rest =>
        obtain ⟨a, t, first, last⟩ := (ih _).mp rest
        exact ⟨a, t, .reply admitted served first, last⟩
      | silent admitted served rest =>
        obtain ⟨a, t, first, last⟩ := (ih _).mp rest
        exact ⟨a, t, .silent admitted served first, last⟩
    · rintro ⟨a, t, first, last⟩
      cases first with
      | reply admitted served rest => exact .reply admitted served ((ih _).mpr ⟨a, t, rest, last⟩)
      | silent admitted served rest => exact .silent admitted served ((ih _).mpr ⟨a, t, rest, last⟩)

omit [DecidableEq ι] in
theorem RunsAlone.runAlone_eq {s s' : S} {p : Prog Op R α} {a : α}
    (run : RunsAlone P admits s p a s') : runAlone P s p = some (a, s') := by
  induction run with
  | pure => rfl
  | reply _ served _ ih => simp only [runAlone, served, ih]
  | silent _ served _ ih => simp only [runAlone, served, ih]

omit [DecidableEq ι] in
/-- Where everything is admitted, the run is the one that `runAlone` computes. -/
theorem runsAlone_of_runAlone {s s' : S} {p : Prog Op R α} {a : α}
    (all : ∀ s op, admits s op) (ran : runAlone P s p = some (a, s')) :
    RunsAlone P admits s p a s' := by
  induction p generalizing s with
  | pure b =>
    cases ran
    exact .pure
  | call op next ih =>
    simp only [runAlone] at ran
    split at ran
    · next r t served => exact .reply (all s op) served (ih _ ran)
    · next t served => exact .silent (all s op) served (ih _ ran)
    · cases ran

end Rendezvous
