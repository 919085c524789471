import DukBridge.Lib.Rendezvous

/-!
# val2key.go

The pool maps values to keys and back. Its maps are touched by `bgLoop` alone;
every method is a rendezvous with that loop on the channels `od` and `res`.
-/
namespace DukBridge

/-- What the pool asks of the Go values it stores (`interface{}`). -/
class GoValue (α : Type) where
  nil : α
  /-- Indexing a map keyed by `interface{}` panics on any other dynamic type. -/
  hashable : α → Bool
  /-- The dynamic type implements `error`. -/
  isError : α → Bool

inductive PoolOp where
  | removeV
  | removeK
  | v2k
  | k2v
  | exit
deriving DecidableEq

structure OpWithData (α : Type) where
  op : PoolOp
  data : α
deriving DecidableEq

inductive GoPanic where
  | unhashable
  | typeAssertion
  | indexOutOfRange
deriving DecidableEq

variable {α σ β : Type} [DecidableEq α] [GoValue α]

/-! ### Go maps keyed by `interface{}` -/

abbrev GoMap (α : Type) := α → Option α

def GoMap.index (m : GoMap α) (key : α) : Except GoPanic (Option α) :=
  if GoValue.hashable key then .ok (m key) else .error .unhashable

def GoMap.assign (m : GoMap α) (key val : α) : Except GoPanic (GoMap α) :=
  if GoValue.hashable key then .ok (Function.update m key (some val)) else .error .unhashable

def GoMap.delete (m : GoMap α) (key : α) : Except GoPanic (GoMap α) :=
  if GoValue.hashable key then .ok (Function.update m key none) else .error .unhashable

/-- `gen` is whatever state the closure `val2key` captures. -/
structure V2KPool (α σ : Type) where
  val2key : α → σ → Except α α × σ
  k2v : GoMap α
  v2k : GoMap α
  valHashable : Bool
  gen : σ

namespace V2KPool

def new (val2key : α → σ → Except α α × σ) (valHashable : Bool) (gen : σ) : V2KPool α σ :=
  ⟨val2key, fun _ => none, fun _ => none, valHashable, gen⟩

/-- A fresh key, stored under both maps; the `else` branches of `val2Key`. -/
def drawKey (p : V2KPool α σ) (val : α) : Except GoPanic (α × V2KPool α σ) :=
  match p.val2key val p.gen with
  | (.ok k, gen) => do
    let k2v ← GoMap.assign p.k2v k val
    if p.valHashable then
      let v2k ← GoMap.assign p.v2k val k
      return (k, { p with k2v, v2k, gen })
    else
      return (k, { p with k2v, gen })
  | (.error err, gen) => return (err, { p with gen })

def val2Key (p : V2KPool α σ) (val : α) : Except GoPanic (α × V2KPool α σ) :=
  if p.valHashable then do
    match ← GoMap.index p.v2k val with
    | some k => return (k, p)
    | none => p.drawKey val
  else
    p.drawKey val

def getVal (p : V2KPool α σ) (key : α) : Except GoPanic α := do
  match ← GoMap.index p.k2v key with
  | some v => return v
  | none => return GoValue.nil

def removeKey (p : V2KPool α σ) (key : α) : Except GoPanic (V2KPool α σ) := do
  match ← GoMap.index p.k2v key with
  | some v =>
    let k2v ← GoMap.delete p.k2v key
    match ← GoMap.index p.v2k v with
    | some _ => return { p with k2v, v2k := ← GoMap.delete p.v2k v }
    | none => return { p with k2v }
  | none => return p

def removeVal (p : V2KPool α σ) (val : α) : Except GoPanic (V2KPool α σ) :=
  if p.valHashable then do
    match ← GoMap.index p.v2k val with
    | some k =>
      let v2k ← GoMap.delete p.v2k val
      match ← GoMap.index p.k2v k with
      | some _ => return { p with v2k, k2v := ← GoMap.delete p.k2v k }
      | none => return { p with v2k }
    | none => return p
  else
    return p

/-- One turn of `bgLoop`, from `od := <-p.od` to the send on `res`, if there is one.
A panic in the loop takes the process down; `exit` leaves the loop. -/
def bgLoop (p : V2KPool α σ) (od : OpWithData α) : Rendezvous.Served (V2KPool α σ) α :=
  match od.op with
  | .removeK =>
    match p.removeKey od.data with
    | .ok p' => .silent p'
    | .error _ => .halted
  | .removeV =>
    match p.removeVal od.data with
    | .ok p' => .silent p'
    | .error _ => .halted
  | .v2k =>
    match p.val2Key od.data with
    | .ok (k, p') => .reply k p'
    | .error _ => .halted
  | .k2v =>
    match p.getVal od.data with
    | .ok v => .reply v p
    | .error _ => .halted
  | .exit => .halted

/-- `V2K` and `GetVal` go on to `<-p.res`, the other methods return at once. -/
def awaits (od : OpWithData α) : Bool :=
  match od.op with
  | .v2k | .k2v => true
  | .removeK | .removeV | .exit => false

theorem bgLoop_matched (p : V2KPool α σ) (od : OpWithData α) :
    (p.bgLoop od).Matches (awaits od) := by
  obtain ⟨op, data⟩ := od
  cases op with
  | removeV | removeK | v2k | k2v =>
    simp only [bgLoop, awaits]
    split <;> simp [Rendezvous.Served.Matches]
  | exit => simp [bgLoop, Rendezvous.Served.Matches]

/-- The pool's goroutines as a rendezvous system: `bgLoop` serves, the methods send. -/
def protocol : Rendezvous.Protocol (V2KPool α σ) (OpWithData α) α where
  awaits := awaits
  serve := bgLoop
  matched := bgLoop_matched

end V2KPool

/-! ### The methods, as a goroutine runs them -/

abbrev PoolProg (α β : Type) := Rendezvous.Prog (OpWithData α) α β

namespace V2KPool

open Rendezvous

/-- `V2K`: an error value taken from `res` becomes the second result. -/
def V2K (val : α) : PoolProg α (Except α α) := do
  let res := (← Prog.send ⟨.v2k, val⟩).getD GoValue.nil
  return if GoValue.isError res then .error res else .ok res

def GetVal (key : α) : PoolProg α α := do
  return (← Prog.send ⟨.k2v, key⟩).getD GoValue.nil

def RemoveKey (key : α) : PoolProg α Unit := do
  let _ ← Prog.send ⟨.removeK, key⟩

def RemoveVal (val : α) : PoolProg α Unit := do
  let _ ← Prog.send ⟨.removeV, val⟩

def Quit : PoolProg α Unit := do
  let _ ← Prog.send ⟨.exit, GoValue.nil⟩

end V2KPool

end DukBridge
