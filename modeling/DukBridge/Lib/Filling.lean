import Mathlib.Data.List.Basic

/-!
# Filling a buffer from its beginning

Pieces are stored one behind the other, each where the one before it ends. Nothing is said of what
the buffer held before.
-/
namespace DukBridge

variable {α : Type}

/-- The buffer with `data` from position `p` on, if it does not end outside. -/
def storeAt (buf : List α) (p : Nat) (data : List α) : Option (List α) :=
  if p + data.length ≤ buf.length then
    some (buf.take p ++ data ++ buf.drop (p + data.length))
  else none

/-- A store behind what has been written, where there is still room for it. -/
theorem storeAt_written {out buf : List α} (written : out <+: buf) (data : List α)
    (fits : out.length + data.length ≤ buf.length) :
    ∃ buf', storeAt buf out.length data = some buf' ∧ buf'.length = buf.length ∧
      (out ++ data) <+: buf' := by
  obtain ⟨rest, rfl⟩ := written
  refine ⟨_, if_pos fits, ?_, ?_⟩
  · simp only [List.length_append, List.length_take, List.length_drop] at fits ⊢
    omega
  · rw [List.take_left]
    exact List.prefix_append _ _

end DukBridge
