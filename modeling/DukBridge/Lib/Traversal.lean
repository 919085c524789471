/-!
# Going through a list in a state that changes

Each element is worked on in the state the one before it has left, until one of them cannot be.
-/
namespace DukBridge

variable {σ α β ε : Type}

/-- All elements are worked on, with these results. -/
inductive Goes (Step : σ → α → β → σ → Prop) : σ → List α → List β → σ → Prop where
  | nil {s : σ} : Goes Step s [] [] s
  | cons {s t u : σ} {a : α} {b : β} {as : List α} {bs : List β} (first : Step s a b t)
      (rest : Goes Step t as bs u) : Goes Step s (a :: as) (b :: bs) u

/-- One of them is where it ends; those before it have been worked on. -/
inductive Stops (Step : σ → α → β → σ → Prop) (Stop : σ → α → ε → σ → Prop) :
    σ → List α → ε → σ → Prop where
  | here {s t : σ} {a : α} {e : ε} {as : List α} (first : Stop s a e t) :
      Stops Step Stop s (a :: as) e t
  | later {s t u : σ} {a : α} {b : β} {e : ε} {as : List α} (first : Step s a b t)
      (rest : Stops Step Stop t as e u) : Stops Step Stop s (a :: as) e u

variable {Step : σ → α → β → σ → Prop} {s t : σ} {as : List α} {bs : List β}

theorem Goes.length (goes : Goes Step s as bs t) : bs.length = as.length := by
  induction goes with
  | nil => rfl
  | cons first rest ih => rw [List.length_cons, List.length_cons, ih]

/-- What holds of each result holds of them all. -/
theorem Goes.results {P : β → Prop} (goes : Goes Step s as bs t)
    (each : ∀ {s a b t}, a ∈ as → Step s a b t → P b) : ∀ b ∈ bs, P b := by
  induction goes with
  | nil => exact nofun
  | cons first rest ih =>
    intro b mem
    rcases List.mem_cons.mp mem with rfl | mem
    · exact each (List.mem_cons_self ..) first
    · exact ih (fun among => each (List.mem_cons_of_mem _ among)) b mem

end DukBridge
