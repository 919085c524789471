import Mathlib.Algebra.Order.Ring.Int
import Mathlib.Data.List.Basic
import Mathlib.Algebra.BigOperators.Group.List.Basic

/-!
# Items of different widths packed into one array

A writer lays items out one after the other; item `i` takes the cells `items[i]`.
A reader keeps an index of its own and advances it by a width it derives from a tag.
Both are at the same place exactly as long as the tags give the true widths.
-/
namespace SlotWalk

variable {W T : Type}

/-- Where item `i` starts. -/
def offset (items : List (List W)) (i : Nat) : Nat := ((items.take i).map List.length).sum

/-- Where a reader stands that has seen `i` tags. -/
def walk (width : T → Nat) (tags : List T) (i : Nat) : Nat := ((tags.take i).map width).sum

theorem offset_succ {items : List (List W)} {i : Nat} {cells : List W}
    (item : items[i]? = some cells) : offset items (i + 1) = offset items i + cells.length := by
  rw [offset, List.take_add_one, item, List.map_append, List.sum_append]
  simp [offset]

theorem walk_succ (width : T → Nat) {tags : List T} {i : Nat} {tag : T} (here : tags[i]? = some tag) :
    walk width tags (i + 1) = walk width tags i + width tag := by
  rw [walk, List.take_add_one, here, List.map_append, List.sum_append]
  simp [walk]

theorem offset_cons_succ (item : List W) (items : List (List W)) (i : Nat) :
    offset (item :: items) (i + 1) = item.length + offset items i := by
  simp [offset]

/-- Cell `k` of item `i` is found `k` places after the item's start, whatever follows. -/
theorem packed_get {items : List (List W)} {i : Nat} {cells : List W}
    (item : items[i]? = some cells) (after : List W) {k : Nat} (inside : k < cells.length) :
    (items.flatten ++ after)[offset items i + k]? = cells[k]? := by
  induction items generalizing i with
  | nil => simp at item
  | cons first rest ih =>
    cases i with
    | zero =>
      cases item
      rw [List.flatten_cons, List.append_assoc]
      simp [offset, List.getElem?_append_left, inside]
    | succ i =>
      rw [offset_cons_succ, List.flatten_cons, List.append_assoc, Nat.add_assoc,
        List.getElem?_append_right (Nat.le_add_right _ _), Nat.add_sub_cancel_left]
      exact ih (by simpa using item)

/-- Items of a bounded width fit into an array of that many cells each. -/
theorem length_flatten_le {items : List (List W)} {width : Nat}
    (bounded : ∀ item ∈ items, item.length ≤ width) :
    items.flatten.length ≤ items.length * width := by
  induction items with
  | nil => simp
  | cons item items ih =>
    have first := bounded item List.mem_cons_self
    have rest := ih fun other member => bounded other (List.mem_cons_of_mem _ member)
    rw [List.flatten_cons, List.length_append, List.length_cons, Nat.succ_mul]
    omega

theorem offset_eq (items : List (List W)) (i : Nat) :
    offset items i = (items.take i).flatten.length := by
  rw [offset, List.length_flatten]

/-- As long as the tags so far give the widths of their items, the reader is where the writer was. -/
theorem walk_eq_offset (width : T → Nat) {tags : List T} {items : List (List W)} {i : Nat}
    (tagged : i ≤ tags.length) (within : i ≤ items.length)
    (widths : ∀ (k : Nat) (tag : T) (cells : List W), k < i → tags[k]? = some tag →
      items[k]? = some cells → width tag = cells.length) : walk width tags i = offset items i := by
  -- from the left, item by item
  induction i with
  | zero => simp [walk, offset]
  | succ i ih =>
    have here := List.getElem?_eq_getElem (l := tags) (i := i) (by omega)
    have item := List.getElem?_eq_getElem (l := items) (i := i) (by omega)
    have before := ih (by omega) (by omega) fun k tag cells below => widths k tag cells (by omega)
    rw [walk_succ width here, offset_succ item, before, widths i _ _ (by omega) here item]

/-- The reader is where the writer was, at every item and after it, exactly when every tag gives
the width of its item. -/
theorem lockstep_iff (width : T → Nat) (tags : List T) (items : List (List W))
    (same : tags.length = items.length) :
    (∀ i, i < items.length → walk width tags i = offset items i ∧
      walk width tags (i + 1) = offset items (i + 1)) ↔
    ∀ (i : Nat) (tag : T) (cells : List W), tags[i]? = some tag → items[i]? = some cells →
      width tag = cells.length := by
  constructor
  · -- both indices moved by the same amount over item `i`
    intro lockstep i tag cells here item
    obtain ⟨within, _⟩ := List.getElem?_eq_some_iff.mp item
    obtain ⟨before, after⟩ := lockstep i within
    rw [walk_succ width here, offset_succ item, before] at after
    omega
  · intro widths
    have aligned : ∀ i, i ≤ items.length → walk width tags i = offset items i := fun i within =>
      walk_eq_offset width (by omega) within fun k tag cells _ => widths k tag cells
    intro i within
    exact ⟨aligned i (by omega), aligned (i + 1) (by omega)⟩

end SlotWalk
