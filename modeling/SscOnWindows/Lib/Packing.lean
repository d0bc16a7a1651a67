import Mathlib.Algebra.BigOperators.Group.List.Basic
import Mathlib.Algebra.Ring.Nat

/-!
# Packing in order

Items that have a size are put into bins in their order: an item goes to the bin that is being
filled, and begins the next bin when it would make that one exceed the capacity.  The bins put
one behind the other are the items again, and no bin exceeds the capacity when no item does.
-/

namespace Packing

variable {α : Type*} {size : α → ℕ} {capacity : ℕ} {bin xs : List α}

/-- The size of a bin. -/
def total (size : α → ℕ) (bin : List α) : ℕ :=
  (bin.map size).sum

/-- The bins of the items, the first of which has been filled with `bin`. -/
def packFrom (size : α → ℕ) (capacity : ℕ) (bin : List α) : List α → List (List α)
  | [] => [bin]
  | x :: xs =>
      if total size bin + size x > capacity then bin :: packFrom size capacity [x] xs
      else packFrom size capacity (bin ++ [x]) xs

/-- The bins of the items. -/
def pack (size : α → ℕ) (capacity : ℕ) : List α → List (List α)
  | [] => []
  | x :: xs => packFrom size capacity [x] xs

@[simp]
theorem total_singleton (x : α) :
  total size [x] = size x
  := List.sum_singleton

@[simp]
theorem total_append (bin more : List α) :
  total size (bin ++ more) = total size bin + total size more
  := by rw [total, List.map_append, List.sum_append, total, total]

/-- A part of the items is no larger than all of them. -/
theorem total_le_of_sublist (size : α → ℕ) {bin more : List α} (h : List.Sublist bin more) :
  total size bin ≤ total size more
  := by
  induction h with
  | slnil => apply Nat.le_refl
  | cons x _ ih => apply Nat.le_trans ih (Nat.le_add_left _ _)
  | cons_cons x _ ih => apply Nat.add_le_add_left ih

theorem packFrom_of_full {x : α} (h : total size bin + size x > capacity) :
  packFrom size capacity bin (x :: xs) = bin :: packFrom size capacity [x] xs
  := if_pos h

theorem packFrom_of_room {x : α} (h : ¬ total size bin + size x > capacity) :
  packFrom size capacity bin (x :: xs) = packFrom size capacity (bin ++ [x]) xs
  := if_neg h

/-- Nothing is lost, split or moved. -/
theorem flatten_packFrom (bin xs : List α) :
  (packFrom size capacity bin xs).flatten = bin ++ xs
  := by
  induction xs generalizing bin with
  | nil => rw [packFrom, List.flatten_singleton, List.append_nil]
  | cons x xs ih =>
      rw [packFrom]
      split
      · rw [List.flatten_cons, ih, List.singleton_append]
      · rw [ih, List.append_assoc, List.singleton_append]

theorem flatten_pack (xs : List α) :
  (pack size capacity xs).flatten = xs
  := by
  cases xs with
  | nil => rfl
  | cons x xs => apply flatten_packFrom

/-- The first bin begins with what it has been filled with. -/
theorem exists_mem_packFrom (size : α → ℕ) (capacity : ℕ) (bin xs : List α) :
  ∃ b ∈ packFrom size capacity bin xs, bin <+: b
  := by
  induction xs generalizing bin with
  | nil => exact ⟨bin, List.mem_singleton_self bin, List.prefix_refl bin⟩
  | cons x xs ih =>
      rw [packFrom]
      split
      · exact ⟨bin, List.mem_cons_self, List.prefix_refl bin⟩
      · obtain ⟨b, hmem, hprefix⟩ := ih (bin ++ [x])
        use b, hmem
        apply (List.prefix_append bin [x]).trans hprefix

/-- No bin exceeds the capacity. -/
theorem total_le_of_mem_packFrom (hbin : total size bin ≤ capacity)
    (hxs : ∀ x ∈ xs, size x ≤ capacity) :
  ∀ b ∈ packFrom size capacity bin xs, total size b ≤ capacity
  := by
  induction xs generalizing bin with
  | nil =>
      intro b hb
      rw [List.mem_singleton.mp hb]
      apply hbin
  | cons x xs ih =>
      obtain ⟨hx, hrest⟩ := List.forall_mem_cons.mp hxs
      by_cases hfull : total size bin + size x > capacity
      · rw [packFrom_of_full hfull]
        rw [List.forall_mem_cons]
        constructor
        · apply hbin
        · apply ih _ hrest
          rw [total_singleton]
          apply hx
      · rw [packFrom_of_room hfull]
        apply ih _ hrest
        rw [total_append, total_singleton]
        apply Nat.le_of_not_lt hfull

theorem total_le_of_mem_pack (hxs : ∀ x ∈ xs, size x ≤ capacity) :
  ∀ b ∈ pack size capacity xs, total size b ≤ capacity
  := by
  cases xs with
  | nil => nofun
  | cons x xs =>
      obtain ⟨hx, hrest⟩ := List.forall_mem_cons.mp hxs
      apply total_le_of_mem_packFrom _ hrest
      rw [total_singleton]
      apply hx

end Packing
