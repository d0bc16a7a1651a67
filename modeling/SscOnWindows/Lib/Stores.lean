import Mathlib.Logic.Function.Basic
import Mathlib.Data.List.Basic

/-!
# Straight-line stores

A program that stores one value after the other in a memory `ι → α` and does not read what
it stores.  The memory behind it is the one before at the indices that are not written.
When all values are those of a function `f` of their indices, the order of the stores and
their repetitions do not matter: the memory is `f` where it is written.
-/

namespace Stores

variable {ι α β : Type*}

/-- One store. -/
structure Store (ι α : Type*) where
  index : ι
  value : α
  deriving DecidableEq, Repr

/-- The store of the image of the value. -/
def Store.map (f : α → β) (s : Store ι α) : Store ι β where
  index := s.index
  value := f s.value

/-- The indices that are written. -/
def written (stores : List (Store ι α)) : Set ι :=
  fun i => ∃ s ∈ stores, s.index = i

theorem written_map (f : α → β) (stores : List (Store ι α)) :
  written (stores.map (Store.map f)) = written stores
  := by
  funext i
  apply propext
  constructor
  · rintro ⟨_, hmem, hi⟩
    obtain ⟨s, hs, rfl⟩ := List.mem_map.mp hmem
    use s, hs, hi
  · rintro ⟨s, hs, hi⟩
    use s.map f, List.mem_map_of_mem hs, hi

variable [DecidableEq ι]

/-- The memory behind the stores. -/
def run (stores : List (Store ι α)) (memory : ι → α) : ι → α :=
  stores.foldl (fun memory s => Function.update memory s.index s.value) memory

@[simp] theorem run_cons (s : Store ι α) (stores : List (Store ι α)) (memory : ι → α) :
  run (s :: stores) memory = run stores (Function.update memory s.index s.value)
  := rfl

/-- What is not written stays. -/
theorem run_of_not_mem_written {stores : List (Store ι α)} {memory : ι → α} {i : ι}
    (h : i ∉ written stores) :
  run stores memory i = memory i
  := by
  induction stores generalizing memory with
  | nil => rfl
  | cons s stores ih =>
      rw [run_cons, ih]
      · rw [Function.update_of_ne]
        rintro rfl
        apply h
        use s, List.mem_cons_self
      · rintro ⟨s', hs', hi⟩
        apply h
        use s', List.mem_cons_of_mem _ hs', hi

/-- What is written holds the value of `f` when all values are those of `f`. -/
theorem run_of_mem_written {stores : List (Store ι α)} {memory f : ι → α} {i : ι}
    (hvalue : ∀ s ∈ stores, s.value = f s.index) (h : i ∈ written stores) :
  run stores memory i = f i
  := by
  induction stores generalizing memory with
  | nil =>
      obtain ⟨s, hs, -⟩ := h
      cases hs
  | cons s stores ih =>
      have hrest : ∀ s ∈ stores, s.value = f s.index := by
        intro s' hs'
        apply hvalue s' (List.mem_cons_of_mem _ hs')
      rw [run_cons]
      by_cases hi : i ∈ written stores
      · apply ih hrest hi
      · rw [run_of_not_mem_written hi]
        obtain ⟨s', hs', rfl⟩ := h
        obtain rfl | hs' := List.mem_cons.mp hs'
        · rw [Function.update_self]
          apply hvalue s' List.mem_cons_self
        · apply absurd _ hi
          use s', hs'

end Stores
