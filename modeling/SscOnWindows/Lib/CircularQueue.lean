import Mathlib.Data.List.Basic
import Mathlib.Data.Int.ModEq

/-!
# Circular queues

A circular queue of capacity `n` keeps its items in an array of `n` slots, with a write
position `head`, a read position `tail` and a counter of the items in it.  The three are
separate fields: `Represents q l` says that they agree and that `q` holds the items `l`,
the next one to be read first.

There are two ways to empty a queue.  `reset` moves both positions to the first slot;
`forget` sets the counter to zero and leaves the positions where they are, and so gives
a queue that represents the empty list only when the positions agree.
-/

/-- An array of slots with a write position, a read position and a counter. -/
structure CircularQueue (α : Type*) where
  slots : Nat → α
  head : Nat
  tail : Nat
  count : Int

namespace CircularQueue

variable {α : Type*} {n : Nat} {q q' : CircularQueue α} {l : List α} {x : α}

/-- A queue without items, whose slots hold `blank`. -/
def empty (blank : α) : CircularQueue α where
  slots _ := blank
  head := 0
  tail := 0
  count := 0

/-- The queue `q` with `x` in the slot at the write position. -/
def store (q : CircularQueue α) (x : α) : CircularQueue α :=
  { q with slots := fun i => if i = q.head then x else q.slots i }

/-- Write `x` and advance the write position, unless the queue of capacity `n` is full. -/
def push (n : Nat) (q : CircularQueue α) (x : α) : Option (CircularQueue α) :=
  if q.count ≥ n then none
  else some { q.store x with head := (q.head + 1) % n, count := q.count + 1 }

/-- Read an item and advance the read position, unless the queue is empty. -/
def pop (n : Nat) (q : CircularQueue α) : Option (α × CircularQueue α) :=
  if q.count > 0 then
    some (q.slots q.tail, { q with tail := (q.tail + 1) % n, count := q.count - 1 })
  else none

/-- Move both positions to the first slot of an empty queue. -/
def reset (q : CircularQueue α) : CircularQueue α :=
  { q with head := 0, tail := 0, count := 0 }

/-- Set the counter to zero and leave the positions where they are. -/
def forget (q : CircularQueue α) : CircularQueue α :=
  { q with count := 0 }

/-- The queue `q` of capacity `n` holds the items `l`, the first of them at the read
position. -/
structure Represents (n : Nat) (q : CircularQueue α) (l : List α) : Prop where
  capacity_pos : 0 < n
  count_eq : q.count = l.length
  length_le : l.length ≤ n
  tail_lt : q.tail < n
  head_eq : q.head = (q.tail + l.length) % n
  get_eq : ∀ (i : Nat) (h : i < l.length), q.slots ((q.tail + i) % n) = l.get ⟨i, h⟩

theorem represents_empty (hn : 0 < n) (blank : α) :
  Represents n (empty blank) []
  where
  capacity_pos := hn
  count_eq := rfl
  length_le := Nat.zero_le n
  tail_lt := hn
  head_eq := by simp [empty]
  get_eq _ h := absurd h (Nat.not_lt_zero _)

namespace Represents

theorem head_lt (h : Represents n q l) :
  q.head < n
  := by
  rw [h.head_eq]
  apply Nat.mod_lt _ h.capacity_pos

/-- The counter stays between zero and the capacity. -/
theorem count_bounds (h : Represents n q l) :
  0 ≤ q.count ∧ q.count ≤ n
  := by
  have hcount := h.count_eq
  have hlength := h.length_le
  omega

/-- The distance of the positions is the counter, up to the capacity. -/
theorem head_sub_tail (h : Represents n q l) :
  ((q.head : Int) - q.tail) % n = q.count % n
  := by
  have hhead : (q.head : Int) = (q.tail + l.length) % n := by
    rw [h.head_eq]
    simp
  rw [hhead, h.count_eq, Int.emod_sub_emod]
  congr 1
  omega

/-- Two slots of a represented queue are different when their offsets are. -/
theorem offset_ne {i j t : Nat} (hij : i < j) (hj : j < n) :
  (t + i) % n ≠ (t + j) % n
  := by
  intro heq
  have hdvd : n ∣ (t + j) - (t + i) := (Nat.modEq_iff_dvd' (by omega)).mp heq
  have hzero := Nat.eq_zero_of_dvd_of_lt hdvd (by omega)
  omega

/-- A full queue refuses an item, and no other one does. -/
theorem push_eq_none_iff (h : Represents n q l) :
  push n q x = none ↔ l.length = n
  := by
  have hcount := h.count_eq
  have hlength := h.length_le
  rw [push]
  split
  · simp only [true_iff]
    omega
  · simp only [reduceCtorEq, false_iff]
    omega

/-- An accepted item becomes the last one. -/
theorem push (h : Represents n q l) (hpush : CircularQueue.push n q x = some q') :
  Represents n q' (l ++ [x])
  := by
  have hlt : l.length < n := by
    have hne : ¬ l.length = n := by
      intro heq
      rw [h.push_eq_none_iff.mpr heq] at hpush
      contradiction
    have hle := h.length_le
    omega
  rw [CircularQueue.push] at hpush
  split at hpush
  · contradiction
  · obtain rfl := Option.some.inj hpush
    constructor
    · apply h.capacity_pos
    · simp [h.count_eq]
    · simp
      omega
    · apply h.tail_lt
    · simp [store, h.head_eq, Nat.add_assoc]
    · intro i hi
      simp only [store]
      rw [h.head_eq]
      rcases Nat.lt_or_ge i l.length with hil | hil
      · rw [if_neg (offset_ne hil hlt), h.get_eq i hil]
        simp [List.getElem_append_left hil]
      · have hi' : i = l.length := by
          simp at hi
          omega
        subst hi'
        simp

/-- An empty queue has nothing to read, and no other one. -/
theorem pop_eq_none_iff (h : Represents n q l) :
  pop n q = none ↔ l = []
  := by
  have hcount := h.count_eq
  rw [pop, ← List.length_eq_zero_iff]
  split
  · simp only [reduceCtorEq, false_iff]
    omega
  · simp only [true_iff]
    omega

/-- What is read is the first item. -/
theorem pop {p : α × CircularQueue α} (h : Represents n q l)
    (hpop : CircularQueue.pop n q = some p) :
  ∃ rest, l = p.1 :: rest ∧ Represents n p.2 rest
  := by
  cases l with
  | nil =>
      rw [h.pop_eq_none_iff.mpr rfl] at hpop
      contradiction
  | cons y rest =>
      rw [CircularQueue.pop] at hpop
      split at hpop
      · obtain rfl := Option.some.inj hpop
        have hfirst : q.slots q.tail = y := by
          have hget := h.get_eq 0 (by simp)
          rwa [Nat.add_zero, Nat.mod_eq_of_lt h.tail_lt] at hget
        use rest
        constructor
        · rw [hfirst]
        · constructor
          · apply h.capacity_pos
          · simp [h.count_eq]
          · have hle := h.length_le
            simp at hle
            omega
          · apply Nat.mod_lt _ h.capacity_pos
          · rw [h.head_eq]
            simp [Nat.add_assoc, Nat.add_comm 1]
          · intro i hi
            have hget := h.get_eq (i + 1) (by simpa using hi)
            simp only [List.get_eq_getElem, List.getElem_cons_succ] at hget
            simp only [List.get_eq_getElem]
            rw [← hget]
            congr 1
            simp [Nat.add_assoc, Nat.add_comm 1]
      · contradiction

theorem reset (h : Represents n q l) :
  Represents n q.reset []
  where
  capacity_pos := h.capacity_pos
  count_eq := rfl
  length_le := Nat.zero_le n
  tail_lt := h.capacity_pos
  head_eq := by simp [CircularQueue.reset]
  get_eq _ hi := absurd hi (Nat.not_lt_zero _)

/-- Setting the counter to zero empties the queue when the positions agree. -/
theorem forget (h : Represents n q l) (heq : q.head = q.tail) :
  Represents n q.forget []
  where
  capacity_pos := h.capacity_pos
  count_eq := rfl
  length_le := Nat.zero_le n
  tail_lt := h.tail_lt
  head_eq := by
    simp only [CircularQueue.forget, List.length_nil, Nat.add_zero]
    rw [heq, Nat.mod_eq_of_lt h.tail_lt]
  get_eq _ hi := absurd hi (Nat.not_lt_zero _)

/-- The positions agree when the queue is empty or full, and not otherwise. -/
theorem head_eq_tail_iff (h : Represents n q l) :
  q.head = q.tail ↔ l.length = 0 ∨ l.length = n
  := by
  have hhead := h.head_eq
  have htail := h.tail_lt
  have hlength := h.length_le
  rcases Nat.lt_or_ge (q.tail + l.length) n with hlt | hge
  · rw [Nat.mod_eq_of_lt hlt] at hhead
    omega
  · rw [Nat.mod_eq_sub_mod hge, Nat.mod_eq_of_lt (by omega)] at hhead
    omega

end Represents

/-- When the positions differ, setting the counter to zero makes them disagree with it. -/
theorem forget_head_sub_tail (hhead : q.head < n) (htail : q.tail < n) (hne : q.head ≠ q.tail) :
  ((q.forget.head : Int) - q.forget.tail) % n ≠ q.forget.count % n
  := by
  simp only [forget, Int.zero_emod]
  intro hzero
  have hdvd := Int.dvd_of_emod_eq_zero hzero
  have habs := Int.eq_zero_of_abs_lt_dvd hdvd (by rw [abs_lt]; omega)
  omega

end CircularQueue
