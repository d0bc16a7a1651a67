import Mathlib.Algebra.Order.Group.Nat
import Mathlib.Data.List.Induction
import Mathlib.Data.List.Infix
import SscOnWindows.Lib.Machine

/-!
# A counted reference

A program acquires a reference to a service, uses the service, and releases the reference, any
number of times.  Its events are in balance when it never releases more often than it has
acquired, uses the service only while it holds a reference, and holds none at the end.  The number
of references it holds is a machine on its events, which is stuck at an event out of balance.
-/

namespace RefCount

open Machine

/-- What the program does to the reference. -/
inductive Event where
  | acquire
  | release
  | use
  deriving DecidableEq, Repr

/-- The number of references acquired. -/
def acquires (events : List Event) : Nat := events.count .acquire

/-- The number of references released. -/
def releases (events : List Event) : Nat := events.count .release

/-- The events are in balance. -/
structure Balanced (events : List Event) : Prop where
  covered : ∀ done, done <+: events → releases done ≤ acquires done
  used : ∀ done, done ++ [Event.use] <+: events → releases done ≠ acquires done
  equal : releases events = acquires events

/-- The number of references held behind an event. -/
def next : Nat → Event → Option Nat
  | held, .acquire => some (held + 1)
  | 0, _ => none
  | held + 1, .release => some held
  | held + 1, .use => some (held + 1)

/-- The references held at the start and acquired are those released and still held. -/
theorem exec_count {held held' : Nat} {events : List Event}
    (h : exec next held events = some held') :
  held + acquires events = releases events + held'
  := by
  induction events generalizing held with
  | nil =>
      obtain rfl := Option.some.inj h
      rw [Nat.add_comm]
      rfl
  | cons event events ih =>
      obtain ⟨between, hstep, hrest⟩ := Option.bind_eq_some_iff.mp h
      have hcount := ih hrest
      rw [acquires, releases] at hcount ⊢
      rw [List.count_cons, List.count_cons]
      rcases held with - | held <;> rcases event <;> simp [next] at hstep ⊢ <;> omega

/-- The events of a prefix of a balanced list do not get the machine stuck. -/
theorem exec_of_balanced {events done : List Event} (h : Balanced events)
    (hdone : done <+: events) :
  ∃ held, exec next 0 done = some held
  := by
  induction done using List.reverseRecOn with
  | nil => exact ⟨0, rfl⟩
  | append_singleton done event ih =>
      obtain ⟨held, hheld⟩ := ih ((List.prefix_append _ _).trans hdone)
      have hcount := exec_count hheld
      rw [exec_append, hheld, Option.bind_some, exec_singleton]
      rcases held with - | held
      · cases event with
        | acquire => exact ⟨1, rfl⟩
        | release =>
            have hcovered := h.covered _ hdone
            simp only [acquires, releases] at hcovered hcount
            simp only [List.count_append, List.count_singleton] at hcovered
            simp at hcovered
            omega
        | use =>
            have hused := h.used done hdone
            omega
      · cases event with
        | acquire => exact ⟨held + 2, rfl⟩
        | release => exact ⟨held, rfl⟩
        | use => exact ⟨held + 1, rfl⟩

/-- Events are in balance when the machine is not stuck on them and holds nothing at the end. -/
theorem balanced_iff (events : List Event) :
  Balanced events ↔ exec next 0 events = some 0
  := by
  constructor
  · intro h
    obtain ⟨held, hheld⟩ := exec_of_balanced h List.prefix_rfl
    have hcount := exec_count hheld
    have hequal := h.equal
    obtain rfl : held = 0 := by omega
    apply hheld
  · intro h
    constructor
    · rintro done ⟨rest, rfl⟩
      rw [exec_append, Option.bind_eq_some_iff] at h
      obtain ⟨held, hheld, -⟩ := h
      have hcount := exec_count hheld
      omega
    · rintro done ⟨rest, rfl⟩
      rw [exec_append, exec_append, Option.bind_eq_some_iff] at h
      obtain ⟨held, hused, -⟩ := h
      obtain ⟨held', hheld, hstep⟩ := Option.bind_eq_some_iff.mp hused
      have hcount := exec_count hheld
      rcases held' with - | held'
      · rw [exec_singleton] at hstep
        contradiction
      · omega
    · have hcount := exec_count h
      omega

/-- Uses keep a reference. -/
theorem exec_replicate_use {held : Nat} (h : 0 < held) (count : Nat) :
  exec next held (List.replicate count .use) = some held
  := by
  induction count with
  | zero => rfl
  | succ count ih =>
      obtain ⟨held, rfl⟩ := Nat.exists_eq_add_of_lt h
      rw [List.replicate_succ, exec, Nat.zero_add, next, Option.bind_some, ← Nat.zero_add held, ih]

end RefCount
