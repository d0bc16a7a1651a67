import Mathlib.Data.List.Pairwise
import Mathlib.Data.Nat.Bitwise
import Mathlib.Data.Set.Lattice
import Mathlib.Data.UInt
import Mathlib.Order.CompletePartialOrder
import Mathlib.Order.Interval.Set.Disjoint
import Mathlib.Order.Interval.Set.LinearOrder

/-!
# Regions of memory and their allocation

An allocator grants regions that lie inside the regions it has mapped.  What it has granted is
`Sound` when every granted region lies inside one mapped region and no two of them overlap.  A free
region is `Spare` when it lies inside one mapped region and overlaps no granted one.  An allocator
that only moves the start of a spare region, or maps a new one, stays sound.

Sizes are rounded up to powers of two by a mask, in words that wrap around.
-/

namespace Arena

/-! ### Regions -/

/-- The addresses from `start` on, `size` of them. -/
structure Region where
  start : ℕ
  size : ℕ
  deriving DecidableEq, Repr

/-- The addresses of a region. -/
def Region.cells (r : Region) : Set ℕ := Set.Ico r.start (r.start + r.size)

/-- The first `k` addresses. -/
def Region.take (r : Region) (k : ℕ) : Region := ⟨r.start, k⟩

/-- What is behind the first `k` addresses. -/
def Region.drop (r : Region) (k : ℕ) : Region := ⟨r.start + k, r.size - k⟩

variable {r s m free : Region} {mapped granted : List Region} {k : ℕ}

instance (r s : Region) : Decidable (Disjoint r.cells s.cells) :=
  decidable_of_iff' _ Set.Ico_disjoint_Ico

@[simp]
theorem size_drop (r : Region) (k : ℕ) :
  (r.drop k).size = r.size - k
  := rfl

theorem cells_take_subset (hk : k ≤ r.size) :
  (r.take k).cells ⊆ r.cells
  := Set.Ico_subset_Ico_right (Nat.add_le_add_left hk _)

theorem cells_drop_subset (hk : k ≤ r.size) :
  (r.drop k).cells ⊆ r.cells
  := by
  apply Set.Ico_subset_Ico (Nat.le_add_right _ _)
  rw [Region.drop, Nat.add_assoc, Nat.add_sub_cancel' hk]

theorem disjoint_take_drop (r : Region) (k : ℕ) :
  Disjoint (r.take k).cells (r.drop k).cells
  := Set.Ico_disjoint_Ico_same

/-- A region that lies inside another one is not larger. -/
theorem size_le_of_subset (hpos : 0 < r.size) (h : r.cells ⊆ m.cells) :
  r.size ≤ m.size
  := by
  obtain ⟨hstart, hend⟩ := (Set.Ico_subset_Ico_iff (Nat.lt_add_of_pos_right hpos)).mp h
  omega

/-! ### Granting regions -/

/-- Every granted region lies inside one mapped region, and no two of them overlap. -/
structure Sound (mapped granted : List Region) : Prop where
  inside : ∀ r ∈ granted, ∃ m ∈ mapped, r.cells ⊆ m.cells
  disjoint : granted.Pairwise fun r s => Disjoint r.cells s.cells

/-- The region lies inside one mapped region and overlaps no granted one. -/
structure Spare (mapped granted : List Region) (free : Region) : Prop where
  inside : ∃ m ∈ mapped, free.cells ⊆ m.cells
  unused : ∀ r ∈ granted, Disjoint r.cells free.cells

theorem sound_nil (mapped : List Region) :
  Sound mapped []
  := ⟨fun _ h => absurd h List.not_mem_nil, List.Pairwise.nil⟩

/-- The first part of a spare region can be granted. -/
theorem Sound.grant (h : Sound mapped granted) (hfree : Spare mapped granted free)
    (hk : k ≤ free.size) :
  Sound mapped (granted ++ [free.take k])
  := by
  constructor
  · intro r hr
    rcases List.mem_append.mp hr with hr | hr
    · apply h.inside r hr
    · obtain rfl := List.mem_singleton.mp hr
      obtain ⟨m, hm, hsubset⟩ := hfree.inside
      exact ⟨m, hm, (cells_take_subset hk).trans hsubset⟩
  · rw [List.pairwise_append]
    refine ⟨h.disjoint, List.pairwise_singleton _ _, ?_⟩
    intro r hr s hs
    obtain rfl := List.mem_singleton.mp hs
    apply (hfree.unused r hr).mono_right (cells_take_subset hk)

/-- What is behind a part of a spare region is spare. -/
theorem Spare.drop (h : Spare mapped granted free) (hk : k ≤ free.size) :
  Spare mapped granted (free.drop k)
  := by
  constructor
  · obtain ⟨m, hm, hsubset⟩ := h.inside
    exact ⟨m, hm, (cells_drop_subset hk).trans hsubset⟩
  · intro r hr
    apply (h.unused r hr).mono_right (cells_drop_subset hk)

/-- It stays spare when the part in front of it is granted. -/
theorem Spare.grant (h : Spare mapped granted free) (hk : k ≤ free.size) :
  Spare mapped (granted ++ [free.take k]) (free.drop k)
  := by
  have hdrop := h.drop hk
  constructor
  · apply hdrop.inside
  · intro r hr
    rcases List.mem_append.mp hr with hr | hr
    · apply hdrop.unused r hr
    · obtain rfl := List.mem_singleton.mp hr
      apply disjoint_take_drop

/-- One more region is mapped. -/
theorem Sound.map (h : Sound mapped granted) (new : Region) :
  Sound (new :: mapped) granted
  := by
  constructor
  · intro r hr
    obtain ⟨m, hm, hsubset⟩ := h.inside r hr
    exact ⟨m, List.mem_cons_of_mem _ hm, hsubset⟩
  · apply h.disjoint

/-- A mapped region that overlaps none of those before it is spare. -/
theorem Sound.spare_new (h : Sound mapped granted) {new : Region}
    (hnew : ∀ m ∈ mapped, Disjoint m.cells new.cells) :
  Spare (new :: mapped) granted new
  := by
  constructor
  · exact ⟨new, List.mem_cons_self, subset_rfl⟩
  · intro r hr
    obtain ⟨m, hm, hsubset⟩ := h.inside r hr
    apply (hnew m hm).mono_left hsubset

/-! ### Rounding up -/

/-- A mask without its lower bits clears those of a word. -/
theorem and_high_mask {w k x : ℕ} (hx : x < 2 ^ w) (hk : k ≤ w) :
  x &&& (2 ^ w - 2 ^ k) = x / 2 ^ k * 2 ^ k
  := by
  have hlow : 2 ^ w - 2 ^ k = 2 ^ w - (2 ^ k - 1 + 1) := by
    rw [Nat.sub_add_cancel (Nat.two_pow_pos k)]
  have hlt : 2 ^ k - 1 < 2 ^ w :=
    (Nat.sub_one_lt (Nat.two_pow_pos k).ne').trans_le (Nat.pow_le_pow_right Nat.two_pos hk)
  apply Nat.eq_of_testBit_eq
  intro i
  rw [hlow, Nat.testBit_and, Nat.testBit_two_pow_sub_succ hlt, Nat.testBit_two_pow_sub_one,
    Nat.testBit_mul_two_pow, Nat.testBit_div_two_pow]
  rcases Nat.lt_or_ge i k with hi | hi
  · simp [hi, hi.not_ge]
  · rcases Nat.lt_or_ge i w with hw | hw
    · simp [hi, hi.not_gt, hw, Nat.sub_add_cancel hi]
    · simp [Nat.testBit_lt_two_pow (hx.trans_le (Nat.pow_le_pow_right Nat.two_pos hw)),
        Nat.sub_add_cancel hi]

/-- The word is rounded up to the next multiple of the power of two of the mask, where the sum does
not wrap around. -/
theorem toNat_add_and_not {n mask : UInt64} (hk : k ≤ 64) (hmask : mask.toNat = 2 ^ k - 1) :
  ((n + mask) &&& ~~~mask).toNat = (n.toNat + (2 ^ k - 1)) % 2 ^ 64 / 2 ^ k * 2 ^ k
  := by
  have hhigh : (~~~mask).toNat = 2 ^ 64 - 2 ^ k := by
    have hpos := Nat.two_pow_pos k
    rw [UInt64.toNat_not, hmask, UInt64.size]
    omega
  rw [UInt64.toNat_and, UInt64.toNat_add, hhigh, hmask]
  apply and_high_mask (Nat.mod_lt _ (Nat.two_pow_pos 64)) hk

end Arena
