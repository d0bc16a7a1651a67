import Mathlib.Algebra.Order.Monoid.Defs
import Mathlib.Data.Set.Defs

/-!
# The nearest element of a set

The element of a set nearest to a point, the least one of equally near ones, with respect
to a distance `dist x c` of a point `x` and an element `c` that need not be a metric.
There is at most one such element.  Where the distance has no crossings (moving two points
and two elements past each other costs something), the nearest element grows with the
point.  A scan that replaces its candidate by strictly nearer ones finds the nearest
element of a sorted list.
-/

namespace Nearest

variable {ι α β : Type*} [LinearOrder α] [LinearOrder β]

/-- The element `c` of `s` is nearest to `x`, and the least of the equally near ones. -/
structure IsNearest (dist : ι → α → β) (x : ι) (s : Set α) (c : α) : Prop where
  mem : c ∈ s
  min : ∀ d ∈ s, dist x c ≤ dist x d
  least : ∀ d ∈ s, dist x d ≤ dist x c → c ≤ d

variable {dist : ι → α → β} {x y : ι} {s : Set α} {c d e : α}

/-! ### Uniqueness and order -/

theorem IsNearest.unique (hc : IsNearest dist x s c) (hd : IsNearest dist x s d) :
  c = d
  := by
  apply le_antisymm
  · apply hc.least d hd.mem (hd.min c hc.mem)
  · apply hd.least c hc.mem (hc.min d hd.mem)

/-- An element to which every other one is strictly farther is nearest. -/
theorem isNearest_of_forall_lt (hmem : c ∈ s) (h : ∀ d ∈ s, d ≠ c → dist x c < dist x d) :
  IsNearest dist x s c
  := by
  constructor
  · apply hmem
  · intro d hd
    by_cases heq : d = c
    · rw [heq]
    · apply le_of_lt (h d hd heq)
  · intro d hd hle
    by_cases heq : d = c
    · rw [heq]
    · apply absurd hle (not_le_of_gt (h d hd heq))

/-- Nearest elements do not cross: of two points that do not prefer to exchange theirs,
the smaller one has the smaller element. -/
theorem IsNearest.le [Add β] [AddLeftStrictMono β] [AddRightStrictMono β]
    (hx : IsNearest dist x s c) (hy : IsNearest dist y s e)
    (hcross : e ≤ c → dist x e + dist y c ≤ dist x c + dist y e) :
  c ≤ e
  := by
  by_contra hlt
  have hec : e < c := lt_of_not_ge hlt
  have hfar : dist x c < dist x e := by
    apply lt_of_not_ge
    intro hle
    apply hlt (hx.least e hy.mem hle)
  have hnear : dist y e ≤ dist y c := hy.min c hx.mem
  have hsum : dist x c + dist y e < dist x e + dist y c := by
    rcases lt_or_eq_of_le hnear with hlt | heq
    · apply lt_trans (add_lt_add_left hfar _)
      apply add_lt_add_right hlt
    · rw [heq]
      apply add_lt_add_left hfar
  apply absurd (hcross (le_of_lt hec)) (not_le_of_gt hsum)

/-! ### Scanning a list -/

/-- The candidate after a list of elements, each of which replaces it when it is strictly
nearer. -/
def scan (dist : ι → α → β) (x : ι) : α → List α → α
  | best, [] => best
  | best, c :: rest =>
      if dist x c < dist x best then scan dist x c rest else scan dist x best rest

/-- The scan of a sorted list finds its nearest element. -/
theorem scan_isNearest (dist : ι → α → β) (x : ι) {best : α} {rest : List α}
    (hsorted : (best :: rest).Pairwise (· ≤ ·)) :
  IsNearest dist x {c | c ∈ best :: rest} (scan dist x best rest)
  := by
  induction rest generalizing best with
  | nil =>
      apply isNearest_of_forall_lt
      · apply List.mem_cons_self
      · intro d hd hne
        apply absurd (List.mem_singleton.mp hd) hne
  | cons c rest ih =>
      obtain ⟨hbest, hrest⟩ := List.pairwise_cons.mp hsorted
      rw [scan]
      split
      · rename_i hlt
        have h := ih hrest
        have hnear := h.min c List.mem_cons_self
        constructor
        · apply List.mem_cons_of_mem _ h.mem
        · intro d hd
          obtain rfl | hd := List.mem_cons.mp hd
          · apply le_of_lt (lt_of_le_of_lt hnear hlt)
          · apply h.min d hd
        · intro d hd hle
          obtain rfl | hd := List.mem_cons.mp hd
          · apply absurd (lt_of_le_of_lt hnear hlt) (not_lt_of_ge hle)
          · apply h.least d hd hle
      · rename_i hge
        have hbc : dist x best ≤ dist x c := le_of_not_gt hge
        have hskip : (best :: rest).Pairwise (· ≤ ·) := by
          rw [List.pairwise_cons] at hrest ⊢
          constructor
          · intro d hd
            apply hbest d (List.mem_cons_of_mem _ hd)
          · apply hrest.2
        have h := ih hskip
        have hnear := h.min best List.mem_cons_self
        constructor
        · obtain heq | hmem := List.mem_cons.mp h.mem
          · rw [heq]
            apply List.mem_cons_self
          · apply List.mem_cons_of_mem _ (List.mem_cons_of_mem _ hmem)
        · intro d hd
          obtain rfl | hd := List.mem_cons.mp hd
          · apply hnear
          · obtain rfl | hd := List.mem_cons.mp hd
            · apply le_trans hnear hbc
            · apply h.min d (List.mem_cons_of_mem _ hd)
        · intro d hd hle
          obtain rfl | hd := List.mem_cons.mp hd
          · apply h.least _ List.mem_cons_self hle
          · obtain rfl | hd := List.mem_cons.mp hd
            · apply le_trans
              · apply h.least best List.mem_cons_self (le_trans hbc hle)
              · apply hbest _ List.mem_cons_self
            · apply h.least d (List.mem_cons_of_mem _ hd) hle

end Nearest
