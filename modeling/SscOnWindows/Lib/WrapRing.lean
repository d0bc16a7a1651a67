import Mathlib.Data.Int.ModEq
import Mathlib.Data.UInt
import Mathlib.Logic.Function.Basic

/-!
# Ring memories with wrapping counters

A stream of unbounded length passes through a memory of `cap` cells: the item at position
`p` of the stream lies in the cell `p % cap`.  The two ends of the part of the stream
that is in the memory are kept as 32-bit counters, which give the position up to a
multiple of `2 ^ 32`.
-/

namespace WrapRing

variable {α : Type*}

/-! ### Wrapping counters -/

/-- The counter `c` stands for the position `n`. -/
def Counts (c : UInt32) (n : Nat) : Prop := c.toNat = n % 2 ^ 32

theorem counts_zero :
  Counts 0 0
  := rfl

/-- Advancing a counter advances its position. -/
theorem Counts.add {c k : UInt32} {n : Nat} (h : Counts c n) :
  Counts (c + k) (n + k.toNat)
  := by
  rw [Counts, UInt32.toNat_add, h]
  apply Nat.mod_add_mod

/-- Advancing a counter by a length, however large. -/
theorem Counts.add_ofNat {c : UInt32} {n : Nat} (h : Counts c n) (k : Nat) :
  Counts (c + UInt32.ofNat k) (n + k)
  := by
  have hadd := h.add (k := UInt32.ofNat k)
  rw [Counts, UInt32.toNat_ofNat'] at hadd
  rw [Counts, hadd]
  apply Nat.add_mod_mod

/-- The wrapped difference of two counters is the distance of their positions. -/
theorem Counts.toNat_sub {c d : UInt32} {n m : Nat} (hc : Counts c n) (hd : Counts d m)
    (hle : m ≤ n) (hlt : n < m + 2 ^ 32) :
  (c - d).toNat = n - m
  := by
  rw [Counts] at hc hd
  rw [UInt32.toNat_sub, hc, hd]
  omega

/-- A counter less than a round behind another one is not behind a third, when it is not
further from it in wrapped distance. -/
theorem Counts.le_of_toNat_sub_le {c d e : UInt32} {n m l : Nat} (hc : Counts c n)
    (hd : Counts d m) (he : Counts e l) (hle : m ≤ l) (hlt : l < n + 2 ^ 32)
    (hsub : (c - d).toNat ≤ (e - d).toNat) :
  m ≤ n
  := by
  rw [Counts] at hc hd he
  rw [UInt32.toNat_sub, UInt32.toNat_sub, hc, hd, he] at hsub
  omega

/-- The exponent of a capacity that is a power of two. -/
theorem exponent_lt {cap : UInt32} {k : Nat} (hcap : cap.toNat = 2 ^ k) :
  k < 32
  := by
  have hlt := cap.toNat_lt
  rw [hcap] at hlt
  apply (Nat.pow_lt_pow_iff_right (by decide)).mp hlt

/-- Masking a counter gives the cell of its position when the capacity is a power of
two. -/
theorem Counts.toNat_and {c cap : UInt32} {n k : Nat} (hc : Counts c n)
    (hcap : cap.toNat = 2 ^ k) :
  (c &&& (cap - 1)).toNat = n % cap.toNat
  := by
  have hk := exponent_lt hcap
  have hpos : 0 < 2 ^ k := Nat.two_pow_pos k
  have hpow : 2 ^ k < 2 ^ 32 := Nat.pow_lt_pow_right (by decide) hk
  have hmask : (cap - 1).toNat = 2 ^ k - 1 := by
    have hone : (1 : UInt32).toNat = 1 := rfl
    rw [UInt32.toNat_sub, hone, hcap]
    omega
  rw [UInt32.toNat_and, hmask, Nat.and_two_pow_sub_one_eq_mod, hc, hcap]
  apply Nat.mod_mod_of_dvd
  apply Nat.pow_dvd_pow 2 hk.le

/-! ### Windows -/

/-- The cells of `mem` hold the items of the stream `l` from the position `t` up to the
position `w`. -/
def Window (cap : Nat) (mem : Nat → α) (l : List α) (t w : Nat) : Prop :=
  ∀ p, t ≤ p → p < w → l[p]? = some (mem (p % cap))

/-- Positions less than a capacity apart have different cells. -/
theorem mod_ne_mod {cap p q : Nat} (hlt : p < q) (hq : q < p + cap) :
  p % cap ≠ q % cap
  := by
  intro heq
  have hdvd : cap ∣ q - p := (Nat.modEq_iff_dvd' hlt.le).mp heq
  have hzero := Nat.eq_zero_of_dvd_of_lt hdvd (by omega)
  omega

/-- An empty window. -/
theorem window_empty (cap : Nat) (mem : Nat → α) (l : List α) (t : Nat) :
  Window cap mem l t t
  := by
  intro p hle hlt
  omega

/-- A part of a window is a window. -/
theorem Window.mono {cap : Nat} {mem : Nat → α} {l : List α} {t t' w w' : Nat}
    (h : Window cap mem l t w) (ht : t ≤ t') (hw : w' ≤ w) :
  Window cap mem l t' w'
  := by
  intro p hle hlt
  apply h p (ht.trans hle) (hlt.trans_le hw)

/-- A window does not depend on how the stream goes on. -/
theorem Window.append {cap : Nat} {mem : Nat → α} {l m : List α} {t w : Nat}
    (h : Window cap mem l t w) (hw : w ≤ l.length) :
  Window cap mem (l ++ m) t w
  := by
  intro p hle hlt
  rw [List.getElem?_append_left (hlt.trans_le hw)]
  apply h p hle hlt

/-- Writing the next item of the stream into its cell extends the window, which must not
be full. -/
theorem Window.write {cap : Nat} {mem : Nat → α} {l : List α} {t w : Nat} {x : α}
    (h : Window cap mem l t w) (hw : w < t + cap) (hx : l[w]? = some x) :
  Window cap (Function.update mem (w % cap) x) l t (w + 1)
  := by
  intro p hle hlt
  rcases Nat.lt_succ_iff_lt_or_eq.mp hlt with hlt | rfl
  · rw [Function.update_of_ne (mod_ne_mod hlt (by omega))]
    apply h p hle hlt
  · rw [Function.update_self]
    apply hx

end WrapRing
