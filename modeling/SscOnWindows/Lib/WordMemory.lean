import Mathlib.Data.UInt
import Mathlib.Logic.Function.Basic
import Mathlib.Tactic.Ring

/-!
# Words in a memory of bytes

A memory has a byte at each address of `n` bits.  A word of some bytes is in the memory with its
lowest byte first, and the addresses wrap around.  A word that is stored is loaded again, to
store the word that is there changes nothing, and words that fit are stored alike only when they
are equal.
-/

namespace WordMemory

/-- A memory with addresses of `n` bits. -/
abbrev Memory (n : Nat) := BitVec n → UInt8

variable {n : Nat}

/-- The word of `size` bytes at the address. -/
def load (memory : Memory n) (addr : BitVec n) : Nat → Nat
  | 0 => 0
  | size + 1 => (memory addr).toNat + 256 * load memory (addr + 1) size

/-- The memory with a word of `size` bytes stored at the address. -/
def store (memory : Memory n) (addr : BitVec n) : Nat → Nat → Memory n
  | 0, _ => memory
  | size + 1, value =>
      store (Function.update memory addr (UInt8.ofNat value)) (addr + 1) size (value / 256)

variable {memory : Memory n} {addr : BitVec n} {size value : Nat}

theorem load_lt (memory : Memory n) (addr : BitVec n) (size : Nat) :
  load memory addr size < 256 ^ size
  := by
  induction size generalizing addr with
  | zero => apply Nat.one_pos
  | succ size ih =>
      have hbyte : (memory addr).toNat < 256 := (memory addr).toNat_lt
      have hrest := ih (addr + 1)
      rw [load, pow_succ]
      omega

/-- Addresses within the size of the memory are different. -/
theorem add_ne {i : Nat} (hpos : 0 < i) (hi : i < 2 ^ n) :
  addr + BitVec.ofNat n i ≠ addr
  := by
  intro heq
  have hzero : BitVec.ofNat n i = 0 := by
    apply add_left_cancel (a := addr)
    rw [heq, add_zero]
  have hnat := congrArg BitVec.toNat hzero
  rw [BitVec.toNat_ofNat, Nat.mod_eq_of_lt hi] at hnat
  apply Nat.ne_of_gt hpos hnat

theorem add_succ (addr : BitVec n) (i : Nat) :
  addr + BitVec.ofNat n (i + 1) = addr + 1 + BitVec.ofNat n i
  := by
  rw [BitVec.ofNat_add, add_comm (BitVec.ofNat n i), ← add_assoc]
  rfl

/-- A store changes its own bytes only. -/
theorem store_of_ne {a : BitVec n} (h : ∀ i < size, a ≠ addr + BitVec.ofNat n i) :
  store memory addr size value a = memory a
  := by
  induction size generalizing memory addr value with
  | zero => rfl
  | succ size ih =>
      have hfirst := h 0 (Nat.succ_pos size)
      have hzero : addr + BitVec.ofNat n 0 = addr := add_zero addr
      rw [hzero] at hfirst
      rw [store, ih, Function.update_of_ne hfirst]
      intro i hi
      rw [← add_succ]
      apply h (i + 1) (Nat.succ_lt_succ hi)

/-- A word that is stored is loaded. -/
theorem load_store (hsize : size ≤ 2 ^ n) (hvalue : value < 256 ^ size) :
  load (store memory addr size value) addr size = value
  := by
  induction size generalizing memory addr value with
  | zero =>
      rw [pow_zero, Nat.lt_one_iff] at hvalue
      rw [hvalue]
      rfl
  | succ size ih =>
      have hfirst : store memory addr (size + 1) value addr = UInt8.ofNat value := by
        rw [store, store_of_ne, Function.update_self]
        intro i hi
        rw [← add_succ]
        apply (add_ne (Nat.succ_pos i) (by omega)).symm
      have hrest : load (store memory addr (size + 1) value) (addr + 1) size = value / 256 := by
        rw [store]
        apply ih (by omega)
        rw [Nat.div_lt_iff_lt_mul (by decide), ← pow_succ]
        apply hvalue
      rw [load, hfirst, hrest, UInt8.toNat_ofNat']
      omega

/-- To store the word that is there changes nothing. -/
theorem store_load (memory : Memory n) (addr : BitVec n) (size : Nat) :
  store memory addr size (load memory addr size) = memory
  := by
  induction size generalizing addr with
  | zero => rfl
  | succ size ih =>
      have hbyte : (memory addr).toNat < 256 := (memory addr).toNat_lt
      have hfirst : UInt8.ofNat (load memory addr (size + 1)) = memory addr := by
        apply UInt8.toNat_inj.mp
        rw [load, UInt8.toNat_ofNat']
        omega
      have hrest : load memory addr (size + 1) / 256 = load memory (addr + 1) size := by
        rw [load]
        omega
      rw [store, hfirst, hrest, Function.update_eq_self, ih]

/-- Words that fit are stored alike only when they are equal. -/
theorem store_inj_iff {other : Nat} (hsize : size ≤ 2 ^ n) (hvalue : value < 256 ^ size)
    (hother : other < 256 ^ size) :
  store memory addr size value = store memory addr size other ↔ value = other
  := by
  constructor
  · intro h
    have hload : load (store memory addr size value) addr size = value := load_store hsize hvalue
    rw [h, load_store hsize hother] at hload
    apply hload.symm
  · rintro rfl
    rfl

/-- A store changes nothing exactly when the word is there. -/
theorem store_eq_self_iff (hsize : size ≤ 2 ^ n) (hvalue : value < 256 ^ size) :
  store memory addr size value = memory ↔ value = load memory addr size
  := by
  constructor
  · intro h
    have hload : load (store memory addr size value) addr size = value := load_store hsize hvalue
    rw [h] at hload
    apply hload.symm
  · rintro rfl
    apply store_load

end WordMemory
