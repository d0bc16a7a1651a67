import Mathlib.Data.List.Basic
import Mathlib.Data.UInt

/-!
# Byte streams

Integers in little-endian order, and the loop that reads a given number of bytes from a
stream whose reads may return fewer bytes than they are asked for.

The stream is any state `σ` with a function `recv`: `recv w need` takes at most `need`
bytes from `w`, and none when it fails.  `Delivers recv pending` says that the reads take
the bytes `pending w` from their front.
-/

namespace ByteStream

/-! ### Little-endian integers -/

/-- The four bytes of `n`, the least significant one first. -/
def le32 (n : Nat) : List UInt8 :=
  [UInt8.ofNat n, UInt8.ofNat (n / 2 ^ 8), UInt8.ofNat (n / 2 ^ 16), UInt8.ofNat (n / 2 ^ 24)]

/-- The natural number with the given bytes, the least significant one first. -/
def ofLe : List UInt8 → Nat
  | [] => 0
  | b :: bs => b.toNat + 2 ^ 8 * ofLe bs

/-- The value of `n` as a signed 32-bit integer. -/
def signed32 (n : Nat) : Int :=
  if n < 2 ^ 31 then n else n - 2 ^ 32

@[simp] theorem length_le32 (n : Nat) :
  (le32 n).length = 4
  := rfl

/-- Reading back four written bytes. -/
theorem ofLe_le32 (n : Nat) :
  ofLe (le32 n) = n % 2 ^ 32
  := by
  simp only [le32, ofLe, UInt8.toNat_ofNat']
  omega

/-- A signed integer survives the way through its four bytes. -/
theorem signed32_ofLe_le32 {i : Int} (hlo : -2 ^ 31 ≤ i) (hhi : i < 2 ^ 31) :
  signed32 (ofLe (le32 (i % 2 ^ 32).toNat)) = i
  := by
  rw [ofLe_le32, signed32]
  split <;> omega

/-! ### Reading a number of bytes -/

variable {σ : Type*} {recv : σ → Nat → List UInt8 × σ} {pending : σ → List UInt8}

/-- What a loop of reads ends with: the bytes, or nothing when a read has failed, the
number of bytes of each read, and the stream. -/
structure Receipt (σ : Type*) where
  bytes : Option (List UInt8)
  counts : List Nat
  world : σ

/-- Read until `need` bytes are there, or a read fails.  Each read takes at least a byte,
so that as many reads as bytes are enough. -/
def readLoop (recv : σ → Nat → List UInt8 × σ) : Nat → Nat → σ → Receipt σ
  | 0, need, w => ⟨if need = 0 then some [] else none, [], w⟩
  | fuel + 1, need, w =>
      if need = 0 then ⟨some [], [], w⟩
      else
        let chunk := (recv w need).1.take need
        let w := (recv w need).2
        if chunk.length = 0 then ⟨none, [0], w⟩
        else
          let rest := readLoop recv fuel (need - chunk.length) w
          ⟨rest.bytes.map (chunk ++ ·), chunk.length :: rest.counts, rest.world⟩

/-- Read `need` bytes. -/
def readFull (recv : σ → Nat → List UInt8 × σ) (need : Nat) (w : σ) : Receipt σ :=
  readLoop recv need need w

/-- The loop fails exactly when a read does. -/
theorem readLoop_eq_none_iff :
    ∀ {fuel need : Nat} {w : σ}, need ≤ fuel →
      ((readLoop recv fuel need w).bytes = none ↔ 0 ∈ (readLoop recv fuel need w).counts)
  | 0, need, w, h => by
      obtain rfl := Nat.le_zero.mp h
      simp [readLoop]
  | fuel + 1, need, w, h => by
      rw [readLoop]
      split
      · simp
      · dsimp only
        split
        · simp
        · rename_i hne
          have hneed : need - ((recv w need).1.take need).length ≤ fuel := by omega
          have ih := readLoop_eq_none_iff (w := (recv w need).2) hneed
          simp only [Option.map_eq_none_iff, List.mem_cons, ih]
          tauto

theorem readFull_eq_none_iff {need : Nat} {w : σ} :
  (readFull recv need w).bytes = none ↔ 0 ∈ (readFull recv need w).counts
  := readLoop_eq_none_iff le_rfl

/-- A read takes its bytes from the front of the bytes that are pending. -/
def Delivers (recv : σ → Nat → List UInt8 × σ) (pending : σ → List UInt8) : Prop :=
  ∀ w need, (recv w need).1.length ≤ need
    ∧ pending w = (recv w need).1 ++ pending (recv w need).2

/-- The bytes the loop returns are the first ones that were pending. -/
theorem readLoop_bytes (hrecv : Delivers recv pending) :
    ∀ {fuel need : Nat} {w : σ} {bytes : List UInt8}, need ≤ fuel →
      (readLoop recv fuel need w).bytes = some bytes →
      bytes.length = need ∧ pending w = bytes ++ pending (readLoop recv fuel need w).world
  | 0, need, w, bytes, hle, h => by
      obtain rfl := Nat.le_zero.mp hle
      obtain rfl : [] = bytes := by simpa [readLoop] using h
      simp [readLoop]
  | fuel + 1, need, w, bytes, hle, h => by
      obtain ⟨hlength, hpending⟩ := hrecv w need
      have htake : (recv w need).1.take need = (recv w need).1 := List.take_of_length_le hlength
      rw [readLoop] at h ⊢
      split at h
      · rename_i hzero
        obtain rfl := Option.some.inj h
        simp [hzero]
      · rename_i hneed
        rw [if_neg hneed]
        simp only [htake] at h ⊢
        split at h
        · contradiction
        · rename_i hne
          rw [if_neg hne]
          obtain ⟨rest, hrest, rfl⟩ := Option.map_eq_some_iff.mp h
          have ih := readLoop_bytes hrecv (by omega) hrest
          constructor
          · rw [List.length_append, ih.1]
            omega
          · rw [List.append_assoc, ← ih.2]
            apply hpending

theorem readFull_bytes (hrecv : Delivers recv pending) {need : Nat} {w : σ} {bytes : List UInt8}
    (h : (readFull recv need w).bytes = some bytes) :
  bytes.length = need ∧ pending w = bytes ++ pending (readFull recv need w).world
  := readLoop_bytes hrecv le_rfl h

/-- The loop takes no more bytes than it needs, and all of them when it succeeds. -/
theorem sum_counts_readLoop_le :
    ∀ {fuel need : Nat} {w : σ}, (readLoop recv fuel need w).counts.sum ≤ need
  | 0, need, w => Nat.zero_le need
  | fuel + 1, need, w => by
      rw [readLoop]
      split
      · apply Nat.zero_le
      · dsimp only
        split
        · apply Nat.zero_le
        · have hchunk := List.length_take_le need (recv w need).1
          have ih : (readLoop recv fuel (need - ((recv w need).1.take need).length)
              (recv w need).2).counts.sum ≤ need - ((recv w need).1.take need).length :=
            sum_counts_readLoop_le
          rw [List.sum_cons]
          omega

theorem length_readLoop :
    ∀ {fuel need : Nat} {w : σ} {bytes : List UInt8}, need ≤ fuel →
      (readLoop recv fuel need w).bytes = some bytes →
      bytes.length = need ∧ (readLoop recv fuel need w).counts.sum = need
  | 0, need, w, bytes, hle, h => by
      obtain rfl := Nat.le_zero.mp hle
      obtain rfl : [] = bytes := by simpa [readLoop] using h
      simp [readLoop]
  | fuel + 1, need, w, bytes, hle, h => by
      rw [readLoop] at h ⊢
      split at h
      · rename_i hzero
        obtain rfl := Option.some.inj h
        simp [hzero]
      · rename_i hneed
        rw [if_neg hneed]
        dsimp only at h ⊢
        split at h
        · contradiction
        · rename_i hne
          rw [if_neg hne]
          obtain ⟨rest, hrest, rfl⟩ := Option.map_eq_some_iff.mp h
          have hchunk := List.length_take_le need (recv w need).1
          obtain ⟨hlength, hsum⟩ := length_readLoop (by omega) hrest
          constructor
          · rw [List.length_append, hlength]
            omega
          · rw [List.sum_cons, hsum]
            omega

theorem sum_counts_readFull_le (recv : σ → Nat → List UInt8 × σ) (need : Nat) (w : σ) :
  (readFull recv need w).counts.sum ≤ need
  := sum_counts_readLoop_le

theorem length_readFull {need : Nat} {w : σ} {bytes : List UInt8}
    (h : (readFull recv need w).bytes = some bytes) :
  bytes.length = need ∧ (readFull recv need w).counts.sum = need
  := length_readLoop le_rfl h

/-- A read that delivers all bytes it is asked for is the only one. -/
theorem readFull_of_length {need : Nat} {w : σ} (hneed : 0 < need)
    (h : (recv w need).1.length = need) :
  readFull recv need w = ⟨some (recv w need).1, [need], (recv w need).2⟩
  := by
  obtain ⟨fuel, rfl⟩ := Nat.exists_eq_add_of_lt hneed
  have htake : (recv w (0 + fuel + 1)).1.take (0 + fuel + 1) = (recv w (0 + fuel + 1)).1 :=
    List.take_of_length_le (Nat.le_of_eq h)
  have hdone : ∀ w, readLoop recv (0 + fuel) 0 w = ⟨some [], [], w⟩ := by
    intro w
    cases fuel <;> rfl
  rw [readFull, readLoop, if_neg (by omega)]
  dsimp only
  rw [htake, h, if_neg (by omega), Nat.sub_self, hdone, Option.map_some, List.append_nil]

/-- What every read preserves is preserved by the loop. -/
theorem readLoop_preserves {I : σ → Prop} (hrecv : ∀ w need, I w → I (recv w need).2) :
    ∀ {fuel need : Nat} {w : σ}, I w → I (readLoop recv fuel need w).world
  | 0, _, _, h => h
  | fuel + 1, need, w, h => by
      rw [readLoop]
      split
      · apply h
      · dsimp only
        split
        · apply hrecv w need h
        · apply readLoop_preserves hrecv (hrecv w need h)

theorem readFull_preserves {I : σ → Prop} (hrecv : ∀ w need, I w → I (recv w need).2)
    {need : Nat} {w : σ} (h : I w) :
  I (readFull recv need w).world
  := readLoop_preserves hrecv h

end ByteStream
