import Mathlib.Algebra.Polynomial.Eval.Degree
import Mathlib.Tactic.FieldSimp
import Mathlib.Tactic.Ring
import SscOnWindows.Lib.Stores
import SscOnWindows.Pipeline.Chunking

/-!
# The resampler

`upsample_2x_stereo_f32` doubles the rate of a chunk of stereo frames.  Between two frames it
puts a midpoint: the value of the cubic through the two frames on each side of it, and at
the edges of the chunk the mean of the two frames next to it.

The function is a sequence of stores whose indices do not depend on the samples.  A store
says which samples it reads; their arithmetic is a parameter, so that the same stores give
the exact upsampling of a field and the one of the 32-bit floats.
-/

namespace Ssc

open Stores

/-- A `uint32_t`. -/
def u32 (n : Nat) : Nat :=
  n % 2 ^ 32

theorem u32_of_lt {n : Nat} (h : n < 2 ^ 32) :
  u32 n = n
  := Nat.mod_eq_of_lt h

/-- What is stored: the sample at an index of the input, or a midpoint. -/
inductive Tap where
  | copy (i : Nat)
  | lerp (a b : Nat)
  | cubic (prev cur next nn : Nat)
  deriving DecidableEq, Repr

/-- The indices of the input that are read. -/
def Tap.reads : Tap → List Nat
  | .copy i => [i]
  | .lerp a b => [a, b]
  | .cubic prev cur next nn => [prev, cur, next, nn]

/-- The arithmetic of the midpoints. -/
structure Midpoints (α : Type*) where
  lerp : α → α → α
  cubic : α → α → α → α → α

/-- The value that is stored. -/
def Tap.eval {α : Type*} (mid : Midpoints α) (input : Nat → α) : Tap → α
  | .copy i => input i
  | .lerp a b => mid.lerp (input a) (input b)
  | .cubic prev cur next nn => mid.cubic (input prev) (input cur) (input next) (input nn)

/-- The stores to both channels of the output frame `m`. -/
def storeFrame (m : Nat) (tap : Nat → Tap) : List (Store Nat Tap) :=
  [⟨u32 (m * 2 + 0), tap 0⟩, ⟨u32 (m * 2 + 1), tap 1⟩]

/-- The first pass: the even output frames. -/
def copyPass (inFrames : Nat) : List (Store Nat Tap) :=
  (List.range inFrames).flatMap fun n => storeFrame (n * 2) fun c => .copy (u32 (n * 2 + c))

/-- The midpoint between the first two frames. -/
def firstMidpoint : List (Store Nat Tap) :=
  storeFrame 1 fun c => .lerp c (2 + c)

/-- The loop over the midpoints with two frames on each side. -/
def interiorMidpoints (inFrames : Nat) : List (Store Nat Tap) :=
  (List.range' 1 (inFrames - 3)).flatMap fun n =>
    storeFrame (n * 2 + 1) fun c =>
      .cubic (u32 ((n - 1) * 2 + c)) (u32 (n * 2 + c)) (u32 ((n + 1) * 2 + c))
        (u32 ((n + 2) * 2 + c))

/-- The midpoint between the last two frames. -/
def lastMidpoint (inFrames : Nat) : List (Store Nat Tap) :=
  if inFrames ≥ 3 then
    storeFrame ((inFrames - 2) * 2 + 1) fun c =>
      .lerp (u32 ((inFrames - 2) * 2 + c)) (u32 ((inFrames - 1) * 2 + c))
  else []

/-- The stores of a chunk of at least two frames. -/
def upsampleStores (inFrames : Nat) : List (Store Nat Tap) :=
  copyPass inFrames ++ firstMidpoint ++ interiorMidpoints inFrames ++ lastMidpoint inFrames

/-- What a call of the function does: the number of frames it returns and its stores. -/
structure Upsampling where
  frames : Nat
  stores : List (Store Nat Tap)
  deriving DecidableEq, Repr

/-- `upsample_2x_stereo_f32`, with pointers that may be null. -/
def upsample2xStereoF32 (inGiven : Bool) (inFrames : Nat) (outGiven : Bool) (outCap : Nat) :
    Upsampling :=
  if inGiven = false ∨ outGiven = false ∨ inFrames < 2 then ⟨0, []⟩
  else if outCap < u32 (inFrames * 2) then ⟨0, []⟩
  else ⟨u32 (u32 (inFrames * 2) + (2 ^ 32 - 1)), upsampleStores inFrames⟩

/-- The output buffer behind the call. -/
def Upsampling.output {α : Type*} (u : Upsampling) (mid : Midpoints α) (input out : Nat → α) :
    Nat → α :=
  run (u.stores.map (Store.map (Tap.eval mid input))) out

/-- The midpoints in exact arithmetic. -/
def exactMidpoints (K : Type*) [Field K] : Midpoints K where
  lerp a b := (a + b) * (1 / 2)
  cubic prev cur next nn := (9 * (cur + next) - (prev + nn)) * (1 / 16)

/-- The midpoints of samples given by the bytes of a `float`. -/
def f32Midpoints : Midpoints (List UInt8) where
  lerp a b := f32Bytes ((f32 a + f32 b) * 0.5)
  cubic prev cur next nn := f32Bytes ((9.0 * (f32 cur + f32 next) - (f32 prev + f32 nn)) * 0.0625)

/-! ### What is stored where -/

/-- What is stored to the channel `c` of the output frame `m`. -/
def tapAt (inFrames m c : Nat) : Tap :=
  if m % 2 = 0 then .copy (m / 2 * 2 + c)
  else if 1 ≤ m / 2 ∧ m / 2 + 2 < inFrames then
    .cubic ((m / 2 - 1) * 2 + c) (m / 2 * 2 + c) ((m / 2 + 1) * 2 + c) ((m / 2 + 2) * 2 + c)
  else .lerp (m / 2 * 2 + c) ((m / 2 + 1) * 2 + c)

variable {inFrames : Nat}

theorem tapAt_copy (n c : Nat) :
  tapAt inFrames (n * 2) c = .copy (n * 2 + c)
  := by
  rw [tapAt, if_pos (by omega), Nat.mul_div_cancel _ (by decide)]

theorem half_odd (n : Nat) :
  (n * 2 + 1) / 2 = n
  := by omega

theorem tapAt_cubic {n : Nat} (c : Nat) (hprev : 1 ≤ n) (hnn : n + 2 < inFrames) :
  tapAt inFrames (n * 2 + 1) c
    = .cubic ((n - 1) * 2 + c) (n * 2 + c) ((n + 1) * 2 + c) ((n + 2) * 2 + c)
  := by
  rw [tapAt, if_neg (by omega), half_odd, if_pos ⟨hprev, hnn⟩]

theorem tapAt_lerp {n : Nat} (c : Nat) (hedge : n = 0 ∨ inFrames ≤ n + 2) :
  tapAt inFrames (n * 2 + 1) c = .lerp (n * 2 + c) ((n + 1) * 2 + c)
  := by
  rw [tapAt, if_neg (by omega), half_odd, if_neg (by omega)]

theorem mem_storeFrame_iff {m : Nat} {tap : Nat → Tap} {s : Store Nat Tap}
    (hlt : m * 2 + 1 < 2 ^ 32) :
  s ∈ storeFrame m tap ↔ ∃ c, c < 2 ∧ s = ⟨m * 2 + c, tap c⟩
  := by
  rw [storeFrame, u32_of_lt hlt, u32_of_lt (by omega)]
  constructor
  · intro h
    obtain rfl | h := List.mem_cons.mp h
    · use 0, by decide
    · obtain rfl := List.mem_singleton.mp h
      use 1, by decide
  · rintro ⟨c, hc, rfl⟩
    obtain rfl | rfl : c = 0 ∨ c = 1 := by omega
    · apply List.mem_cons_self
    · apply List.mem_cons_of_mem _ List.mem_cons_self

/-- The even output frames are those of the input. -/
theorem mem_copyPass_iff (hlt : inFrames < 2 ^ 30) {s : Store Nat Tap} :
  s ∈ copyPass inFrames
    ↔ ∃ n c, n < inFrames ∧ c < 2 ∧ s = ⟨n * 2 * 2 + c, tapAt inFrames (n * 2) c⟩
  := by
  rw [copyPass, List.mem_flatMap]
  apply exists_congr
  intro n
  rw [List.mem_range]
  constructor
  · rintro ⟨hn, hs⟩
    obtain ⟨c, hc, rfl⟩ := (mem_storeFrame_iff (by omega)).mp hs
    use c, hn, hc
    rw [tapAt_copy, u32_of_lt (by omega)]
  · rintro ⟨c, hn, hc, rfl⟩
    use hn
    rw [mem_storeFrame_iff (by omega)]
    use c, hc
    rw [tapAt_copy, u32_of_lt (by omega)]

theorem mem_firstMidpoint_iff (inFrames : Nat) {s : Store Nat Tap} :
  s ∈ firstMidpoint ↔ ∃ c, c < 2 ∧ s = ⟨1 * 2 + c, tapAt inFrames 1 c⟩
  := by
  rw [firstMidpoint, mem_storeFrame_iff (by decide)]
  apply exists_congr
  intro c
  have htap : tapAt inFrames 1 c = .lerp c (2 + c) := by
    rw [tapAt, if_neg (by decide), if_neg (by omega), Nat.zero_mul, Nat.zero_add]
  rw [htap]

theorem mem_interiorMidpoints_iff (hlt : inFrames < 2 ^ 30) {s : Store Nat Tap} :
  s ∈ interiorMidpoints inFrames
    ↔ ∃ n c, (1 ≤ n ∧ n + 2 < inFrames) ∧ c < 2
      ∧ s = ⟨(n * 2 + 1) * 2 + c, tapAt inFrames (n * 2 + 1) c⟩
  := by
  rw [interiorMidpoints, List.mem_flatMap]
  apply exists_congr
  intro n
  have hrange : n ∈ List.range' 1 (inFrames - 3) ↔ 1 ≤ n ∧ n + 2 < inFrames := by
    rw [List.mem_range'_1]
    omega
  rw [hrange]
  constructor
  · rintro ⟨hn, hs⟩
    obtain ⟨c, hc, rfl⟩ := (mem_storeFrame_iff (by omega)).mp hs
    use c, hn, hc
    rw [tapAt_cubic c hn.1 hn.2, u32_of_lt (by omega), u32_of_lt (by omega), u32_of_lt (by omega),
      u32_of_lt (by omega)]
  · rintro ⟨c, hn, hc, rfl⟩
    use hn
    rw [mem_storeFrame_iff (by omega)]
    use c, hc
    rw [tapAt_cubic c hn.1 hn.2, u32_of_lt (by omega), u32_of_lt (by omega), u32_of_lt (by omega),
      u32_of_lt (by omega)]

theorem mem_lastMidpoint_iff (hlt : inFrames < 2 ^ 30) {s : Store Nat Tap} :
  s ∈ lastMidpoint inFrames
    ↔ ∃ c, 3 ≤ inFrames ∧ c < 2 ∧ s = ⟨((inFrames - 2) * 2 + 1) * 2 + c,
        tapAt inFrames ((inFrames - 2) * 2 + 1) c⟩
  := by
  rw [lastMidpoint]
  split
  · rename_i h3
    rw [mem_storeFrame_iff (by omega)]
    apply exists_congr
    intro c
    have hnext : inFrames - 2 + 1 = inFrames - 1 := by omega
    rw [tapAt_lerp c (.inr (by omega)), hnext]
    constructor
    · rintro ⟨hc, rfl⟩
      use h3, hc
      rw [u32_of_lt (by omega), u32_of_lt (by omega)]
    · rintro ⟨-, hc, rfl⟩
      use hc
      rw [u32_of_lt (by omega), u32_of_lt (by omega)]
  · rename_i h3
    constructor
    · intro h
      cases h
    · rintro ⟨c, h, -⟩
      contradiction

/-- The stores are those to both channels of the first `2 * inFrames - 1` output frames. -/
theorem mem_upsampleStores_iff (h2 : 2 ≤ inFrames) (hlt : inFrames < 2 ^ 30)
    {s : Store Nat Tap} :
  s ∈ upsampleStores inFrames
    ↔ ∃ m c, m < 2 * inFrames - 1 ∧ c < 2 ∧ s = ⟨m * 2 + c, tapAt inFrames m c⟩
  := by
  rw [upsampleStores, List.mem_append, List.mem_append, List.mem_append, mem_copyPass_iff hlt,
    mem_firstMidpoint_iff inFrames, mem_interiorMidpoints_iff hlt,
    mem_lastMidpoint_iff hlt]
  constructor
  · rintro (((⟨n, c, hn, hc, rfl⟩ | ⟨c, hc, rfl⟩) | ⟨n, c, hn, hc, rfl⟩) | ⟨c, h3, hc, rfl⟩)
    · use n * 2, c, by omega
    · use 1, c, by omega
    · use n * 2 + 1, c, by omega
    · use (inFrames - 2) * 2 + 1, c, by omega
  · rintro ⟨m, c, hm, hc, rfl⟩
    obtain ⟨n, rfl | rfl⟩ : ∃ n, m = n * 2 ∨ m = n * 2 + 1 := ⟨m / 2, by omega⟩
    · left; left; left
      use n, c, by omega
    · by_cases hinterior : 1 ≤ n ∧ n + 2 < inFrames
      · left; right
        use n, c, hinterior
      · by_cases hfirst : n = 0
        · left; left; right
          use c, hc
          rw [hfirst]
        · right
          obtain rfl : n = inFrames - 2 := by omega
          use c, by omega, hc

/-! ### The output buffer -/

/-- The sample at the index `j` of the output. -/
def upsampledAt {α : Type*} (mid : Midpoints α) (input : Nat → α) (inFrames j : Nat) : α :=
  (tapAt inFrames (j / 2) (j % 2)).eval mid input

/-- The first `2 * inFrames - 1` output frames are written. -/
theorem written_upsampleStores (h2 : 2 ≤ inFrames) (hlt : inFrames < 2 ^ 30) (j : Nat) :
  j ∈ written (upsampleStores inFrames) ↔ j < 2 * (2 * inFrames - 1)
  := by
  constructor
  · rintro ⟨s, hs, rfl⟩
    obtain ⟨m, c, hm, hc, rfl⟩ := (mem_upsampleStores_iff h2 hlt).mp hs
    dsimp only
    omega
  · intro hj
    use ⟨j / 2 * 2 + j % 2, tapAt inFrames (j / 2) (j % 2)⟩
    constructor
    · rw [mem_upsampleStores_iff h2 hlt]
      use j / 2, j % 2, by omega, by omega
    · apply Nat.div_add_mod'

/-- The function takes every capacity of at least two output frames for an input frame. -/
theorem upsample2xStereoF32_eq (h2 : 2 ≤ inFrames) (hlt : inFrames < 2 ^ 30) {outCap : Nat}
    (hcap : 2 * inFrames ≤ outCap) :
  upsample2xStereoF32 true inFrames true outCap = ⟨2 * inFrames - 1, upsampleStores inFrames⟩
  := by
  have hframes : u32 (inFrames * 2) = 2 * inFrames := by
    rw [u32_of_lt (by omega), Nat.mul_comm]
  have hsub : u32 (2 * inFrames + (2 ^ 32 - 1)) = 2 * inFrames - 1 := by
    rw [u32]
    omega
  rw [upsample2xStereoF32, if_neg (by simp; omega), hframes, if_neg (by omega), hsub]

section Output

variable {α : Type*} {mid : Midpoints α} {input out : Nat → α} {frames j : Nat}

/-- A sample that is written is the one of its frame and channel. -/
theorem output_of_lt (h2 : 2 ≤ inFrames) (hlt : inFrames < 2 ^ 30)
    (hj : j < 2 * (2 * inFrames - 1)) :
  Upsampling.output ⟨frames, upsampleStores inFrames⟩ mid input out j
    = upsampledAt mid input inFrames j
  := by
  apply run_of_mem_written
  · intro s hs
    obtain ⟨t, ht, rfl⟩ := List.mem_map.mp hs
    obtain ⟨m, c, -, hc, rfl⟩ := (mem_upsampleStores_iff h2 hlt).mp ht
    have hframe : (m * 2 + c) / 2 = m := by omega
    have hchannel : (m * 2 + c) % 2 = c := by omega
    simp only [Store.map, upsampledAt, hframe, hchannel]
  · rw [written_map, written_upsampleStores h2 hlt]
    apply hj

/-- What is behind the written samples stays. -/
theorem output_of_ge (h2 : 2 ≤ inFrames) (hlt : inFrames < 2 ^ 30)
    (hj : 2 * (2 * inFrames - 1) ≤ j) :
  Upsampling.output ⟨frames, upsampleStores inFrames⟩ mid input out j = out j
  := by
  apply run_of_not_mem_written
  rw [written_map, written_upsampleStores h2 hlt]
  omega

end Output

/-- The sample of a channel of an output frame. -/
theorem upsampledAt_frame {α : Type*} (mid : Midpoints α) (input : Nat → α) (inFrames m : Nat)
    {c : Nat} (hc : c < 2) :
  upsampledAt mid input inFrames (m * 2 + c) = (tapAt inFrames m c).eval mid input
  := by
  have hframe : (m * 2 + c) / 2 = m := by omega
  have hchannel : (m * 2 + c) % 2 = c := by omega
  rw [upsampledAt, hframe, hchannel]

/-- The samples of a channel depend on those of the same channel of the input only. -/
theorem upsampledAt_congr {α : Type*} (mid : Midpoints α) {input input' : Nat → α} {m c : Nat}
    (hm : m < 2 * inFrames - 1) (hc : c < 2)
    (h : ∀ n < inFrames, input (n * 2 + c) = input' (n * 2 + c)) :
  upsampledAt mid input inFrames (m * 2 + c) = upsampledAt mid input' inFrames (m * 2 + c)
  := by
  rw [upsampledAt_frame mid input inFrames m hc, upsampledAt_frame mid input' inFrames m hc, tapAt]
  split
  · apply h
    omega
  · split
    · simp only [Tap.eval]
      rw [h _ (by omega), h _ (by omega), h _ (by omega), h _ (by omega)]
    · simp only [Tap.eval]
      rw [h _ (by omega), h _ (by omega)]

/-- The bytes the encode thread and the CLI make of a chunk are those of the output buffer, with
the midpoints in 32-bit floats. -/
theorem upsample2x_eq_output (bytes : List UInt8) (h2 : 2 ≤ bytes.length / 8)
    (hlt : bytes.length / 8 < 2 ^ 30) (out : Nat → List UInt8) :
  upsample2x bytes = (List.range (2 * (bytes.length / 8) - 1)).flatMap fun m =>
    [0, 1].flatMap fun c =>
      (upsample2xStereoF32 true (bytes.length / 8) true (2 * (bytes.length / 8))).output
        f32Midpoints (fun i => (bytes.drop (i * 4)).take 4) out (m * 2 + c)
  := by
  rw [upsample2x, upsampledFrames, if_neg (by omega), upsample2xStereoF32_eq h2 hlt le_rfl]
  apply List.flatMap_congr
  intro m hm
  apply List.flatMap_congr
  intro c hc
  have hc : c < 2 := by
    simp only [List.mem_cons, List.not_mem_nil, or_false] at hc
    omega
  rw [List.mem_range] at hm
  rw [output_of_lt h2 hlt (by omega), upsampledAt_frame _ _ _ _ hc, tapAt]
  split
  · rfl
  · split
    · rename_i hinterior
      dsimp only
      rw [if_pos hinterior]
      rfl
    · rename_i hedge
      dsimp only
      rw [if_neg hedge]
      rfl

/-! ### Exact arithmetic -/

section Exact

open Polynomial

variable {K : Type*} [Field K]

/-- The four-tap filter is exact on the cubics. -/
theorem exactMidpoints_cubic [CharZero K] {p : K[X]} (h : p.natDegree ≤ 3) (x : K) :
  (exactMidpoints K).cubic (p.eval x) (p.eval (x + 1)) (p.eval (x + 2)) (p.eval (x + 3))
    = p.eval (x + 1 + 1 / 2)
  := by
  have hlt : p.natDegree < 4 := Nat.lt_succ_of_le h
  simp only [exactMidpoints, eval_eq_sum_range' hlt, Finset.sum_range_succ, Finset.sum_range_zero]
  field_simp
  ring

variable {input : Nat → K} {c : Nat}

/-- Affine samples are continued by all midpoints. -/
theorem upsampledAt_affine [CharZero K] {a b : K} {m : Nat} (hm : m < 2 * inFrames - 1) (hc : c < 2)
    (h : ∀ n < inFrames, input (n * 2 + c) = a * n + b) :
  upsampledAt (exactMidpoints K) input inFrames (m * 2 + c) = a * (m / 2) + b
  := by
  rw [upsampledAt_frame _ _ _ _ hc]
  obtain ⟨n, rfl | rfl⟩ : ∃ n, m = n * 2 ∨ m = n * 2 + 1 := ⟨m / 2, by omega⟩
  · rw [tapAt_copy, Tap.eval, h n (by omega)]
    push_cast
    field_simp
  · by_cases hinterior : 1 ≤ n ∧ n + 2 < inFrames
    · obtain ⟨k, rfl⟩ : ∃ k, n = k + 1 := ⟨n - 1, by omega⟩
      rw [tapAt_cubic c hinterior.1 hinterior.2, Tap.eval, h _ (by omega), h _ (by omega),
        h _ (by omega), h _ (by omega), Nat.add_sub_cancel]
      simp only [exactMidpoints]
      push_cast
      field_simp
      ring
    · rw [tapAt_lerp c (by omega), Tap.eval, h _ (by omega), h _ (by omega)]
      simp only [exactMidpoints]
      push_cast
      field_simp
      ring

/-- Cubic samples are continued by the midpoints with two frames on each side. -/
theorem upsampledAt_cubic [CharZero K] {p : K[X]} {n : Nat} (hprev : 1 ≤ n) (hnn : n + 2 < inFrames)
    (hc : c < 2) (hdegree : p.natDegree ≤ 3)
    (h : ∀ n < inFrames, input (n * 2 + c) = p.eval (n : K)) :
  upsampledAt (exactMidpoints K) input inFrames ((n * 2 + 1) * 2 + c) = p.eval (n + 1 / 2 : K)
  := by
  obtain ⟨k, rfl⟩ : ∃ k, n = k + 1 := ⟨n - 1, by omega⟩
  rw [upsampledAt_frame _ _ _ _ hc, tapAt_cubic c hprev hnn, Tap.eval, h _ (by omega),
    h _ (by omega), h _ (by omega), h _ (by omega), Nat.add_sub_cancel]
  have hnext : ((k + 1 + 1 : Nat) : K) = k + 2 := by
    push_cast
    ring
  have hnn : ((k + 1 + 2 : Nat) : K) = k + 3 := by
    push_cast
    ring
  rw [hnext, hnn, Nat.cast_succ]
  apply exactMidpoints_cubic hdegree

/-! ### The law of the upsampler -/

/-- What the upsampling of a chunk promises in exact arithmetic. -/
structure UpsampleLaw (K : Type*) [Field K] (inFrames : Nat) (u : Upsampling) : Prop where
  returned : u.frames = 2 * inFrames - 1
  written : ∀ m c, c < 2 → (m * 2 + c ∈ written u.stores ↔ m < 2 * inFrames - 1)
  unwritten : ∀ (input out : Nat → K) (m c : Nat), c < 2 → 2 * inFrames - 1 ≤ m →
    u.output (exactMidpoints K) input out (m * 2 + c) = out (m * 2 + c)
  copies : ∀ (input out : Nat → K) (n c : Nat), n < inFrames → c < 2 →
    u.output (exactMidpoints K) input out (2 * n * 2 + c) = input (n * 2 + c)
  affine : ∀ (input out : Nat → K) (a b : K) (c : Nat), c < 2 →
    (∀ n < inFrames, input (n * 2 + c) = a * n + b) → ∀ m < 2 * inFrames - 1,
      u.output (exactMidpoints K) input out (m * 2 + c) = a * (m / 2) + b
  cubic : ∀ (input out : Nat → K) (p : K[X]) (c : Nat), c < 2 → p.natDegree ≤ 3 →
    (∀ n < inFrames, input (n * 2 + c) = p.eval (n : K)) → ∀ n, 1 ≤ n → n + 2 < inFrames →
      u.output (exactMidpoints K) input out ((2 * n + 1) * 2 + c) = p.eval (n + 1 / 2 : K)
  channels : ∀ (input input' out out' : Nat → K) (c : Nat), c < 2 →
    (∀ n < inFrames, input (n * 2 + c) = input' (n * 2 + c)) → ∀ m < 2 * inFrames - 1,
      u.output (exactMidpoints K) input out (m * 2 + c)
        = u.output (exactMidpoints K) input' out' (m * 2 + c)

/-- A chunk is upsampled to the original frames with exact midpoints between them, those at
the edges up to degree one and the others up to degree three. -/
theorem upsample2xStereoF32_law (K : Type*) [Field K] [CharZero K] {inFrames outCap : Nat}
    (h2 : 2 ≤ inFrames) (hlt : inFrames < 2 ^ 30) (hcap : 2 * inFrames ≤ outCap) :
  UpsampleLaw K inFrames (upsample2xStereoF32 true inFrames true outCap)
  := by
  rw [upsample2xStereoF32_eq h2 hlt hcap]
  constructor
  · rfl
  · intro m c hc
    rw [written_upsampleStores h2 hlt]
    omega
  · intro input out m c hc hm
    apply output_of_ge h2 hlt
    omega
  · intro input out n c hn hc
    rw [output_of_lt h2 hlt (by omega), upsampledAt_frame _ _ _ _ hc, Nat.mul_comm 2 n, tapAt_copy,
      Tap.eval]
  · intro input out a b c hc h m hm
    rw [output_of_lt h2 hlt (by omega), upsampledAt_affine hm hc h]
  · intro input out p c hc hdegree h n hprev hnn
    rw [output_of_lt h2 hlt (by omega), Nat.mul_comm 2 n, upsampledAt_cubic hprev hnn hc hdegree h]
  · intro input input' out out' c hc h m hm
    rw [output_of_lt h2 hlt (by omega), output_of_lt h2 hlt (by omega), upsampledAt_congr _ hm hc h]

/-- A chunk of four frames. -/
theorem upsample2xStereoF32_law_four :
  UpsampleLaw ℚ 4 (upsample2xStereoF32 true 4 true 8)
  := upsample2xStereoF32_law ℚ (by decide) (by decide) (by decide)

end Exact

end Ssc
