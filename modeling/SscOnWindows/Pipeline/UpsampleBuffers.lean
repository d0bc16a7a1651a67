import SscOnWindows.Pipeline.Resampler

/-!
# The buffers of the upsampler

The encode thread of the service and the callback of the CLI give the upsampler a buffer for
its output.  Both compute the same number from the frames of the chunk; the service takes it
for bytes, and the CLI for floats, in a vector that is kept from chunk to chunk and never
shrinks.
-/

namespace Ssc

open Stores

/-- The size of `src_float`, in floats, behind the chunks that have been upsampled, the last
one first. -/
def srcFloatSize : List Nat → Nat
  | [] => 0
  | frames :: earlier =>
      if srcFloatSize earlier < u32 (frames * 8) then u32 (frames * 8) else srcFloatSize earlier

/-- The two places `upsample_2x_stereo_f32` is called from.  The CLI has upsampled the chunks
`earlier` before, the last one first. -/
inductive UpsampleSite where
  | service
  | cli (earlier : List Nat)
  deriving DecidableEq, Repr

/-- A chunk of stereo frames at one of the sites.  The service takes it from its ring, whose
bytes are counted in a `uint32_t`. -/
structure UpsampleCall where
  site : UpsampleSite
  frames : Nat
  two_le : 2 ≤ frames
  frames_lt : frames < 2 ^ 32
  ring_lt : site = .service → frames * 8 < 2 ^ 32

namespace UpsampleCall

variable {call : UpsampleCall}

/-- The number of floats in the buffer for the output. -/
def bufferFloats (call : UpsampleCall) : Nat :=
  match call.site with
  | .service => u32 (call.frames * 8) / 4
  | .cli earlier => srcFloatSize (call.frames :: earlier)

/-- The call of the upsampler.  The data of an empty vector is a null pointer. -/
def upsampling (call : UpsampleCall) : Upsampling :=
  upsample2xStereoF32 true call.frames (call.bufferFloats != 0) (u32 (call.frames * 2))

/-- The number of samples the caller converts next. -/
def convertedSamples (call : UpsampleCall) : Nat :=
  u32 (call.upsampling.frames * 2)

/-- The call reads inside the chunk and writes inside the buffer, and what the caller converts
has been written. -/
structure BuffersLaw (call : UpsampleCall) : Prop where
  reads : ∀ s ∈ call.upsampling.stores, ∀ i ∈ s.value.reads, i < 2 * call.frames
  writes : ∀ s ∈ call.upsampling.stores, s.index < call.bufferFloats
  converted : ∀ j < call.convertedSamples, j ∈ written call.upsampling.stores

/-! ### The sizes of the buffers -/

theorem u32_mul_eight_le (frames : Nat) :
  u32 (frames * 8) ≤ 2 ^ 32 - 8
  := by
  rw [u32]
  omega

theorem srcFloatSize_le (chunks : List Nat) :
  srcFloatSize chunks ≤ 2 ^ 32 - 8
  := by
  induction chunks with
  | nil => apply Nat.zero_le
  | cons frames earlier ih =>
      rw [srcFloatSize]
      split
      · apply u32_mul_eight_le
      · apply ih

theorem le_srcFloatSize (frames : Nat) (earlier : List Nat) :
  u32 (frames * 8) ≤ srcFloatSize (frames :: earlier)
  := by
  rw [srcFloatSize]
  split <;> omega

theorem bufferFloats_le (call : UpsampleCall) :
  call.bufferFloats ≤ 2 ^ 32 - 8
  := by
  rw [bufferFloats]
  split
  · apply Nat.le_trans (Nat.div_le_self _ _) (u32_mul_eight_le _)
  · apply srcFloatSize_le

/-- The buffer of the service has room for as many floats as the chunk has. -/
theorem bufferFloats_service (h : call.site = .service) :
  call.bufferFloats = 2 * call.frames
  := by
  have hlt := call.ring_lt h
  rw [bufferFloats, h]
  dsimp only
  rw [u32_of_lt hlt]
  omega

/-! ### What is written -/

/-- With a buffer the chunk is upsampled. -/
theorem upsampling_eq (h : call.bufferFloats ≠ 0) :
  call.upsampling
    = ⟨u32 (u32 (call.frames * 2) + (2 ^ 32 - 1)), upsampleStores call.frames⟩
  := by
  have htwo := call.two_le
  rw [upsampling, upsample2xStereoF32, bne_iff_ne.mpr h, if_neg (by simp; omega), if_neg (by omega)]

/-- Without a buffer nothing is done. -/
theorem upsampling_eq_nil (h : call.bufferFloats = 0) :
  call.upsampling = ⟨0, []⟩
  := by
  rw [upsampling, upsample2xStereoF32, h, if_pos (by simp)]

/-- The copy of the right sample of an input frame. -/
theorem index_mem_written (n frames : Nat) (hn : n < frames) (hlt : n < 2 ^ 30) :
  4 * n + 1 ∈ written (upsampleStores frames)
  := by
  use ⟨u32 (n * 2 * 2 + 1), .copy (u32 (n * 2 + 1))⟩
  constructor
  · simp only [upsampleStores, List.mem_append]
    left; left; left
    rw [copyPass, List.mem_flatMap]
    use n, List.mem_range.mpr hn
    apply List.mem_cons_of_mem _ List.mem_cons_self
  · dsimp only
    rw [u32_of_lt (by omega)]
    omega

/-- The samples of the chunk that are read. -/
theorem reads_tapAt {frames m c : Nat} (hm : m < 2 * frames - 1) (hc : c < 2) :
  ∀ i ∈ (tapAt frames m c).reads, i < 2 * frames
  := by
  rw [tapAt]
  split
  · simp only [Tap.reads, List.forall_mem_cons]
    simp
    omega
  · split
    · simp only [Tap.reads, List.forall_mem_cons]
      simp
      omega
    · simp only [Tap.reads, List.forall_mem_cons]
      simp
      omega

/-- Only a buffer for two floats less than four for every frame is written inside its
bounds. -/
theorem BuffersLaw.fits (hlaw : call.BuffersLaw) (h : call.bufferFloats ≠ 0) :
  4 * call.frames - 2 ≤ call.bufferFloats
  := by
  have htwo := call.two_le
  have hle := call.bufferFloats_le
  have hwrites := hlaw.writes
  rw [upsampling_eq h] at hwrites
  by_cases hlt : call.frames < 2 ^ 30
  · obtain ⟨s, hs, hi⟩ := index_mem_written (call.frames - 1) call.frames (by omega) (by omega)
    have hin := hwrites s hs
    omega
  · obtain ⟨s, hs, hi⟩ := index_mem_written (2 ^ 30 - 1) call.frames (by omega) (by omega)
    have hin := hwrites s hs
    omega

/-- Such a buffer is enough. -/
theorem buffersLaw_of_fits (h : 4 * call.frames - 2 ≤ call.bufferFloats) :
  call.BuffersLaw
  := by
  have htwo := call.two_le
  have hle := call.bufferFloats_le
  have hlt : call.frames < 2 ^ 30 := by omega
  have hup : call.upsampling = ⟨2 * call.frames - 1, upsampleStores call.frames⟩ := by
    have hdouble : u32 (call.frames * 2) = call.frames * 2 := u32_of_lt (by omega)
    have hsub : u32 (call.frames * 2 + (2 ^ 32 - 1)) = 2 * call.frames - 1 := by
      rw [u32]
      omega
    rw [upsampling_eq (by omega), hdouble, hsub]
  constructor
  · rw [hup]
    intro s hs
    obtain ⟨m, c, hm, hc, rfl⟩ := (mem_upsampleStores_iff htwo hlt).mp hs
    apply reads_tapAt hm hc
  · rw [hup]
    intro s hs
    obtain ⟨m, c, hm, hc, rfl⟩ := (mem_upsampleStores_iff htwo hlt).mp hs
    dsimp only
    omega
  · rw [convertedSamples, hup]
    intro j hj
    rw [written_upsampleStores htwo hlt]
    dsimp only at hj
    rw [u32_of_lt (by omega)] at hj
    omega

/-- Without a buffer nothing is read, written or converted. -/
theorem buffersLaw_of_zero (h : call.bufferFloats = 0) :
  call.BuffersLaw
  := by
  constructor
  · rw [upsampling_eq_nil h]
    intro s hs
    cases hs
  · rw [upsampling_eq_nil h]
    intro s hs
    cases hs
  · rw [convertedSamples, upsampling_eq_nil h]
    intro j hj
    cases hj

/-- The buffers hold what is written to them exactly in the CLI, when its vector is empty or
has two floats less than four for every frame. -/
theorem buffersLaw_iff (call : UpsampleCall) :
  call.BuffersLaw
    ↔ call.site ≠ .service
      ∧ (call.bufferFloats = 0 ∨ 4 * call.frames - 2 ≤ call.bufferFloats)
  := by
  have htwo := call.two_le
  constructor
  · intro hlaw
    constructor
    · intro hsite
      have hservice := bufferFloats_service hsite
      have hfits := hlaw.fits (by omega)
      omega
    · by_cases hzero : call.bufferFloats = 0
      · left
        apply hzero
      · right
        apply hlaw.fits hzero
  · rintro ⟨-, hzero | hfits⟩
    · apply buffersLaw_of_zero hzero
    · apply buffersLaw_of_fits hfits

/-- In the CLI a chunk whose bytes are counted by a `uint32_t` has room. -/
theorem buffersLaw_cli {earlier : List Nat} (hsite : call.site = .cli earlier)
    (hlt : call.frames < 2 ^ 29) :
  call.BuffersLaw
  := by
  apply buffersLaw_of_fits
  have hle := le_srcFloatSize call.frames earlier
  rw [u32_of_lt (by omega)] at hle
  rw [bufferFloats, hsite]
  dsimp only
  omega

/-- The chunk of 480 frames the service takes every ten milliseconds. -/
def tenMilliseconds : UpsampleCall where
  site := .service
  frames := 480
  two_le := by decide
  frames_lt := by decide
  ring_lt _ := by decide

/-- The service upsamples it into a buffer of 960 floats, and the last frame is stored behind
it. -/
theorem not_buffersLaw_tenMilliseconds :
  ¬ tenMilliseconds.BuffersLaw
  := by
  intro hlaw
  have hfits := hlaw.fits (by decide)
  apply absurd hfits
  decide

end UpsampleCall

end Ssc

