import Mathlib.Data.Set.Basic
import SscOnWindows.Pipeline.SbcFrames

/-!
# The clock of upsampled audio

In UHQ the stereo capture at 48 kHz is upsampled chunk by chunk.  A chunk of `n` frames gives
`2n - 1`, for there is no frame behind its last one to interpolate to, and a chunk of one frame
gives none.  What is lost adds up over the chunks, so that the output keeps up with twice the
capture over a set of cuttings only when these have a bounded number of chunks.
-/

namespace Ssc

open Blocks

/-- The UHQ path: float stereo at 48 kHz, encoded at 96 kHz. -/
structure UhqConfig extends ChunkConfig where
  channels_eq : channels = 2
  bitsPerSample_eq : bitsPerSample = 32
  sampleRate_eq : sampleRate = 48000
  encodeSampleRate_eq : encodeSampleRate = 96000

/-- A cutting of the capture into chunks of at least one frame each. -/
structure Cutting (cfg : UhqConfig) where
  chunks : List (List UInt8)
  whole : ∀ chunk ∈ chunks, cfg.frameBytes ∣ chunk.length
  nonempty : ∀ chunk ∈ chunks, chunk ≠ []

namespace Program

/-- The PCM the program makes of a chunk. -/
def pcm (program : Program) (cfg : ChunkConfig) (bytes : List UInt8) : Option (List UInt8) :=
  match program with
  | service => cfg.servicePcm bytes
  | cli => cfg.cliPcm bytes

/-- The number of frames the program passes on to the conversion. -/
def passed (program : Program) (cfg : ChunkConfig) (bytes : List UInt8) : ℕ :=
  let frames := bytes.length / cfg.frameBytes
  match program with
  | service => if cfg.upsampled then upsampledFrames frames else frames
  | cli => if cfg.cliUpsampled then upsampledFrames frames else frames

/-- The encoder is fed with the PCM of these frames. -/
theorem feed_eq (program : Program) (cfg : ChunkConfig) (feed : EncoderFeed)
    (bytes : List UInt8) :
  program.feed cfg feed bytes = feed.feed cfg (program.passed cfg bytes) (program.pcm cfg bytes)
  := by cases program with | service | cli => rfl

end Program

namespace Cutting

variable {cfg : UhqConfig}

/-- The frames that have been captured. -/
def captured (cutting : Cutting cfg) : ℕ :=
  cutting.chunks.flatten.length / cfg.frameBytes

/-- The frames that are passed on to the conversion. -/
def passed (program : Program) (cutting : Cutting cfg) : ℕ :=
  (cutting.chunks.map (program.passed cfg.toChunkConfig)).sum

/-- How far the output is from twice the capture. -/
def drift (program : Program) (cutting : Cutting cfg) : ℕ :=
  ((2 * cutting.captured : ℤ) - cutting.passed program).natAbs

end Cutting

/-! ### The frames of the PCM -/

/-- The resampler writes stereo frames of floats. -/
theorem length_upsample2x {bytes : List UInt8} (h : 8 ∣ bytes.length) :
  (upsample2x bytes).length = upsampledFrames (bytes.length / 8) * (2 * 4)
  := by
  obtain ⟨n, hn⟩ := h
  have hcount : bytes.length / 8 = n := by omega
  rw [upsample2x, hcount, List.length_flatMap, List.map_congr_left (g := fun _ => 2 * 4)]
  · rw [List.map_const', List.sum_replicate_nat, List.length_range]
  · intro m hm
    have hlt : m / 2 < n := by
      rw [List.mem_range, upsampledFrames] at hm
      split at hm <;> omega
    have hsample (c : ℕ) (hc : c < 2) :
        ((bytes.drop ((m / 2 * 2 + c) * 4)).take 4).length = 4 := by
      apply List.length_take_of_le
      rw [List.length_drop]
      omega
    rw [List.flatMap_cons, List.flatMap_cons, List.flatMap_nil, List.append_nil,
      List.length_append]
    split
    · rw [hsample 0 (by decide), hsample 1 (by decide)]
    · rfl

namespace ChunkConfig

variable {cfg : ChunkConfig} {bytes : List UInt8}

/-- The encode thread converts the frames that are passed on. -/
theorem length_source (h : cfg.frameBytes ∣ bytes.length) :
  (if cfg.upsampled then upsample2x bytes else bytes).length
    = Program.service.passed cfg bytes * cfg.frameBytes
  := by
  rw [Program.passed]
  split
  next hupsampled =>
    obtain ⟨⟨-, hchannels⟩, hbits⟩ := by simpa [EncodeConfig.upsampled] using hupsampled
    have hframe : cfg.frameBytes = 8 := by rw [EncodeConfig.frameBytes, hchannels, hbits]
    rw [hframe] at h ⊢
    apply length_upsample2x h
  next => rw [Nat.div_mul_cancel h]

/-- The CLI converts the frames that are passed on, which it has mixed. -/
theorem length_cliSource (h32 : cfg.bitsPerSample = 32) (h : cfg.frameBytes ∣ bytes.length) :
  (if cfg.cliUpsampled then upsample2x (cfg.cliDownmix bytes) else cfg.cliDownmix bytes).length
    = Program.cli.passed cfg bytes * (cfg.activeChannels * 4)
  := by
  have hmixed : (cfg.cliDownmix bytes).length
      = bytes.length / cfg.frameBytes * (cfg.activeChannels * 4) := by
    rw [frameBytes_of_bits 4 h32] at h ⊢
    apply cfg.cliDownmix_framewise.length
    rw [Nat.div_mul_cancel h]
  rw [Program.passed]
  split
  next hupsampled =>
    have hactive : cfg.activeChannels = 2 := by
      have hout : cfg.outChannels = 2 := by
        have hall := hupsampled
        simp only [cliUpsampled, Bool.and_eq_true, decide_eq_true_eq] at hall
        apply hall.2
      rw [outChannels] at hout
      split at hout
      · apply hout
      · next hneed => rw [channels_eq (by simpa [needDownmix] using hneed), hout]
    rw [hactive] at hmixed ⊢
    rw [length_upsample2x ⟨_, by rw [hmixed, Nat.mul_comm]⟩, hmixed, Nat.mul_div_cancel _ (by decide)]
  next => apply hmixed

end ChunkConfig

/-- The PCM of whole frames has the frames that are passed on. -/
theorem Program.length_of_pcm (program : Program) {cfg : ChunkConfig} {bytes pcm : List UInt8}
    (h : cfg.frameBytes ∣ bytes.length) (hpcm : program.pcm cfg bytes = some pcm) :
  pcm.length = program.passed cfg bytes * (cfg.activeChannels * cfg.bytesPerSample)
  := by
  cases program with
  | service =>
      rw [Program.pcm, ChunkConfig.servicePcm] at hpcm
      cases cfg.serviceConvert_framewise with
      | inl hconvert =>
          obtain ⟨f, hf, hconvert⟩ := hconvert
          rw [hconvert, Option.map_some] at hpcm
          rw [← Option.some.inj hpcm]
          apply cfg.serviceDownmix_framewise.length
          apply hf.length _ _ (ChunkConfig.length_source h)
      | inr hnone =>
          rw [hnone, Option.map_none] at hpcm
          contradiction
  | cli =>
      rw [Program.pcm] at hpcm
      by_cases h32 : cfg.bitsPerSample = 32
      · have hlength := ChunkConfig.length_cliSource h32 h
        rw [ChunkConfig.cliPcm, if_pos h32] at hpcm
        dsimp only at hpcm
        cases cfg.width_eq with
        | inl hwidth =>
            rw [if_neg (by rw [hwidth]; decide)] at hpcm
            rw [← Option.some.inj hpcm, hwidth]
            apply (ChunkConfig.f32ToI16_framewise.mul _).length _ _ hlength
        | inr hwidth =>
            rw [if_pos hwidth] at hpcm
            rw [← Option.some.inj hpcm, hwidth]
            apply ((ChunkConfig.f32ToI32_framewise cfg.scale).mul _).length _ _ hlength
      · have hupsampled : cfg.cliUpsampled = false := by simp [ChunkConfig.cliUpsampled, h32]
        have hpassed : Program.cli.passed cfg bytes = bytes.length / cfg.frameBytes :=
          if_neg (by rw [hupsampled]; decide)
        rw [hpassed]
        cases ChunkConfig.cliPcm_framewise hupsampled with
        | inl hconvert =>
            obtain ⟨f, hf, hconvert⟩ := hconvert
            rw [hconvert] at hpcm
            rw [← Option.some.inj hpcm]
            apply hf.length
            rw [Nat.div_mul_cancel h]
        | inr hnone =>
            rw [hnone] at hpcm
            contradiction

/-! ### A chunk -/

section Chunk

variable (cfg : UhqConfig)

theorem UhqConfig.frameBytes_eq :
  cfg.frameBytes = 8
  := by rw [EncodeConfig.frameBytes, cfg.channels_eq, cfg.bitsPerSample_eq]

theorem UhqConfig.upsampled_eq :
  cfg.upsampled = true
  := by
  simp [EncodeConfig.upsampled, cfg.encodeSampleRate_eq, cfg.channels_eq, cfg.bitsPerSample_eq]

theorem UhqConfig.activeChannels_eq :
  cfg.activeChannels = 2
  := by rw [cfg.active_eq, cfg.channels_eq, if_neg (by decide)]

theorem UhqConfig.needDownmix_eq :
  cfg.needDownmix = false
  := by simp [ChunkConfig.needDownmix, cfg.channels_eq, cfg.activeChannels_eq]

theorem UhqConfig.cliUpsampled_eq :
  cfg.cliUpsampled = true
  := by
  simp [ChunkConfig.cliUpsampled, ChunkConfig.outChannels, cfg.needDownmix_eq,
    cfg.encodeSampleRate_eq, cfg.channels_eq, cfg.bitsPerSample_eq]

/-- Both programs pass on what the resampler returns. -/
theorem Program.passed_eq (program : Program) (bytes : List UInt8) :
  program.passed cfg.toChunkConfig bytes = upsampledFrames (bytes.length / 8)
  := by
  rw [← cfg.frameBytes_eq]
  cases program with
  | service => exact if_pos cfg.upsampled_eq
  | cli => exact if_pos cfg.cliUpsampled_eq

/-- There is PCM, and it has the frames that are passed on. -/
theorem Program.length_pcm (program : Program) {bytes : List UInt8} (h : 8 ∣ bytes.length) :
  (program.pcm cfg.toChunkConfig bytes).map List.length
    = some (program.passed cfg.toChunkConfig bytes * (cfg.activeChannels * cfg.bytesPerSample))
  := by
  have hpcm : ∃ pcm, program.pcm cfg.toChunkConfig bytes = some pcm := by
    cases program with
    | service =>
        rw [pcm, ChunkConfig.servicePcm, ChunkConfig.serviceConvert, if_pos cfg.bitsPerSample_eq]
        split <;> exact ⟨_, rfl⟩
    | cli =>
        rw [pcm, ChunkConfig.cliPcm, if_pos cfg.bitsPerSample_eq]
        dsimp only
        split <;> exact ⟨_, rfl⟩
  obtain ⟨pcm, hpcm⟩ := hpcm
  rw [← cfg.frameBytes_eq] at h
  rw [hpcm, Option.map_some, program.length_of_pcm h hpcm]

end Chunk

/-- The frames a chunk loses. -/
def lostFrames (bytes : List UInt8) : ℕ :=
  if bytes.length / 8 = 1 then 2 else 1

theorem upsampledFrames_add {n : ℕ} (h : 0 < n) :
  upsampledFrames n + (if n = 1 then 2 else 1) = 2 * n
  := by
  rw [upsampledFrames]
  split
  · rw [if_pos (by omega)]
    omega
  · rw [if_neg (by omega)]
    omega

/-! ### Cuttings -/

namespace Cutting

variable {cfg : UhqConfig}

/-- The frames that are lost. -/
def lost (cutting : Cutting cfg) : ℕ :=
  (cutting.chunks.map lostFrames).sum

/-- Every chunk loses one or two frames. -/
theorem lost_mem (cutting : Cutting cfg) :
  cutting.chunks.length ≤ cutting.lost ∧ cutting.lost ≤ 2 * cutting.chunks.length
  := by
  rw [lost]
  induction cutting.chunks with
  | nil => exact ⟨Nat.le_refl _, Nat.le_refl _⟩
  | cons chunk chunks ih =>
      rw [List.map_cons, List.sum_cons, List.length_cons, lostFrames]
      split
      · omega
      · omega

theorem sum_passed_add_lost (program : Program) {chunks : List (List UInt8)}
    (hwhole : ∀ chunk ∈ chunks, 8 ∣ chunk.length) (hnonempty : ∀ chunk ∈ chunks, chunk ≠ []) :
  (chunks.map (program.passed cfg.toChunkConfig)).sum + (chunks.map lostFrames).sum
      = 2 * (chunks.flatten.length / 8)
    ∧ 8 ∣ chunks.flatten.length
  := by
  induction chunks with
  | nil => simp
  | cons chunk chunks ih =>
      obtain ⟨hchunk, hrest⟩ := List.forall_mem_cons.mp hwhole
      obtain ⟨hsome, hsomes⟩ := List.forall_mem_cons.mp hnonempty
      obtain ⟨hsum, hdvd⟩ := ih hrest hsomes
      have hpos := List.length_pos_iff.mpr hsome
      have hframes : 0 < chunk.length / 8 := by omega
      have hadd := upsampledFrames_add hframes
      rw [List.map_cons, List.map_cons, List.sum_cons, List.sum_cons, List.flatten_cons,
        List.length_append, Program.passed_eq, lostFrames]
      constructor
      · omega
      · apply Nat.dvd_add hchunk hdvd

/-- What is passed on and what is lost is twice the capture. -/
theorem passed_add_lost (program : Program) (cutting : Cutting cfg) :
  cutting.passed program + cutting.lost = 2 * cutting.captured
  := by
  have hwhole := cutting.whole
  rw [cfg.frameBytes_eq] at hwhole
  rw [captured, cfg.frameBytes_eq]
  apply (sum_passed_add_lost program hwhole cutting.nonempty).1

theorem drift_eq_lost (program : Program) (cutting : Cutting cfg) :
  cutting.drift program = cutting.lost
  := by
  have h := cutting.passed_add_lost program
  rw [drift]
  omega

end Cutting

/-- Over a set of cuttings the frames passed on are twice the capture up to a constant exactly
when the numbers of chunks are bounded. -/
theorem drift_bounded_iff (program : Program) (cfg : UhqConfig) (cuttings : Set (Cutting cfg)) :
  (∃ bound, ∀ cutting ∈ cuttings, cutting.drift program ≤ bound)
    ↔ ∃ count, ∀ cutting ∈ cuttings, cutting.chunks.length ≤ count
  := by
  constructor
  · rintro ⟨bound, hbound⟩
    use bound
    intro cutting hcutting
    apply cutting.lost_mem.1.trans
    rw [← cutting.drift_eq_lost program]
    apply hbound cutting hcutting
  · rintro ⟨count, hcount⟩
    use 2 * count
    intro cutting hcutting
    rw [cutting.drift_eq_lost program]
    apply cutting.lost_mem.2.trans
    apply Nat.mul_le_mul_left _ (hcount cutting hcutting)

/-- UHQ with 32-bit samples for the encoder. -/
def uhq : UhqConfig where
  toChunkConfig :=
    { stereo16 with
      bitsPerSample := 32
      encodeSampleRate := 96000
      pcmFramesPerEncode := 864
      positive := by decide
      scale := 536870912 }
  channels_eq := rfl
  bitsPerSample_eq := rfl
  sampleRate_eq := rfl
  encodeSampleRate_eq := rfl

/-- `n` chunks of two frames. -/
def twoByTwo (n : ℕ) : Cutting uhq where
  chunks := List.replicate n (List.replicate 16 0)
  whole chunk hchunk := by
    rw [List.eq_of_mem_replicate hchunk]
    decide
  nonempty chunk hchunk := by
    rw [List.eq_of_mem_replicate hchunk]
    nofun

/-- No constant is enough for all cuttings. -/
theorem not_drift_bounded :
  ¬ ∃ bound, ∀ cutting : Cutting uhq, cutting.drift .service ≤ bound
  := by
  rintro ⟨bound, hbound⟩
  have hdrift := hbound (twoByTwo (bound + 1))
  have hlost := (twoByTwo (bound + 1)).lost_mem.1
  rw [Cutting.drift_eq_lost] at hdrift
  have hcount : (twoByTwo (bound + 1)).chunks.length = bound + 1 := List.length_replicate
  omega

end Ssc
