import SscOnWindows.Lib.Binary32
import SscOnWindows.Pipeline.Downmix
import SscOnWindows.Pipeline.UpsampledClock

/-!
# The scale of the PCM

The encoder of SSC takes samples of 32 bits, in which `2 ^ 29` is the full level.  There are
four places where the two programs make them: from floats, which are clamped to the full level
and scaled; from the 16-bit samples of a capture, one by one, in either program; and, in the CLI,
from the frames of 16-bit samples that are mixed to stereo.  The places for integers shift their
samples to the upper half of the 32 bits instead.

Floats are those of the IEEE format, with its order.  The scale is a power of two, so that a
`double` holds the scaled float exactly and nothing is rounded.
-/

namespace Ssc

open Blocks ByteStream Binary32

/-- What the conversion of `convert_f32_to_i32` and of `convert_float32_to_int32` makes of a float
with the scale of SSC.  Of a float that is no number it is undefined. -/
def f32ToQ29 (s : Float32) : Option Int :=
  (value (clampSample s)).map fun q => truncate (q * 2 ^ 29)

/-- What a sample is made of: a float, a 16-bit sample, or a frame of 16-bit samples with the
channels that are mixed. -/
inductive PcmSource where
  | float (s : Float32)
  | int16 (v : Int)
  | mix (frame : List UInt8) (front back side : Nat)

/-- The level of a mix, in thousandths of the level of a 16-bit sample. -/
def mixThousandths (frame : List UInt8) (front back side : Nat) : Int :=
  1000 * sampleAt 1 frame front + 707 * sampleAt 1 frame 2
    + 707 * (sampleAt 1 frame back + sampleAt 1 frame side) + 500 * sampleAt 1 frame 3

namespace PcmSource

/-- The sample that is made. -/
def sample : PcmSource → Option Int
  | float s => f32ToQ29 s
  | int16 v => some (v * 2 ^ 16)
  | mix frame front back side => some (mixSide (2 ^ 16) (2 ^ 31) frame front back side)

/-- The bytes of the sample. -/
def bytes (src : PcmSource) : List UInt8 :=
  le32 ((src.sample.getD 0) % 2 ^ 32).toNat

/-- What is promised of a sample: it is in its range, a 16-bit sample has the level of the float
with its value, and a mix has its level, up to three quotients that are truncated, as far as the
range allows. -/
structure InScale (src : PcmSource) : Prop where
  range : ∃ x, src.sample = some x ∧ -2 ^ 29 ≤ x ∧ x ≤ 2 ^ 29
  level : ∀ v, src = int16 v → src.sample = some (v * 2 ^ 14)
  float : ∀ v s, src = int16 v → value s = some ((v : ℚ) / 2 ^ 15) → src.sample = f32ToQ29 s
  mixed : ∀ frame front back side x, src = mix frame front back side → src.sample = some x →
    |1000 * x - 2 ^ 14 * max (-(1000 * 2 ^ 15))
      (min (1000 * 2 ^ 15) (mixThousandths frame front back side))| < 3000

/-- A float is a number or infinite, and integers are silent. -/
def Harmless : PcmSource → Prop
  | float s => s.isNaN = false
  | int16 v => v = 0
  | mix frame front back side => mixThousandths frame front back side = 0

end PcmSource

/-! ### The programs -/

/-- A capture for the encoder of SSC. -/
structure SscPcmConfig extends ChunkConfig where
  bytesPerSample_eq : bytesPerSample = 4
  scale_eq : scale = 536870912

namespace ChunkConfig

/-- The channels the encode thread keeps. -/
def kept {α : Type*} (cfg : ChunkConfig) (samples : List α) : List α :=
  if cfg.channels > cfg.activeChannels then
    mapBlocks cfg.channels (fun frame => frame.take cfg.activeChannels) samples
  else samples

/-- What the samples of a chunk are made of in the encode thread. -/
def serviceSources (cfg : ChunkConfig) (chunk : List UInt8) : List PcmSource :=
  if cfg.bitsPerSample = 32 then
    cfg.kept ((blocks 4 (if cfg.upsampled then upsample2x chunk else chunk)).map
      fun sample => .float (f32 sample))
  else if cfg.bitsPerSample = 16 then
    cfg.kept ((blocks 2 chunk).map fun sample => .int16 (signed16 (ofLe sample)))
  else []

/-- What they are made of in `audio_callback`. -/
def cliSources (cfg : ChunkConfig) (chunk : List UInt8) : List PcmSource :=
  if cfg.bitsPerSample = 32 then
    let mixed := cfg.cliDownmix chunk
    (blocks 4 (if cfg.cliUpsampled then upsample2x mixed else mixed)).map
      fun sample => .float (f32 sample)
  else if cfg.bitsPerSample = 16 then
    if cfg.needDownmix && cfg.activeChannels = 2 then
      (blocks (cfg.channels * 2) chunk).flatMap fun frame => [.mix frame 0 4 6, .mix frame 1 5 7]
    else (blocks 2 chunk).map fun sample => .int16 (signed16 (ofLe sample))
  else []

/-- What the samples of a chunk are made of. -/
def sources (cfg : ChunkConfig) : Program → List UInt8 → List PcmSource
  | .service => cfg.serviceSources
  | .cli => cfg.cliSources

/-- What the samples in the blocks for the encoder are made of, behind some chunks. -/
def handedSources (cfg : ChunkConfig) (program : Program) (chunks : List (List UInt8)) :
    List PcmSource :=
  let all := chunks.flatMap (cfg.sources program)
  let block := cfg.pcmFramesPerEncode * cfg.activeChannels
  all.take (all.length / block * block)

end ChunkConfig

/-- What the encoder has got behind some chunks. -/
def Program.feeds (program : Program) (cfg : ChunkConfig) (chunks : List (List UInt8)) :
    EncoderFeed :=
  chunks.foldl (program.feed cfg) {}

/-- The samples that are handed to the encoder are in scale. -/
structure ScaleLaw (cfg : SscPcmConfig) (program : Program)
    (callbacks : List (Callback UInt8 cfg.frameBytes)) : Prop where
  handed : (program.feeds cfg.toChunkConfig (callbacks.map Callback.data)).handed.flatten
    = (cfg.handedSources program (callbacks.map Callback.data)).flatMap PcmSource.bytes
  inScale : ∀ src ∈ cfg.handedSources program (callbacks.map Callback.data), src.InScale

/-! ### Floats -/

theorem value_one :
  value 1.0 = some 1
  := by
  have hunpack : (1.0 : Float32).toModel.unpack = .finite .positive (2 ^ 23) (-23) (by decide) := rfl
  rw [value, hunpack, unpackedValue, apply_positive]
  norm_num

theorem value_neg_one :
  value (-1.0) = some (-1)
  := by
  have hunpack : (-1.0 : Float32).toModel.unpack = .finite .negative (2 ^ 23) (-23) (by decide) :=
    rfl
  rw [value, hunpack, unpackedValue, apply_negative]
  norm_num

/-- A number is clamped to the full level. -/
theorem value_clampSample {s : Float32} {q : ℚ} (h : value s = some q) :
  value (clampSample s) = some (max (-1) (min 1 q))
  := by
  have hgreater : s > 1.0 ↔ 1 < q := lt_iff_value value_one h
  have hless : s < -1.0 ↔ q < -1 := lt_iff_value h value_neg_one
  have hone : ¬ (1.0 : Float32) < -1.0 := by
    rw [lt_iff_value value_one value_neg_one]
    norm_num
  rw [clampSample]
  by_cases habove : 1 < q
  · rw [if_pos (hgreater.mpr habove), if_neg hone, value_one, min_eq_left habove.le]
    norm_num
  · rw [if_neg (mt hgreater.mp habove), min_eq_right (not_lt.mp habove)]
    by_cases hbelow : q < -1
    · rw [if_pos (hless.mpr hbelow), value_neg_one, max_eq_left hbelow.le]
    · rw [if_neg (mt hless.mp hbelow), h, max_eq_right (not_lt.mp hbelow)]

/-- What is no number stays so. -/
theorem clampSample_of_isNaN {s : Float32} (h : s.isNaN = true) :
  clampSample s = s
  := by
  have hgreater : ¬ s > 1.0 := (not_lt_of_isNaN h 1.0).2
  rw [clampSample, if_neg hgreater, if_neg (not_lt_of_isNaN h (-1.0)).1]

/-- A float that is a number or infinite is clamped to a level. -/
theorem exists_value_clampSample {s : Float32} (h : s.isNaN = false) :
  ∃ q, value (clampSample s) = some q ∧ -1 ≤ q ∧ q ≤ 1
  := by
  cases hvalue : value s with
  | some q =>
      use max (-1) (min 1 q), value_clampSample hvalue, le_max_left _ _
      apply max_le
      · norm_num
      · apply min_le_left
  | none =>
      have hone : ¬ (1.0 : Float32) < -1.0 := by
        rw [lt_iff_value value_one value_neg_one]
        norm_num
      rw [clampSample]
      rcases infinite_of_value hvalue h with habove | hbelow
      · have hgreater : s > 1.0 := (habove _ _ value_one).1
        rw [if_pos hgreater, if_neg hone]
        use 1, value_one
        norm_num
      · have hgreater : ¬ s > 1.0 := (hbelow _ _ value_one).2
        rw [if_neg hgreater, if_pos (hbelow _ _ value_neg_one).1]
        use -1, value_neg_one
        norm_num

/-- The samples of floats are in their range, unless they are undefined. -/
theorem f32ToQ29_mem_iff (s : Float32) :
  (∃ x, f32ToQ29 s = some x ∧ -2 ^ 29 ≤ x ∧ x ≤ 2 ^ 29) ↔ s.isNaN = false
  := by
  rw [f32ToQ29]
  cases h : s.isNaN with
  | true =>
      rw [clampSample_of_isNaN h, value_of_isNaN h]
      simp
  | false =>
      obtain ⟨q, hq, hlo, hhi⟩ := exists_value_clampSample h
      rw [hq]
      apply iff_of_true _ rfl
      use truncate (q * 2 ^ 29), rfl
      have hrange := truncate_mem (q := q * 2 ^ 29) (n := 2 ^ 29)
        (by push_cast; linarith) (by push_cast; linarith)
      apply hrange

/-- The float with the value of a 16-bit sample is scaled to the level of that sample. -/
theorem f32ToQ29_of_value {s : Float32} {v : Int} (hlo : -2 ^ 15 ≤ v) (hhi : v ≤ 2 ^ 15)
    (h : value s = some ((v : ℚ) / 2 ^ 15)) :
  f32ToQ29 s = some (v * 2 ^ 14)
  := by
  have hlevel : max (-1) (min 1 ((v : ℚ) / 2 ^ 15)) = (v : ℚ) / 2 ^ 15 := by
    have hmin : (-2 ^ 15 : ℚ) ≤ v := by exact_mod_cast hlo
    have hmax : (v : ℚ) ≤ 2 ^ 15 := by exact_mod_cast hhi
    rw [min_eq_right, max_eq_right]
    · linarith
    · linarith
  have hscaled : (v : ℚ) / 2 ^ 15 * 2 ^ 29 = ((v * 2 ^ 14 : ℤ) : ℚ) := by
    push_cast
    ring
  rw [f32ToQ29, value_clampSample h, hlevel, Option.map_some, hscaled, truncate_intCast]

/-- A `double` holds a float that is scaled by a power of two. -/
theorem scaleF32_eq (s : Float32) :
  scaleF32 536870912 s = f32ToQ29 s
  := by
  rw [scaleF32, f32ToQ29]
  cases hq : value (clampSample s) with
  | none => rfl
  | some q =>
      obtain ⟨m, e, hm, rfl⟩ := exists_of_value hq
      have hscale : ((536870912 : ℕ) : ℚ) = 2 ^ 29 := by norm_num
      have hscaled : (m * 2 ^ e : ℚ) * 2 ^ 29 = m * 2 ^ (e + 29) := by
        rw [zpow_add₀ (by norm_num), mul_assoc]
        rfl
      rw [Option.map_some, Option.map_some, hscale, hscaled, roundBits_eq (hm.trans (by norm_num))]

/-! ### Integers -/

theorem tdiv_thousand (x : Int) :
  x - 1000 < 1000 * x.tdiv 1000 ∧ 1000 * x.tdiv 1000 < x + 1000
  := by
  have hsplit := Int.mul_tdiv_add_tmod x 1000
  have hlo := Int.lt_tmod_of_pos x (by decide : (0 : Int) < 1000)
  have hhi := Int.tmod_lt_of_pos x (by decide : (0 : Int) < 1000)
  omega

/-- Samples are scaled by their unit. -/
theorem sampleAt_eq_mul (unit : Int) (frame : List UInt8) (i : Nat) :
  sampleAt unit frame i = sampleAt 1 frame i * unit
  := by
  rw [sampleAt, sampleAt]
  cases (blocks 2 frame)[i]? with
  | none => rw [Option.map_none, Option.map_none, Option.getD_none, Int.zero_mul]
  | some sample =>
      rw [Option.map_some, Option.map_some, Option.getD_some, Option.getD_some, Int.mul_one]

/-- Before it is cut off, a mix has its level up to three truncated quotients. -/
theorem mixedIn_level (frame : List UInt8) (front back side : Nat) :
  |1000 * (sampleAt (2 ^ 16) frame front + mixedIn (2 ^ 16) frame back side)
    - 2 ^ 16 * mixThousandths frame front back side| < 3000
  := by
  have hscale := sampleAt_eq_mul (2 ^ 16) frame
  rw [mixedIn, mixThousandths, hscale front, hscale 2, hscale back, hscale side, hscale 3, abs_lt]
  have hcenter := tdiv_thousand (sampleAt 1 frame 2 * 2 ^ 16 * 707)
  have hsides := tdiv_thousand
    ((sampleAt 1 frame back * 2 ^ 16 + sampleAt 1 frame side * 2 ^ 16) * 707)
  have hlow := tdiv_thousand (sampleAt 1 frame 3 * 2 ^ 16 * 500)
  omega

/-- A mix is in scale exactly when it is silent. -/
theorem PcmSource.inScale_mix_iff (frame : List UInt8) (front back side : Nat) :
  (PcmSource.mix frame front back side).InScale ↔ mixThousandths frame front back side = 0
  := by
  have hlevel := mixedIn_level frame front back side
  have hsample : (PcmSource.mix frame front back side).sample
      = some (mixSide (2 ^ 16) (2 ^ 31) frame front back side) := rfl
  rw [mixSide_eq, clampLevel] at hsample
  rw [abs_lt] at hlevel
  constructor
  · intro h
    obtain ⟨x, hx, hlo, hhi⟩ := h.range
    have hmixed := h.mixed frame front back side x rfl hx
    rw [hsample, Option.some.injEq] at hx
    rw [abs_lt] at hmixed
    grind
  · intro hsilent
    rw [hsilent] at hlevel
    constructor
    · refine ⟨_, hsample, ?_, ?_⟩
      · grind
      · grind
    · intro v hv
      cases hv
    · intro v s hv
      cases hv
    · rintro frame' front' back' side' x heq hx
      cases heq
      rw [hsample, Option.some.injEq] at hx
      rw [hsilent, abs_lt]
      grind

/-- A 16-bit sample is in scale exactly when it is silent. -/
theorem PcmSource.inScale_int16_iff (v : Int) :
  (PcmSource.int16 v).InScale ↔ v = 0
  := by
  constructor
  · intro h
    have hlevel : some (v * 2 ^ 16) = some (v * 2 ^ 14) := h.level v rfl
    have heq := Option.some.inj hlevel
    omega
  · rintro rfl
    constructor
    · use 0, rfl
      decide
    · rintro v heq
      cases heq
      rfl
    · intro v s heq hs
      cases heq
      rw [f32ToQ29_of_value (by decide) (by decide) hs]
      rfl
    · intro frame front back side x heq
      cases heq

/-- A float is in scale exactly when it is a number or infinite. -/
theorem PcmSource.inScale_float_iff (s : Float32) :
  (PcmSource.float s).InScale ↔ s.isNaN = false
  := by
  rw [← f32ToQ29_mem_iff]
  constructor
  · intro h
    apply h.range
  · intro h
    constructor
    · apply h
    · intro v heq
      cases heq
    · intro v t heq
      cases heq
    · intro frame front back side x heq
      cases heq

/-- What is in scale. -/
theorem PcmSource.inScale_iff (src : PcmSource) :
  src.InScale ↔ src.Harmless
  := by
  cases src with
  | float s => apply inScale_float_iff
  | int16 v => apply inScale_int16_iff
  | mix frame front back side => apply inScale_mix_iff

/-! ### What is handed to the encoder -/

namespace PcmSource

theorem length_bytes (src : PcmSource) :
  src.bytes.length = 4
  := rfl

end PcmSource

/-- A 16-bit sample in its bytes. -/
theorem i16ToI32_eq_bytes {sample : List UInt8} (h : sample.length = 2) :
  i16ToI32 sample = (PcmSource.int16 (signed16 (ofLe sample))).bytes
  := by
  have hmem := signed16_mem h
  symm
  apply (le32_eq_iff _ _ h).mpr rfl
  · omega
  · omega

namespace SscPcmConfig

variable {cfg : SscPcmConfig}

/-- The encode thread keeps the bytes of the channels it keeps. -/
theorem serviceDownmix_bytes (cfg : SscPcmConfig) (samples : List PcmSource) :
  cfg.serviceDownmix (samples.flatMap PcmSource.bytes)
    = (cfg.kept samples).flatMap PcmSource.bytes
  := by
  have hlength := PcmSource.length_bytes
  rw [ChunkConfig.serviceDownmix, ChunkConfig.kept, cfg.bytesPerSample_eq]
  split
  · rw [mapBlocks, mapBlocks, blocks_flatMap hlength (by decide), List.flatMap_map,
      List.flatMap_assoc]
    congr 1
    funext frame
    apply take_flatMap hlength
  · rfl

/-- Floats in their bytes. -/
theorem mapBlocks_f32ToI32 (cfg : SscPcmConfig) (chunk : List UInt8) :
  mapBlocks 4 (f32ToI32 cfg.scale) chunk
    = ((blocks 4 chunk).map fun sample => PcmSource.float (f32 sample)).flatMap PcmSource.bytes
  := by
  rw [List.flatMap_map, mapBlocks, cfg.scale_eq]
  apply List.flatMap_congr
  intro sample _
  rw [f32ToI32, scaleF32_eq, PcmSource.bytes, PcmSource.sample]

/-- 16-bit samples in their bytes. -/
theorem mapBlocks_i16ToI32 (chunk : List UInt8) :
  mapBlocks 2 i16ToI32 chunk
    = ((blocks 2 chunk).map fun sample => PcmSource.int16 (signed16 (ofLe sample))).flatMap
        PcmSource.bytes
  := by
  rw [List.flatMap_map, mapBlocks]
  apply List.flatMap_congr
  intro sample hsample
  apply i16ToI32_eq_bytes (length_of_mem_blocks (by decide) hsample)

/-- The PCM of a chunk is that of its samples. -/
theorem pcmOf_eq (cfg : SscPcmConfig) (program : Program) (chunk : List UInt8) :
  pcmOf (program.pcm cfg.toChunkConfig) chunk
    = (cfg.sources program chunk).flatMap PcmSource.bytes
  := by
  have hfour := cfg.bytesPerSample_eq
  have htwo : ¬ cfg.bytesPerSample = 2 := by
    rw [hfour]
    decide
  rw [pcmOf]
  cases program with
  | service =>
      rw [Program.pcm, ChunkConfig.servicePcm, ChunkConfig.serviceConvert, ChunkConfig.sources,
        ChunkConfig.serviceSources]
      by_cases h32 : cfg.bitsPerSample = 32
      · rw [if_pos h32, if_pos h32, if_pos hfour, Option.map_some, Option.getD_some,
          ← serviceDownmix_bytes, mapBlocks_f32ToI32]
      · rw [if_neg h32, if_neg h32]
        by_cases h16 : cfg.bitsPerSample = 16
        · have hupsampled : ¬ cfg.upsampled = true := by simp [EncodeConfig.upsampled, h32]
          rw [if_pos h16, if_pos h16, if_neg htwo, Option.map_some, Option.getD_some,
            ← serviceDownmix_bytes, ← mapBlocks_i16ToI32, if_neg hupsampled]
        · rw [if_neg h16, if_neg h16]
          rfl
  | cli =>
      rw [Program.pcm, ChunkConfig.cliPcm, ChunkConfig.sources, ChunkConfig.cliSources]
      dsimp only
      by_cases h32 : cfg.bitsPerSample = 32
      · rw [if_pos h32, if_pos h32, if_pos hfour, Option.getD_some, mapBlocks_f32ToI32]
      · rw [if_neg h32, if_neg h32]
        by_cases h16 : cfg.bitsPerSample = 16
        · rw [if_pos h16, if_pos h16, if_pos hfour, if_pos hfour]
          split
          · rw [Option.getD_some, List.flatMap_assoc]
            rfl
          · rw [Option.getD_some, mapBlocks_i16ToI32]
        · rw [if_neg h16, if_neg h16]
          rfl

end SscPcmConfig

namespace EncoderFeed

/-- The PCM of a chunk is put behind the PCM before. -/
theorem Cut.program {cfg : ChunkConfig} {before chunk : List UInt8} {s : EncoderFeed}
    (h : s.Cut cfg before) (hchunk : cfg.frameBytes ∣ chunk.length) (program : Program) :
  (program.feed cfg s chunk).Cut cfg (before ++ pcmOf (program.pcm cfg) chunk)
  := by
  rw [program.feed_eq, pcmOf]
  cases hpcm : program.pcm cfg chunk with
  | none =>
      rw [Option.getD_none, List.append_nil]
      apply h
  | some pcm => apply h.encode (program.length_of_pcm hchunk hpcm)

theorem Cut.foldl {cfg : ChunkConfig} {before : List UInt8} {s : EncoderFeed}
    (h : s.Cut cfg before) (program : Program) {chunks : List (List UInt8)}
    (hwhole : ∀ chunk ∈ chunks, cfg.frameBytes ∣ chunk.length) :
  (chunks.foldl (program.feed cfg) s).Cut cfg
    (before ++ chunks.flatMap (pcmOf (program.pcm cfg)))
  := by
  induction chunks generalizing before s with
  | nil =>
      rw [List.flatMap_nil, List.append_nil]
      apply h
  | cons chunk chunks ih =>
      obtain ⟨hchunk, hrest⟩ := List.forall_mem_cons.mp hwhole
      rw [List.foldl_cons, List.flatMap_cons, ← List.append_assoc]
      apply ih (h.program hchunk program) hrest

/-- The encoder gets the blocks of the PCM of the chunks. -/
theorem cut_feeds (program : Program) {cfg : ChunkConfig} {chunks : List (List UInt8)}
    (hwhole : ∀ chunk ∈ chunks, cfg.frameBytes ∣ chunk.length) :
  (program.feeds cfg chunks).Cut cfg (chunks.flatMap (pcmOf (program.pcm cfg)))
  := (cut_nil cfg).foldl program hwhole

end EncoderFeed

/-- The bytes of the blocks are those of their samples. -/
theorem SscPcmConfig.flatten_handed (cfg : SscPcmConfig) (program : Program)
    {chunks : List (List UInt8)} (hwhole : ∀ chunk ∈ chunks, cfg.frameBytes ∣ chunk.length) :
  (program.feeds cfg.toChunkConfig chunks).handed.flatten
    = (cfg.handedSources program chunks).flatMap PcmSource.bytes
  := by
  have hlength := PcmSource.length_bytes
  have hpcm : chunks.flatMap (pcmOf (program.pcm cfg.toChunkConfig))
      = (chunks.flatMap (cfg.sources program)).flatMap PcmSource.bytes := by
    rw [List.flatMap_assoc]
    congr 1
    funext chunk
    apply cfg.pcmOf_eq program chunk
  have hblock : cfg.bytesPerEncode = cfg.pcmFramesPerEncode * cfg.activeChannels * 4 := by
    rw [EncodeConfig.bytesPerEncode, cfg.bytesPerSample_eq]
  rw [(EncoderFeed.cut_feeds program hwhole).handed_eq, flatten_blocks cfg.bytesPerEncode_pos,
    hpcm, length_flatMap hlength, hblock, Nat.mul_div_mul_right _ _ (by decide), ← Nat.mul_assoc,
    take_flatMap hlength]
  rfl

/-- The samples that are handed to the encoder are in scale exactly when the floats are numbers or
infinite, and the integers are silent. -/
theorem scaleLaw_iff (cfg : SscPcmConfig) (program : Program)
    (callbacks : List (Callback UInt8 cfg.frameBytes)) :
  ScaleLaw cfg program callbacks
    ↔ ∀ src ∈ cfg.handedSources program (callbacks.map Callback.data), src.Harmless
  := by
  constructor
  · intro h src hsrc
    apply src.inScale_iff.mp (h.inScale src hsrc)
  · intro h
    constructor
    · apply cfg.flatten_handed program
      intro chunk hchunk
      obtain ⟨callback, -, rfl⟩ := List.mem_map.mp hchunk
      apply callback.whole
    · intro src hsrc
      apply src.inScale_iff.mpr (h src hsrc)

theorem sscBlock_pos :
  0 < 864 * stereo16.activeChannels * stereo16.bytesPerSample
  := by decide

/-- Stereo of 16 bits for the encoder of SSC. -/
def sscStereo16 : SscPcmConfig where
  toChunkConfig :=
    { stereo16 with
      pcmFramesPerEncode := 864
      positive := sscBlock_pos
      scale := 536870912 }
  bytesPerSample_eq := rfl
  scale_eq := rfl

/-- A block of the sample 257. -/
def constantBlock : Callback UInt8 4 where
  data := List.replicate (864 * 4) 1
  whole := by
    rw [List.length_replicate]
    apply Nat.dvd_mul_left
  fits := by
    rw [List.length_replicate]
    decide

/-- The sample becomes `257 * 2 ^ 16`, and is handed to the encoder by both programs. -/
theorem mem_handedSources_constant (program : Program) :
  .int16 257 ∈ sscStereo16.handedSources program [constantBlock.data]
  := by
  have hsources : sscStereo16.sources program constantBlock.data
      = (blocks 2 constantBlock.data).map fun sample => .int16 (signed16 (ofLe sample)) := by
    cases program with | service | cli => rfl
  have hcount : ((blocks 2 constantBlock.data).map
      fun sample => PcmSource.int16 (signed16 (ofLe sample))).length = 864 * 2 := by
    rw [List.length_map, length_blocks, constantBlock, List.length_replicate]
  have hblock : sscStereo16.pcmFramesPerEncode * sscStereo16.activeChannels = 864 * 2 := rfl
  rw [ChunkConfig.handedSources, List.flatMap_cons, List.flatMap_nil, List.append_nil, hsources,
    hcount, hblock, Nat.div_mul_cancel (Nat.dvd_refl _), List.take_of_length_le hcount.le]
  apply List.mem_map.mpr
  use [1, 1]
  constructor
  · rw [constantBlock, blocks_of_le (by decide) (by rw [List.length_replicate]; decide),
      List.take_replicate]
    apply List.mem_cons_self
  · rfl

/-- Neither program keeps to the scale. -/
theorem not_scaleLaw_constant :
  ¬ ScaleLaw sscStereo16 .service [constantBlock] ∧ ¬ ScaleLaw sscStereo16 .cli [constantBlock]
  := by
  have hloud : ¬ (PcmSource.int16 257).InScale := by
    rw [PcmSource.inScale_int16_iff]
    decide
  constructor
  · intro h
    apply hloud (h.inScale _ (mem_handedSources_constant .service))
  · intro h
    apply hloud (h.inScale _ (mem_handedSources_constant .cli))

end Ssc
