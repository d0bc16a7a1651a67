import SscOnWindows.Lib.Binary32
import SscOnWindows.Lib.Blocks
import SscOnWindows.Lib.ByteStream
import SscOnWindows.Pipeline.EncodeThread

/-!
# From captured audio to the blocks of the encoder

The encode thread of the service takes whole frames from the ring, `audio_callback` of the
CLI gets whole frames from the capture.  Both convert them to the PCM of the encoder, put
the residual of the last chunk in front, give the encoder one block after the other and
keep the rest as the new residual.

Here the bytes themselves are followed.  The encoder and the transport are published all the
time, and the answers of the encoder do not enter: they decide about packets only.  The sizes
are natural numbers; `encode32` computes them in a `uint32_t`, as the code does, which makes no
difference for the chunks that such a number counts.
-/

namespace Ssc

open Binary32 Blocks ByteStream Machine

/-! ### Samples -/

/-- The two bytes of `n`, the less significant one first. -/
def le16 (n : Nat) : List UInt8 :=
  [UInt8.ofNat n, UInt8.ofNat (n / 2 ^ 8)]

/-- The value of `n` as a signed 16-bit integer. -/
def signed16 (n : Nat) : Int :=
  if n < 2 ^ 15 then n else n - 2 ^ 16

/-- The `float` of four bytes. -/
def f32 (sample : List UInt8) : Float32 :=
  .ofBits (.ofNat (ofLe sample))

/-- The bytes of a `float`. -/
def f32Bytes (x : Float32) : List UInt8 :=
  le32 x.toBits.toNat

def clampSample (s : Float32) : Float32 :=
  let s := if s > 1.0 then 1.0 else s
  if s < -1.0 then -1.0 else s

/-- A sample of `convert_f32_to_i16` and of `convert_float32_to_int16`. -/
def f32ToI16 (sample : List UInt8) : List UInt8 :=
  le16 (clampSample (f32 sample) * 32767.0).toInt16.toUInt16.toNat

/-- A clamped sample, scaled as a `double` of 53 bits and truncated.  The conversion is undefined
for what is no number. -/
def scaleF32 (scale : Nat) (s : Float32) : Option Int :=
  (value (clampSample s)).map fun q => truncate (roundBits 53 (q * scale))

/-- A sample of `convert_f32_to_i32` and of `convert_float32_to_int32`. -/
def f32ToI32 (scale : Nat) (sample : List UInt8) : List UInt8 :=
  le32 (((scaleF32 scale (f32 sample)).getD 0) % 2 ^ 32).toNat

/-- A sample of 16 bits in the upper half of 32 bits. -/
def i16ToI32 (sample : List UInt8) : List UInt8 :=
  le32 (ofLe sample * 2 ^ 16)

/-- `upsample_2x_stereo_f32`. -/
def upsample2x (bytes : List UInt8) : List UInt8 :=
  let inFrames := bytes.length / 8
  let sample n c := (bytes.drop ((n * 2 + c) * 4)).take 4
  let middle n c :=
    if 1 ≤ n ∧ n + 2 < inFrames then
      (9.0 * (f32 (sample n c) + f32 (sample (n + 1) c))
        - (f32 (sample (n - 1) c) + f32 (sample (n + 2) c))) * 0.0625
    else (f32 (sample n c) + f32 (sample (n + 1) c)) * 0.5
  (List.range (upsampledFrames inFrames)).flatMap fun m =>
    [0, 1].flatMap fun c =>
      if m % 2 = 0 then sample (m / 2) c else f32Bytes (middle (m / 2) c)

/-! ### Frames of the CLI -/

/-- The stereo frame `audio_callback` makes of a frame of floats. -/
def mixF32 (frame : List UInt8) : List UInt8 :=
  let ch i := (((blocks 4 frame)[i]?).map f32).getD 0.0
  let level front back side := front + 0.707107 * ch 2 + 0.707107 * (back + side) + 0.5 * ch 3
  f32Bytes (level (ch 0) (ch 4) (ch 6)) ++ f32Bytes (level (ch 1) (ch 5) (ch 7))

/-- One side of the stereo frame `audio_callback` makes of a frame of integers, which are
scaled by `unit`. -/
def mixSide (unit limit : Int) (frame : List UInt8) (front back side : Nat) : Int :=
  let ch i := (((blocks 2 frame)[i]?).map fun sample => signed16 (ofLe sample) * unit).getD 0
  let level := ch front + (ch 2 * 707).tdiv 1000 + ((ch back + ch side) * 707).tdiv 1000
    + (ch 3 * 500).tdiv 1000
  let level := if level > limit - 1 then limit - 1 else level
  if level < -limit then -limit else level

/-- The stereo frame of 16-bit integers. -/
def mixI16 (frame : List UInt8) : List UInt8 :=
  le16 (mixSide 1 (2 ^ 15) frame 0 4 6 % 2 ^ 16).toNat
    ++ le16 (mixSide 1 (2 ^ 15) frame 1 5 7 % 2 ^ 16).toNat

/-- The stereo frame of 32-bit integers. -/
def mixI32 (frame : List UInt8) : List UInt8 :=
  le32 (mixSide (2 ^ 16) (2 ^ 31) frame 0 4 6 % 2 ^ 32).toNat
    ++ le32 (mixSide (2 ^ 16) (2 ^ 31) frame 1 5 7 % 2 ^ 32).toNat

/-! ### Chunks -/

/-- What does not change while audio is captured, with the scale of 32-bit samples.  The
channels of the encoder are set from those of the capture, and the width of its samples from
the codec. -/
structure ChunkConfig extends EncodeConfig where
  scale : Nat
  active_eq : activeChannels = if channels > 2 then 2 else channels
  width_eq : bytesPerSample = 2 ∨ bytesPerSample = 4

namespace ChunkConfig

theorem width_two : 2 = 2 ∨ 2 = 4 := .inl rfl

/-- The conversion of the samples in the encode thread.  Other samples than those of 16 and
32 bits are given up on. -/
def serviceConvert (cfg : ChunkConfig) (bytes : List UInt8) : Option (List UInt8) :=
  if cfg.bitsPerSample = 32 then
    if cfg.bytesPerSample = 4 then some (mapBlocks 4 (f32ToI32 cfg.scale) bytes)
    else some (mapBlocks 4 f32ToI16 bytes)
  else if cfg.bitsPerSample = 16 then
    if cfg.bytesPerSample = 2 then some bytes else some (mapBlocks 2 i16ToI32 bytes)
  else none

/-- The downmix in the encode thread, which keeps the first channels. -/
def serviceDownmix (cfg : ChunkConfig) (pcm : List UInt8) : List UInt8 :=
  if cfg.channels > cfg.activeChannels then
    mapBlocks (cfg.channels * cfg.bytesPerSample)
      (fun frame => frame.take (cfg.activeChannels * cfg.bytesPerSample)) pcm
  else pcm

/-- The PCM the encode thread makes of a chunk. -/
def servicePcm (cfg : ChunkConfig) (bytes : List UInt8) : Option (List UInt8) :=
  (cfg.serviceConvert (if cfg.upsampled then upsample2x bytes else bytes)).map cfg.serviceDownmix

/-- `need_downmix`. -/
def needDownmix (cfg : ChunkConfig) : Bool :=
  cfg.channels > cfg.activeChannels

/-- `out_channels`. -/
def outChannels (cfg : ChunkConfig) : Nat :=
  if cfg.needDownmix then cfg.activeChannels else cfg.channels

/-- The CLI upsamples the frames it has mixed. -/
def cliUpsampled (cfg : ChunkConfig) : Bool :=
  cfg.bitsPerSample = 32 && cfg.encodeSampleRate = 96000 && cfg.outChannels = 2

/-- The downmix of floats in `audio_callback`. -/
def cliDownmix (cfg : ChunkConfig) (bytes : List UInt8) : List UInt8 :=
  if cfg.needDownmix && cfg.activeChannels = 2 then mapBlocks (cfg.channels * 4) mixF32 bytes
  else if cfg.needDownmix then
    mapBlocks (cfg.channels * 4) (fun frame => frame.take (cfg.activeChannels * 4)) bytes
  else bytes

/-- The PCM `audio_callback` makes of a chunk. -/
def cliPcm (cfg : ChunkConfig) (bytes : List UInt8) : Option (List UInt8) :=
  if cfg.bitsPerSample = 32 then
    let mixed := cfg.cliDownmix bytes
    let source := if cfg.cliUpsampled then upsample2x mixed else mixed
    if cfg.bytesPerSample = 4 then some (mapBlocks 4 (f32ToI32 cfg.scale) source)
    else some (mapBlocks 4 f32ToI16 source)
  else if cfg.bitsPerSample = 16 then
    if cfg.needDownmix && cfg.activeChannels = 2 then
      if cfg.bytesPerSample = 4 then some (mapBlocks (cfg.channels * 2) mixI32 bytes)
      else some (mapBlocks (cfg.channels * 2) mixI16 bytes)
    else if cfg.bytesPerSample = 4 then some (mapBlocks 2 i16ToI32 bytes)
    else some bytes
  else none

end ChunkConfig

/-- The loop that gives the encoder one block of the PCM after the other: the blocks, and
the offset behind them.  Each of them has a byte, so that as many rounds as bytes are
enough. -/
def encodeLoop {α : Type*} (bytesPerEncode : Nat) (pcm : List α) :
    Nat → Nat → List (List α) × Nat
  | 0, offset => ([], offset)
  | rounds + 1, offset =>
      if offset + bytesPerEncode ≤ pcm.length then
        let rest := encodeLoop bytesPerEncode pcm rounds (offset + bytesPerEncode)
        ((pcm.drop offset).take bytesPerEncode :: rest.1, rest.2)
      else ([], offset)

/-- The residual, and the blocks that have been given to the encoder. -/
structure EncoderFeed where
  residual : List UInt8 := []
  handed : List (List UInt8) := []
  deriving DecidableEq, Repr

namespace EncoderFeed

/-- The PCM of `frames` frames is put behind the residual and encoded. -/
def encode (cfg : ChunkConfig) (s : EncoderFeed) (frames : Nat) (pcm : List UInt8) : EncoderFeed :=
  let combined := s.residual ++ pcm.take (frames * cfg.activeChannels * cfg.bytesPerSample)
  let loop := encodeLoop cfg.bytesPerEncode combined combined.length 0
  let remaining := combined.length - loop.2
  { residual :=
      if 0 < remaining ∧ remaining < cfg.bytesPerEncode then combined.drop loop.2 else []
    handed := s.handed ++ loop.1 }

/-- A chunk that cannot be converted is dropped. -/
def feed (cfg : ChunkConfig) (s : EncoderFeed) (frames : Nat) : Option (List UInt8) → EncoderFeed
  | none => s
  | some pcm => s.encode cfg frames pcm

/-- An iteration of the encode thread with a chunk from the ring. -/
def encodeThread (cfg : ChunkConfig) (s : EncoderFeed) (chunk : List UInt8) : EncoderFeed :=
  let frames := chunk.length / cfg.frameBytes
  s.feed cfg (if cfg.upsampled then upsampledFrames frames else frames) (cfg.servicePcm chunk)

/-- `audio_callback` of the CLI. -/
def audioCallback (cfg : ChunkConfig) (s : EncoderFeed) (chunk : List UInt8) : EncoderFeed :=
  let frames := chunk.length / cfg.frameBytes
  s.feed cfg (if cfg.cliUpsampled then upsampledFrames frames else frames) (cfg.cliPcm chunk)

/-- The callbacks of the CLI, one after the other. -/
def audioCallbacks (cfg : ChunkConfig) (callbacks : List (Callback UInt8 cfg.frameBytes)) :
    EncoderFeed :=
  callbacks.foldl (fun (s : EncoderFeed) cb => s.audioCallback cfg cb.data) {}

end EncoderFeed

/-- The stream of the callbacks. -/
def captured {frameBytes : Nat} (callbacks : List (Callback UInt8 frameBytes)) : List UInt8 :=
  (callbacks.map Callback.data).flatten

/-- The service while it streams: the ring with its callbacks and reads, and what the encode
thread has made of the chunks it has read. -/
structure ServiceAudio where
  stream : PcmStream UInt8
  encoded : EncoderFeed := {}

namespace ServiceAudio

/-- The ring is empty and nothing is encoded. -/
def start (blank : UInt8) (capacity : UInt32) : ServiceAudio where
  stream := .start blank capacity

/-- A step of the ring.  The bytes of a read that ends are encoded; nothing else that happens
to the ring touches them. -/
def next (cfg : ChunkConfig) (s : ServiceAudio) (a : RingAction UInt8 cfg.frameBytes) :
    Option ServiceAudio :=
  (s.stream.next cfg.sampleRate a).map fun stream =>
    match a with
    | .publishTail =>
        { stream := stream
          encoded := s.encoded.encodeThread cfg (stream.read.drop s.stream.read.length) }
    | _ => { s with stream := stream }

end ServiceAudio

/-! ### The encode loop -/

/-- The loop hands over the whole blocks of the PCM behind its offset. -/
theorem encodeLoop_blocks {α : Type*} {n : Nat} (hn : 0 < n) (pcm : List α) {rounds : Nat}
    (offset : Nat) (h : pcm.length ≤ offset + rounds) :
  (encodeLoop n pcm rounds offset).1 = blocks n (pcm.drop offset)
    ∧ pcm.drop (encodeLoop n pcm rounds offset).2 = remainder n (pcm.drop offset)
  := by
  induction rounds generalizing offset with
  | zero =>
      have hlt : (pcm.drop offset).length < n := by
        rw [List.length_drop]
        omega
      rw [encodeLoop, blocks_of_lt hlt, remainder_of_lt hlt]
      exact ⟨rfl, rfl⟩
  | succ rounds ih =>
      rw [encodeLoop]
      by_cases hmore : offset + n ≤ pcm.length
      · obtain ⟨hblocks, hrest⟩ := ih (offset + n) (by omega)
        have hle : n ≤ (pcm.drop offset).length := by
          rw [List.length_drop]
          omega
        rw [if_pos hmore, blocks_of_le hn hle, remainder_of_le hn hle, List.drop_drop]
        constructor
        · dsimp only
          rw [hblocks]
        · apply hrest
      · have hlt : (pcm.drop offset).length < n := by
          rw [List.length_drop]
          omega
        rw [if_neg hmore, blocks_of_lt hlt, remainder_of_lt hlt]
        exact ⟨rfl, rfl⟩

/-- The encode loop of the encode thread takes the same pieces. -/
theorem encodeLoop_batch (cfg : EncodeConfig) (b : Batch) (rounds : Nat) :
  encodeLoop cfg.bytesPerEncode b.pcm (rounds + 1) b.offset
    = if b.more cfg then
        (b.chunk cfg :: (encodeLoop cfg.bytesPerEncode b.pcm rounds (b.advance cfg).offset).1,
          (encodeLoop cfg.bytesPerEncode b.pcm rounds (b.advance cfg).offset).2)
      else ([], b.offset)
  := by
  rw [encodeLoop, Batch.more]
  by_cases hmore : b.offset + cfg.bytesPerEncode ≤ b.pcm.length
  · rw [if_pos hmore, if_pos (decide_eq_true hmore)]
    rfl
  · rw [if_neg hmore, if_neg (by simpa using hmore)]

namespace ChunkConfig

theorem bytesPerEncode_pos (cfg : ChunkConfig) :
  0 < cfg.bytesPerEncode
  := cfg.positive

theorem activeChannels_le (cfg : ChunkConfig) :
  cfg.activeChannels ≤ cfg.channels
  := by
  rw [cfg.active_eq]
  split <;> omega

theorem activeChannels_pos (cfg : ChunkConfig) :
  0 < cfg.activeChannels
  := by
  apply Nat.pos_of_ne_zero
  intro hzero
  have hpos := cfg.positive
  rw [hzero, Nat.mul_zero, Nat.zero_mul] at hpos
  contradiction

theorem bytesPerSample_pos (cfg : ChunkConfig) :
  0 < cfg.bytesPerSample
  := by
  cases cfg.width_eq with
  | inl h => rw [h]; decide
  | inr h => rw [h]; decide

end ChunkConfig

namespace EncoderFeed

/-- All blocks of the PCM have been given to the encoder, and the rest of it is kept. -/
structure Cut (cfg : ChunkConfig) (pcm : List UInt8) (s : EncoderFeed) : Prop where
  handed_eq : s.handed = blocks cfg.bytesPerEncode pcm
  residual_eq : s.residual = remainder cfg.bytesPerEncode pcm
  residual_lt : s.residual.length < cfg.bytesPerEncode

theorem cut_nil (cfg : ChunkConfig) :
  Cut cfg [] {}
  := by
  constructor
  · rw [blocks_of_lt cfg.bytesPerEncode_pos]
  · rw [remainder_of_lt cfg.bytesPerEncode_pos]
  · apply cfg.bytesPerEncode_pos

/-- The encoder gets the whole blocks, and the residual is what they leave. -/
theorem encode_eq {cfg : ChunkConfig} {s : EncoderFeed} {frames : Nat} {pcm : List UInt8}
    (hlength : pcm.length = frames * (cfg.activeChannels * cfg.bytesPerSample)) :
  s.encode cfg frames pcm
    = { residual := remainder cfg.bytesPerEncode (s.residual ++ pcm)
        handed := s.handed ++ blocks cfg.bytesPerEncode (s.residual ++ pcm) }
  := by
  have htake : pcm.take (frames * cfg.activeChannels * cfg.bytesPerSample) = pcm := by
    rw [Nat.mul_assoc, ← hlength, List.take_length]
  obtain ⟨hblocks, hrest⟩ := encodeLoop_blocks cfg.bytesPerEncode_pos (s.residual ++ pcm) 0
    (Nat.zero_add _).ge
  rw [List.drop_zero] at hblocks hrest
  have hlt := length_remainder_lt cfg.bytesPerEncode_pos (s.residual ++ pcm)
  have hremaining : (s.residual ++ pcm).length
        - (encodeLoop cfg.bytesPerEncode (s.residual ++ pcm) (s.residual ++ pcm).length 0).2
      = (remainder cfg.bytesPerEncode (s.residual ++ pcm)).length := by
    rw [← hrest, List.length_drop]
  rw [EncoderFeed.encode, htake, hremaining, hblocks, hrest]
  congr 1
  split
  · rfl
  · rename_i hempty
    apply (List.eq_nil_of_length_eq_zero _).symm
    omega

/-- PCM that is encoded is put behind the PCM before. -/
theorem Cut.encode {cfg : ChunkConfig} {before pcm : List UInt8} {s : EncoderFeed}
    (h : s.Cut cfg before) {frames : Nat}
    (hlength : pcm.length = frames * (cfg.activeChannels * cfg.bytesPerSample)) :
  (s.encode cfg frames pcm).Cut cfg (before ++ pcm)
  := by
  have hpos := cfg.bytesPerEncode_pos
  rw [encode_eq hlength, h.residual_eq, h.handed_eq]
  constructor
  · apply (blocks_append hpos before pcm).symm
  · apply (remainder_append hpos before pcm).symm
  · apply length_remainder_lt hpos

end EncoderFeed

/-! ### The conversions -/

/-- A conversion of whole frames to frames of the encoder, or none at all. -/
def FramewisePcm (cfg : ChunkConfig) (convert : List UInt8 → Option (List UInt8)) : Prop :=
  (∃ f, Framewise cfg.frameBytes (cfg.activeChannels * cfg.bytesPerSample) f
    ∧ ∀ bytes, convert bytes = some (f bytes))
  ∨ ∀ bytes, convert bytes = none

namespace ChunkConfig

variable {cfg : ChunkConfig}

/-- Keeping the first channels of every frame. -/
theorem take_framewise (cfg : ChunkConfig) {width : Nat} (hwidth : 0 < width) :
  Framewise (cfg.channels * width) (cfg.activeChannels * width)
    (mapBlocks (cfg.channels * width)
      (fun frame : List UInt8 => frame.take (cfg.activeChannels * width)))
  := by
  have hchannels := Nat.lt_of_lt_of_le cfg.activeChannels_pos cfg.activeChannels_le
  apply mapBlocks_framewise (Nat.mul_pos hchannels hwidth)
  intro frame hframe
  apply List.length_take_of_le
  rw [hframe]
  apply Nat.mul_le_mul_right _ cfg.activeChannels_le

/-- Without more channels than the encoder has there is nothing to mix. -/
theorem channels_eq (h : ¬ cfg.channels > cfg.activeChannels) :
  cfg.activeChannels = cfg.channels
  := by
  have hle := cfg.activeChannels_le
  omega

theorem activeChannels_eq_two (h : cfg.channels > cfg.activeChannels) :
  cfg.activeChannels = 2
  := by
  have heq := cfg.active_eq
  split at heq
  · apply heq
  · omega

theorem serviceDownmix_framewise (cfg : ChunkConfig) :
  Framewise (cfg.channels * cfg.bytesPerSample) (cfg.activeChannels * cfg.bytesPerSample)
    cfg.serviceDownmix
  := by
  by_cases hmix : cfg.channels > cfg.activeChannels
  · have heq : cfg.serviceDownmix = mapBlocks (cfg.channels * cfg.bytesPerSample)
        (fun frame => frame.take (cfg.activeChannels * cfg.bytesPerSample)) := by
      funext pcm
      rw [serviceDownmix, if_pos hmix]
    rw [heq]
    apply take_framewise cfg cfg.bytesPerSample_pos
  · have heq : cfg.serviceDownmix = fun pcm => pcm := by
      funext pcm
      rw [serviceDownmix, if_neg hmix]
    rw [heq, channels_eq hmix]
    apply id_framewise

theorem frameBytes_of_bits (width : Nat) (h : cfg.bitsPerSample = 8 * width) :
  cfg.frameBytes = cfg.channels * width
  := by
  rw [EncodeConfig.frameBytes, h, Nat.mul_div_cancel_left _ (by decide)]

/-- The conversions of single samples. -/
theorem f32ToI32_framewise (scale : Nat) :
  Framewise 4 4 (mapBlocks 4 (f32ToI32 scale))
  := mapBlocks_framewise (by decide) (fun _ _ => rfl)

theorem f32ToI16_framewise :
  Framewise 4 2 (mapBlocks 4 f32ToI16)
  := mapBlocks_framewise (by decide) (fun _ _ => rfl)

theorem i16ToI32_framewise :
  Framewise 2 4 (mapBlocks 2 i16ToI32)
  := mapBlocks_framewise (by decide) (fun _ _ => rfl)

/-- The samples of a frame are converted one by one, or not at all. -/
theorem serviceConvert_framewise (cfg : ChunkConfig) :
  (∃ f, Framewise cfg.frameBytes (cfg.channels * cfg.bytesPerSample) f
    ∧ ∀ bytes, cfg.serviceConvert bytes = some (f bytes))
  ∨ ∀ bytes, cfg.serviceConvert bytes = none
  := by
  by_cases h32 : cfg.bitsPerSample = 32
  · left
    rw [frameBytes_of_bits 4 h32]
    cases cfg.width_eq with
    | inl hwidth =>
        use mapBlocks 4 f32ToI16
        constructor
        · rw [hwidth]
          apply f32ToI16_framewise.mul
        · intro bytes
          rw [serviceConvert, if_pos h32, if_neg (by rw [hwidth]; decide)]
    | inr hwidth =>
        use mapBlocks 4 (f32ToI32 cfg.scale)
        constructor
        · rw [hwidth]
          apply (f32ToI32_framewise cfg.scale).mul
        · intro bytes
          rw [serviceConvert, if_pos h32, if_pos hwidth]
  · by_cases h16 : cfg.bitsPerSample = 16
    · left
      rw [frameBytes_of_bits 2 h16]
      cases cfg.width_eq with
      | inl hwidth =>
          use fun bytes => bytes
          constructor
          · rw [hwidth]
            apply id_framewise
          · intro bytes
            rw [serviceConvert, if_neg h32, if_pos h16, if_pos hwidth]
      | inr hwidth =>
          use mapBlocks 2 i16ToI32
          constructor
          · rw [hwidth]
            apply i16ToI32_framewise.mul
          · intro bytes
            rw [serviceConvert, if_neg h32, if_pos h16, if_neg (by rw [hwidth]; decide)]
    · right
      intro bytes
      rw [serviceConvert, if_neg h32, if_neg h16]

/-- Without upsampling the encode thread converts frame by frame. -/
theorem servicePcm_framewise (h : cfg.upsampled = false) :
  FramewisePcm cfg cfg.servicePcm
  := by
  cases serviceConvert_framewise cfg with
  | inl hconvert =>
      left
      obtain ⟨f, hf, hconvert⟩ := hconvert
      use fun bytes => cfg.serviceDownmix (f bytes)
      constructor
      · apply hf.comp cfg.serviceDownmix_framewise
      · intro bytes
        rw [servicePcm, if_neg (by rw [h]; nofun), hconvert, Option.map_some]
  | inr hnone =>
      right
      intro bytes
      rw [servicePcm, hnone, Option.map_none]

theorem mixF32_framewise (cfg : ChunkConfig) (h : cfg.channels > cfg.activeChannels) :
  Framewise (cfg.channels * 4) (cfg.activeChannels * 4) (mapBlocks (cfg.channels * 4) mixF32)
  := by
  rw [activeChannels_eq_two h]
  apply mapBlocks_framewise
  · omega
  · intro _ _
    rfl

theorem cliDownmix_framewise (cfg : ChunkConfig) :
  Framewise (cfg.channels * 4) (cfg.activeChannels * 4) cfg.cliDownmix
  := by
  by_cases hmix : cfg.channels > cfg.activeChannels
  · have heq : cfg.cliDownmix = mapBlocks (cfg.channels * 4) mixF32 := by
      funext bytes
      rw [cliDownmix, needDownmix, decide_eq_true hmix, activeChannels_eq_two hmix]
      rfl
    rw [heq]
    apply cfg.mixF32_framewise hmix
  · have heq : cfg.cliDownmix = fun bytes => bytes := by
      funext bytes
      rw [cliDownmix, needDownmix, decide_eq_false hmix]
      rfl
    rw [heq, channels_eq hmix]
    apply id_framewise

/-- The integers of a frame are mixed, or converted one by one. -/
theorem cliPcm_framewise_of_16 (h32 : cfg.bitsPerSample ≠ 32) (h16 : cfg.bitsPerSample = 16) :
  ∃ f, Framewise (cfg.channels * 2) (cfg.activeChannels * cfg.bytesPerSample) f
    ∧ ∀ bytes, cfg.cliPcm bytes = some (f bytes)
  := by
  by_cases hmix : cfg.channels > cfg.activeChannels
  · have hneed : (cfg.needDownmix && cfg.activeChannels = 2) = true := by
      rw [needDownmix, decide_eq_true hmix, activeChannels_eq_two hmix]
      rfl
    have hpos : 0 < cfg.channels * 2 := by omega
    cases cfg.width_eq with
    | inl hwidth =>
        use mapBlocks (cfg.channels * 2) mixI16
        constructor
        · rw [hwidth, activeChannels_eq_two hmix]
          apply mapBlocks_framewise hpos
          intro _ _
          rfl
        · intro bytes
          rw [cliPcm, if_neg h32, if_pos h16, if_pos hneed, if_neg (by rw [hwidth]; decide)]
    | inr hwidth =>
        use mapBlocks (cfg.channels * 2) mixI32
        constructor
        · rw [hwidth, activeChannels_eq_two hmix]
          apply mapBlocks_framewise hpos
          intro _ _
          rfl
        · intro bytes
          rw [cliPcm, if_neg h32, if_pos h16, if_pos hneed, if_pos hwidth]
  · have hneed : ¬ (cfg.needDownmix && cfg.activeChannels = 2) = true := by
      rw [needDownmix, decide_eq_false hmix]
      nofun
    rw [channels_eq hmix]
    cases cfg.width_eq with
    | inl hwidth =>
        use fun bytes => bytes
        constructor
        · rw [hwidth]
          apply id_framewise
        · intro bytes
          rw [cliPcm, if_neg h32, if_pos h16, if_neg hneed, if_neg (by rw [hwidth]; decide)]
    | inr hwidth =>
        use mapBlocks 2 i16ToI32
        constructor
        · rw [hwidth]
          apply i16ToI32_framewise.mul
        · intro bytes
          rw [cliPcm, if_neg h32, if_pos h16, if_neg hneed, if_pos hwidth]

/-- Without upsampling `audio_callback` converts frame by frame. -/
theorem cliPcm_framewise (h : cfg.cliUpsampled = false) :
  FramewisePcm cfg cfg.cliPcm
  := by
  by_cases h32 : cfg.bitsPerSample = 32
  · left
    rw [frameBytes_of_bits 4 h32]
    cases cfg.width_eq with
    | inl hwidth =>
        use fun bytes => mapBlocks 4 f32ToI16 (cfg.cliDownmix bytes)
        constructor
        · rw [hwidth]
          apply cfg.cliDownmix_framewise.comp (f32ToI16_framewise.mul _)
        · intro bytes
          rw [cliPcm, if_pos h32, if_neg (by rw [hwidth]; decide), if_neg (by rw [h]; nofun)]
    | inr hwidth =>
        use fun bytes => mapBlocks 4 (f32ToI32 cfg.scale) (cfg.cliDownmix bytes)
        constructor
        · rw [hwidth]
          apply cfg.cliDownmix_framewise.comp ((f32ToI32_framewise cfg.scale).mul _)
        · intro bytes
          rw [cliPcm, if_pos h32, if_pos hwidth, if_neg (by rw [h]; nofun)]
  · by_cases h16 : cfg.bitsPerSample = 16
    · left
      rw [frameBytes_of_bits 2 h16]
      apply cliPcm_framewise_of_16 h32 h16
    · right
      intro bytes
      rw [cliPcm, if_neg h32, if_neg h16]

end ChunkConfig

/-- The PCM of a stream, which is empty when it cannot be converted. -/
def pcmOf (convert : List UInt8 → Option (List UInt8)) (stream : List UInt8) : List UInt8 :=
  (convert stream).getD []

namespace FramewisePcm

variable {cfg : ChunkConfig} {convert : List UInt8 → Option (List UInt8)}

theorem pcmOf_nil (h : FramewisePcm cfg convert) :
  pcmOf convert [] = []
  := by
  rw [pcmOf]
  cases h with
  | inl hsome =>
      obtain ⟨f, hf, hconvert⟩ := hsome
      rw [hconvert, Option.getD_some, hf.map_nil]
  | inr hnone => rw [hnone, Option.getD_none]

/-- The PCM of a stream that is cut into whole frames is the PCM of its parts. -/
theorem pcmOf_flatten (h : FramewisePcm cfg convert) {chunks : List (List UInt8)}
    (hwhole : ∀ chunk ∈ chunks, cfg.frameBytes ∣ chunk.length) :
  pcmOf convert chunks.flatten = (chunks.map (pcmOf convert)).flatten
  := by
  cases h with
  | inl hsome =>
      obtain ⟨f, hf, hconvert⟩ := hsome
      have hpcm : pcmOf convert = f := by
        funext stream
        rw [pcmOf, hconvert, Option.getD_some]
      rw [hpcm]
      apply hf.map_flatten hwhole
  | inr hnone =>
      have hpcm : pcmOf convert = fun _ => [] := by
        funext stream
        rw [pcmOf, hnone, Option.getD_none]
      rw [hpcm]
      simp

/-- A chunk of whole frames goes on with the stream before. -/
theorem feed (h : FramewisePcm cfg convert) {s : EncoderFeed} {stream chunk : List UInt8}
    (hs : s.Cut cfg (pcmOf convert stream)) (hstream : cfg.frameBytes ∣ stream.length)
    (hchunk : cfg.frameBytes ∣ chunk.length) :
  (s.feed cfg (chunk.length / cfg.frameBytes) (convert chunk)).Cut cfg
    (pcmOf convert (stream ++ chunk))
  := by
  cases h with
  | inl hsome =>
      obtain ⟨f, hf, hconvert⟩ := hsome
      rw [pcmOf, hconvert, Option.getD_some] at hs
      rw [pcmOf, hconvert, hconvert, Option.getD_some, hf.append _ _ hstream]
      apply hs.encode
      apply hf.length
      rw [Nat.div_mul_cancel hchunk]
  | inr hnone =>
      rw [pcmOf, hnone] at hs ⊢
      rw [hnone]
      apply hs

end FramewisePcm

/-! ### Runs -/

section Captured

variable {frameBytes : Nat}

theorem captured_nil :
  captured ([] : List (Callback UInt8 frameBytes)) = []
  := rfl

theorem captured_concat (callbacks : List (Callback UInt8 frameBytes))
    (cb : Callback UInt8 frameBytes) :
  captured (callbacks ++ [cb]) = captured callbacks ++ cb.data
  := by
  rw [captured, captured, List.map_append, List.flatten_append]
  congr 1
  apply List.flatten_singleton

/-- The callbacks bring whole frames. -/
theorem dvd_captured (callbacks : List (Callback UInt8 frameBytes)) :
  frameBytes ∣ (captured callbacks).length
  := by
  induction callbacks using List.reverseRecOn with
  | nil => apply dvd_zero
  | append_singleton callbacks cb ih =>
      rw [captured_concat, List.length_append]
      apply (Nat.dvd_add_right ih).mpr cb.whole

end Captured

namespace EncoderFeed

variable {cfg : ChunkConfig}

theorem audioCallbacks_concat (callbacks : List (Callback UInt8 cfg.frameBytes))
    (cb : Callback UInt8 cfg.frameBytes) :
  audioCallbacks cfg (callbacks ++ [cb]) = (audioCallbacks cfg callbacks).audioCallback cfg cb.data
  := by
  rw [audioCallbacks, List.foldl_append]
  rfl

theorem Cut.encodeThread (h : cfg.upsampled = false) {s : EncoderFeed} {stream chunk : List UInt8}
    (hs : s.Cut cfg (pcmOf cfg.servicePcm stream)) (hstream : cfg.frameBytes ∣ stream.length)
    (hchunk : cfg.frameBytes ∣ chunk.length) :
  (s.encodeThread cfg chunk).Cut cfg (pcmOf cfg.servicePcm (stream ++ chunk))
  := by
  rw [EncoderFeed.encodeThread, if_neg (by rw [h]; nofun)]
  apply (ChunkConfig.servicePcm_framewise h).feed hs hstream hchunk

theorem Cut.audioCallback (h : cfg.cliUpsampled = false) {s : EncoderFeed}
    {stream chunk : List UInt8}
    (hs : s.Cut cfg (pcmOf cfg.cliPcm stream)) (hstream : cfg.frameBytes ∣ stream.length)
    (hchunk : cfg.frameBytes ∣ chunk.length) :
  (s.audioCallback cfg chunk).Cut cfg (pcmOf cfg.cliPcm (stream ++ chunk))
  := by
  rw [EncoderFeed.audioCallback, if_neg (by rw [h]; nofun)]
  apply (ChunkConfig.cliPcm_framewise h).feed hs hstream hchunk

/-- Whatever the callbacks of the CLI are, the encoder gets the blocks of the PCM of all of
them. -/
theorem cut_audioCallbacks (h : cfg.cliUpsampled = false)
    (callbacks : List (Callback UInt8 cfg.frameBytes)) :
  (audioCallbacks cfg callbacks).Cut cfg (pcmOf cfg.cliPcm (captured callbacks))
  := by
  induction callbacks using List.reverseRecOn with
  | nil =>
      rw [captured_nil, (ChunkConfig.cliPcm_framewise h).pcmOf_nil]
      apply cut_nil
  | append_singleton callbacks cb ih =>
      rw [audioCallbacks_concat, captured_concat]
      apply ih.audioCallback h (dvd_captured callbacks) cb.whole

end EncoderFeed

namespace PcmStream

/-- Only the end of a read adds to the bytes read. -/
theorem read_of_next {α : Type*} {frameBytes sampleRate : Nat} {s s' : PcmStream α}
    {a : RingAction α frameBytes} (ha : a ≠ .publishTail)
    (hnext : s.next sampleRate a = some s') :
  s'.read = s.read
  := by
  cases a with
  | callback | copyIn | publishHead => apply (next_of_produces rfl hnext).1
  | loadHead =>
      simp only [next] at hnext
      split at hnext
      next =>
        obtain rfl := Option.some.inj hnext
        simp only [loadHead]
        split <;> rfl
      next => contradiction
  | copyOut =>
      simp only [next] at hnext
      split at hnext
      next => contradiction
      next =>
        obtain ⟨-, hs'⟩ := Option.ite_none_right_eq_some.mp hnext
        obtain rfl := Option.some.inj hs'
        rfl
  | publishTail => contradiction

/-- The end of a read adds the bytes that have been copied. -/
theorem read_publishTail {α : Type*} {frameBytes sampleRate : Nat} {s s' : PcmStream α}
    (hnext : s.next sampleRate (.publishTail : RingAction α frameBytes) = some s') :
  ∃ buf, s'.read = s.read ++ buf
  := by
  simp only [next] at hnext
  split at hnext
  next => contradiction
  next len buf _ =>
    obtain ⟨-, hs'⟩ := Option.ite_none_right_eq_some.mp hnext
    obtain rfl := Option.some.inj hs'
    use buf
    rfl

end PcmStream

namespace ServiceAudio

variable {cfg : ChunkConfig}

/-- The ring is in order, and the encoder has got the blocks of the PCM of the bytes read. -/
def Law (cfg : ChunkConfig) (k : Nat) (s : ServiceAudio) : Prop :=
  (∃ head, s.stream.Placed cfg.frameBytes k head)
    ∧ s.encoded.Cut cfg (pcmOf cfg.servicePcm s.stream.read)

theorem law_start (h : cfg.upsampled = false) {k : Nat} {blank : UInt8} {capacity : UInt32}
    (hcap : capacity.toNat = 2 ^ k) :
  Law cfg k (start blank capacity)
  := by
  constructor
  · use 0
    apply PcmStream.start_placed _ hcap
  · change EncoderFeed.Cut cfg (pcmOf cfg.servicePcm []) {}
    rw [(ChunkConfig.servicePcm_framewise h).pcmOf_nil]
    apply EncoderFeed.cut_nil

theorem Law.next (h : cfg.upsampled = false) {k : Nat} {s t : ServiceAudio}
    {a : RingAction UInt8 cfg.frameBytes} (hs : Law cfg k s) (hnext : s.next cfg a = some t) :
  Law cfg k t
  := by
  obtain ⟨⟨head, hplaced⟩, hcut⟩ := hs
  obtain ⟨stream, hstream, rfl⟩ := Option.map_eq_some_iff.mp hnext
  obtain ⟨head', hplaced'⟩ := hplaced.next hstream
  by_cases ha : a = .publishTail
  · obtain rfl := ha
    constructor
    · use head'
    · obtain ⟨buf, hread⟩ := PcmStream.read_publishTail hstream
      have hwhole := hplaced'.read_whole
      rw [hread, List.length_append] at hwhole
      have hchunk := (Nat.dvd_add_right hplaced.read_whole).mp hwhole
      dsimp only
      rw [hread, List.drop_left]
      apply hcut.encodeThread h hplaced.read_whole hchunk
  · have hread := PcmStream.read_of_next ha hstream
    cases a with
    | publishTail => contradiction
    | callback | copyIn | publishHead | loadHead | copyOut =>
        constructor
        · use head'
        · dsimp only
          rw [hread]
          apply hcut

theorem law_of_reachable (h : cfg.upsampled = false) {k : Nat} {blank : UInt8}
    {capacity : UInt32} {s : ServiceAudio} (hcap : capacity.toNat = 2 ^ k)
    (hs : Reachable (next cfg) (start blank capacity) s) :
  Law cfg k s
  := by
  apply hs.invariant (I := Law cfg k)
  · apply law_start h hcap
  · intro s a t hlaw hnext
    apply hlaw.next h hnext

/-- What reaches the encoder of the service: the blocks of the PCM of the bytes read, which are
whole frames and the first ones of the stream of the callbacks. -/
structure Delivered (cfg : ChunkConfig) (s : ServiceAudio) : Prop where
  read_initial : s.stream.read <+: s.stream.stream
  read_whole : cfg.frameBytes ∣ s.stream.read.length
  cut : s.encoded.Cut cfg (pcmOf cfg.servicePcm s.stream.read)

theorem Law.delivered {k : Nat} {s : ServiceAudio} (h : Law cfg k s) :
  Delivered cfg s
  := by
  obtain ⟨⟨head, hplaced⟩, hcut⟩ := h
  constructor
  · apply (List.prefix_append _ _).trans hplaced.read_initial
  · apply hplaced.read_whole
  · apply hcut

end ServiceAudio

/-- However the stream is cut, into callbacks and into reads from the ring, the encoder gets
the blocks of its PCM and what they leave is kept.  The PCM of a stream is put together from
the PCM of its parts. -/
theorem cut_of_chunks (cfg : ChunkConfig) :
  (cfg.upsampled = false →
    (∀ (k : Nat) (blank : UInt8) (capacity : UInt32) (s : ServiceAudio),
      capacity.toNat = 2 ^ k →
      Reachable (ServiceAudio.next cfg) (.start blank capacity) s →
      ServiceAudio.Delivered cfg s)
    ∧ ∀ chunks : List (List UInt8), (∀ chunk ∈ chunks, cfg.frameBytes ∣ chunk.length) →
        pcmOf cfg.servicePcm chunks.flatten = (chunks.map (pcmOf cfg.servicePcm)).flatten)
  ∧ (cfg.cliUpsampled = false →
    (∀ callbacks : List (Callback UInt8 cfg.frameBytes),
      (EncoderFeed.audioCallbacks cfg callbacks).Cut cfg (pcmOf cfg.cliPcm (captured callbacks)))
    ∧ ∀ chunks : List (List UInt8), (∀ chunk ∈ chunks, cfg.frameBytes ∣ chunk.length) →
        pcmOf cfg.cliPcm chunks.flatten = (chunks.map (pcmOf cfg.cliPcm)).flatten)
  := by
  constructor
  · intro h
    constructor
    · intro k blank capacity s hcap hs
      apply (ServiceAudio.law_of_reachable h hcap hs).delivered
    · intro chunks hwhole
      apply (ChunkConfig.servicePcm_framewise h).pcmOf_flatten hwhole
  · intro h
    constructor
    · apply EncoderFeed.cut_audioCallbacks h
    · intro chunks hwhole
      apply (ChunkConfig.cliPcm_framewise h).pcmOf_flatten hwhole

/-- Stereo of 16 bits for an encoder of 32-bit samples that takes two frames at once. -/
def stereo16 : ChunkConfig where
  channels := 2
  bitsPerSample := 16
  sampleRate := 48000
  encodeSampleRate := 48000
  activeChannels := 2
  bytesPerSample := 4
  pcmFramesPerEncode := 2
  sbc := false
  positive := by decide
  scale := 2147483647
  active_eq := by decide
  width_eq := .inr rfl

def threeFrames : Callback UInt8 4 :=
  ⟨[1, 2, 3, 4, 5, 6, 7, 8, 9, 10, 11, 12], by decide, by decide⟩

/-- The three frames go through the ring in one read. -/
def oneRead : List (RingAction UInt8 4) :=
  [.callback threeFrames] ++ List.replicate 12 .copyIn ++ [.publishHead, .loadHead]
    ++ List.replicate 12 .copyOut ++ [.publishTail]

/-- Both programs give a block of two frames to the encoder. -/
theorem cut_of_chunks_stereo16 :
  (∃ s, exec (ServiceAudio.next stereo16) (.start 0 16) oneRead = some s
    ∧ s.encoded.handed.length = 1 ∧ ServiceAudio.Delivered stereo16 s)
  ∧ (EncoderFeed.audioCallbacks stereo16 [threeFrames]).Cut stereo16
      (pcmOf stereo16.cliPcm (captured [threeFrames]))
  := by
  obtain ⟨hservice, hcli⟩ := cut_of_chunks stereo16
  constructor
  · have hlength : (exec (ServiceAudio.next stereo16) (.start 0 16) oneRead).map
        (fun s => s.encoded.handed.length) = some 1 := rfl
    obtain ⟨s, hs, hlength⟩ := Option.map_eq_some_iff.mp hlength
    use s, hs, hlength
    apply (hservice rfl).1 4 0 16 s rfl
    use oneRead
    apply run_of_exec hs
  · apply (hcli rfl).1 [threeFrames]

end Ssc
