import SscOnWindows.Pipeline.PcmRing

/-!
# An iteration of the encode thread

The inner loop of `encode_thread_func` takes a chunk of captured bytes from the ring,
converts it to the PCM of the encoder, puts the residual of the last iteration in front,
encodes the PCM piece by piece and packs the output into media packets.

Audio is followed by where it comes from: a byte of PCM is represented by the position in
the captured stream of the earliest byte it was computed from.
-/

namespace Ssc

/-- What does not change while the service streams: the capture format, and what the encoder
asks for. -/
structure EncodeConfig where
  channels : Nat
  bitsPerSample : Nat
  sampleRate : Nat
  encodeSampleRate : Nat
  activeChannels : Nat
  bytesPerSample : Nat
  pcmFramesPerEncode : Nat
  sbc : Bool
  positive : 0 < pcmFramesPerEncode * activeChannels * bytesPerSample

namespace EncodeConfig

/-- `frame_bytes`. -/
def frameBytes (cfg : EncodeConfig) : Nat :=
  cfg.channels * (cfg.bitsPerSample / 8)

/-- `bytes_per_encode`. -/
def bytesPerEncode (cfg : EncodeConfig) : Nat :=
  cfg.pcmFramesPerEncode * cfg.activeChannels * cfg.bytesPerSample

/-- `max_raw`. -/
def maxRaw (cfg : EncodeConfig) (mtu : Nat) : Nat :=
  let mtu := if mtu = 0 then 679 else mtu
  if cfg.sbc then mtu - 1 else mtu

/-- The captured frames are upsampled. -/
def upsampled (cfg : EncodeConfig) : Bool :=
  cfg.encodeSampleRate = 96000 && cfg.channels = 2 && cfg.bitsPerSample = 32

end EncodeConfig

/-- The number of frames `upsample_2x_stereo_f32` returns. -/
def upsampledFrames (inFrames : Nat) : Nat :=
  if inFrames < 2 then 0 else 2 * inFrames - 1

/-- The earliest input frame that enters the output frame `m` of `upsample_2x_stereo_f32`:
an even frame is a copy, an odd one is interpolated between two frames, or between four
where there are four. -/
def upsampleOrigin (inFrames m : Nat) : Nat :=
  if m % 2 = 1 ∧ 1 ≤ m / 2 ∧ m / 2 + 2 < inFrames then m / 2 - 1 else m / 2

namespace EncodeConfig

/-- The conversion of a chunk to the PCM of the encoder: upsampling, conversion of the
samples, and the downmix, which keeps the first channels.  Other sample sizes than 16 and
32 bits are given up on. -/
def toPcm (cfg : EncodeConfig) (bytes : List Nat) : Option (List Nat) :=
  if cfg.bitsPerSample = 32 ∨ cfg.bitsPerSample = 16 then
    let inFrames := bytes.length / cfg.frameBytes
    let frames := if cfg.upsampled then upsampledFrames inFrames else inFrames
    let origin m := if cfg.upsampled then upsampleOrigin inFrames m else m
    some ((List.range frames).flatMap fun m =>
      (List.range cfg.activeChannels).flatMap fun channel =>
        (bytes[(origin m * cfg.channels + channel) * (cfg.bitsPerSample / 8)]?).toList.flatMap
          (List.replicate cfg.bytesPerSample))
  else none

/-- The PCM of a chunk comes from its bytes. -/
theorem mem_of_mem_toPcm {cfg : EncodeConfig} {bytes pcm : List Nat}
    (h : cfg.toPcm bytes = some pcm) :
  ∀ x ∈ pcm, x ∈ bytes
  := by
  intro x hx
  obtain ⟨-, hpcm⟩ := Option.ite_none_right_eq_some.mp h
  obtain rfl := Option.some.inj hpcm
  simp only [List.mem_flatMap, Option.mem_toList, List.mem_replicate] at hx
  obtain ⟨m, -, channel, -, y, hy, -, rfl⟩ := hx
  apply List.mem_of_getElem? hy

end EncodeConfig

/-- The encode loop of an iteration: the PCM with the offset of the next piece, and the
packet that is being put together. -/
structure Batch where
  pcm : List Nat
  offset : Nat
  accum : List Nat
  accumSize : Nat
  accumFrames : Nat
  firstTs : UInt32
  maxRaw : Nat

/-- What `send_media` is called with. -/
structure AudioPacket where
  audio : List Nat
  timestamp : UInt32

namespace Batch

/-- The piece that is encoded next. -/
def chunk (b : Batch) (cfg : EncodeConfig) : List Nat :=
  (b.pcm.drop b.offset).take cfg.bytesPerEncode

/-- There is a piece to encode. -/
def more (b : Batch) (cfg : EncodeConfig) : Bool :=
  b.offset + cfg.bytesPerEncode ≤ b.pcm.length

/-- The packet that is being put together. -/
def packet (b : Batch) : AudioPacket where
  audio := b.accum
  timestamp := b.firstTs

/-- The output of the encoder does not fit into the packet any more. -/
def full (b : Batch) (size : Nat) : Bool :=
  b.accumSize + size > b.maxRaw && b.accumFrames > 0

/-- The output of the encoder for the next piece is put into the packet. -/
def accumulate (b : Batch) (cfg : EncodeConfig) (size frames : Nat) : Batch :=
  if b.accumSize + size ≤ 2048 then
    { b with
      accum := b.accum ++ b.chunk cfg
      accumSize := b.accumSize + size
      accumFrames := b.accumFrames + frames }
  else b

/-- A packet is begun. -/
def restart (b : Batch) (timestamp : UInt32) : Batch :=
  { b with accum := [], accumSize := 0, accumFrames := 0, firstTs := timestamp }

/-- The next piece is encoded. -/
def advance (b : Batch) (cfg : EncodeConfig) : Batch :=
  { b with offset := b.offset + cfg.bytesPerEncode }

/-- All audio of the batch is from the position `n` on. -/
def From (n : Nat) (b : Batch) : Prop :=
  (∀ x ∈ b.pcm, n ≤ x) ∧ (∀ x ∈ b.accum, n ≤ x)

theorem From.chunk {n : Nat} {b : Batch} (h : b.From n) (cfg : EncodeConfig) :
  ∀ x ∈ b.chunk cfg, n ≤ x
  := by
  intro x hx
  apply h.1
  apply List.mem_of_mem_drop (List.mem_of_mem_take hx)

theorem From.accumulate {n : Nat} {b : Batch} (h : b.From n) (cfg : EncodeConfig)
    (size frames : Nat) :
  (b.accumulate cfg size frames).From n
  := by
  rw [Batch.accumulate]
  split
  · constructor
    · apply h.1
    · intro x hx
      obtain hx | hx := List.mem_append.mp hx
      · apply h.2 x hx
      · apply h.chunk cfg x hx
  · apply h

theorem From.restart {n : Nat} {b : Batch} (h : b.From n) (timestamp : UInt32) :
  (b.restart timestamp).From n
  := ⟨h.1, by simp [Batch.restart]⟩

theorem From.advance {n : Nat} {b : Batch} (h : b.From n) (cfg : EncodeConfig) :
  (b.advance cfg).From n
  := h

@[simp]
theorem accumulate_firstTs (b : Batch) (cfg : EncodeConfig) (size frames : Nat) :
  (b.accumulate cfg size frames).firstTs = b.firstTs
  := by
  rw [accumulate]
  split
  · rfl
  · rfl

end Batch

/-- Where the encode thread is: what it has loaded and what it is about to do. -/
inductive ThreadPoint where
  | outside
  | entered
  | headLoaded (head : UInt32)
  | counted (len : Nat)
  | reading (tail : UInt32) (len : Nat) (buf : List Nat)
  | converting (bytes : List Nat)
  | combined (pcm : List Nat)
  | encode (b : Batch)
  | encoding (b : Batch)
  | sending (b : Batch) (size frames : Nat)
  | sent (b : Batch) (size frames : Nat)
  | encoded (b : Batch)
  | stamping (b : Batch) (timestamp : UInt32)
  | finishing (b : Batch)
  | keeping (rest : List Nat)
  | ended

namespace ThreadPoint

/-- The batch of the encode loop, when the thread is in it. -/
def batch? : ThreadPoint → Option Batch
  | encode b | encoding b | sending b _ _ | sent b _ _ | encoded b | stamping b _
  | finishing b => some b
  | _ => none

/-- The audio the thread has read from the ring and not begun to encode. -/
def held : ThreadPoint → List Nat
  | converting bytes => bytes
  | combined pcm => pcm
  | _ => []

/-- The residual the thread is about to store. -/
def rest : ThreadPoint → List Nat
  | keeping rest => rest
  | _ => []

/-- The thread is in the `try` block of the iteration. -/
def inTry : ThreadPoint → Bool
  | outside | entered | headLoaded _ | counted _ | reading _ _ _ | ended => false
  | _ => true

/-- The iteration is about to end without a packet for the pieces it has
encoded. -/
def silent (cfg : EncodeConfig) : ThreadPoint → Bool
  | stamping b _ => !(b.advance cfg).more cfg && b.accumFrames = 0
  | _ => false

/-- The thread has sent a packet and not begun the next one. -/
def isSent : ThreadPoint → Bool
  | sent _ _ _ => true
  | _ => false

/-- The head of the encode loop: the next piece is encoded, and behind the last one the last
packet is sent. -/
def loop (cfg : EncodeConfig) (b : Batch) : ThreadPoint :=
  if b.more cfg then encode b
  else if b.accumFrames > 0 then finishing b
  else keeping (b.pcm.drop b.offset)

/-- The encode loop behind the answer of the encoder, which is the size and the number of
frames of its output when there is one. -/
def answered (cfg : EncodeConfig) (b : Batch) : Option (Nat × Nat) → ThreadPoint
  | none => encoded b
  | some (size, frames) =>
      if b.full size then sending b size frames else encoded (b.accumulate cfg size frames)

/-- The audio of the thread in its encode loop is from the position `n` on, and so is the
residual it is about to store. -/
def From (n : Nat) (p : ThreadPoint) : Prop :=
  (∀ b, p.batch? = some b → b.From n) ∧ ∀ x ∈ p.rest, n ≤ x

theorem from_of_batch {n : Nat} {b : Batch} (h : b.From n) {p : ThreadPoint}
    (hp : p.batch? = some b) (hrest : p.rest = []) :
  p.From n
  := by
  constructor
  · intro b' hb'
    rw [hp] at hb'
    obtain rfl := Option.some.inj hb'
    apply h
  · rw [hrest]
    exact nofun

/-- Outside of the encode loop, and of what comes behind it, nothing is asked. -/
theorem from_of_none {n : Nat} {p : ThreadPoint} (hp : p.batch? = none) (hrest : p.rest = []) :
  p.From n
  := by
  constructor
  · intro b hb
    rw [hp] at hb
    contradiction
  · rw [hrest]
    exact nofun

theorem from_loop {n : Nat} {b : Batch} (h : b.From n) (cfg : EncodeConfig) :
  (loop cfg b).From n
  := by
  rw [loop]
  split
  · apply from_of_batch h rfl rfl
  · split
    · apply from_of_batch h rfl rfl
    · constructor
      · exact nofun
      · intro x hx
        apply h.1
        apply List.mem_of_mem_drop hx

/-- The encode loop holds no audio outside of its batch. -/
theorem held_loop (cfg : EncodeConfig) (b : Batch) :
  (loop cfg b).held = []
  := by
  rw [loop]
  split
  · rfl
  · split
    · rfl
    · rfl

theorem isSent_loop (cfg : EncodeConfig) (b : Batch) :
  (loop cfg b).isSent = false
  := by
  rw [loop]
  split
  · rfl
  · split
    · rfl
    · rfl

theorem isSent_of_none {p : ThreadPoint} (h : p.batch? = none) :
  p.isSent = false
  := by
  cases p with
  | sent b size frames => contradiction
  | _ => rfl

/-- The encode loop goes on with its batch. -/
theorem batch?_loop {cfg : EncodeConfig} {b b' : Batch} (h : (loop cfg b).batch? = some b') :
  b' = b
  := by
  rw [loop] at h
  split at h
  · apply (Option.some.inj h).symm
  · split at h
    · apply (Option.some.inj h).symm
    · contradiction

/-- An iteration that leaves its encode loop behind a piece leaves it without a packet. -/
theorem silent_of_loop {cfg : EncodeConfig} {b : Batch} {timestamp : UInt32}
    (h : (loop cfg (b.advance cfg)).batch? = none) :
  (stamping b timestamp).silent cfg = true
  := by
  rw [loop] at h
  split at h
  · contradiction
  · split at h
    · contradiction
    · rename_i hmore hframes
      rw [Bool.not_eq_true] at hmore
      have hzero : b.accumFrames = 0 := Nat.eq_zero_of_not_pos hframes
      simp [silent, hmore, hzero]

theorem from_answered {n : Nat} {b : Batch} (h : b.From n) (cfg : EncodeConfig)
    (out : Option (Nat × Nat)) :
  (answered cfg b out).From n
  := by
  cases out with
  | none => apply from_of_batch h rfl rfl
  | some r =>
      rw [answered]
      split
      · apply from_of_batch h rfl rfl
      · apply from_of_batch (h.accumulate cfg r.1 r.2) rfl rfl

/-- Behind an answer the thread is in its encode loop, with the packet begun before. -/
theorem answered_batch (cfg : EncodeConfig) (b : Batch) (out : Option (Nat × Nat)) :
  (∃ b', (answered cfg b out).batch? = some b' ∧ b'.firstTs = b.firstTs)
    ∧ (answered cfg b out).rest = [] ∧ (answered cfg b out).held = []
    ∧ (answered cfg b out).isSent = false
  := by
  cases out with
  | none => exact ⟨⟨b, rfl, rfl⟩, rfl, rfl, rfl⟩
  | some r =>
      rw [answered]
      split
      · exact ⟨⟨b, rfl, rfl⟩, rfl, rfl, rfl⟩
      · exact ⟨⟨b.accumulate cfg r.1 r.2, rfl, b.accumulate_firstTs cfg r.1 r.2⟩, rfl, rfl, rfl⟩

end ThreadPoint

end Ssc
