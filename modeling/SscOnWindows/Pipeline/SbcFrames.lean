import SscOnWindows.Encoder.SbcEncoder
import SscOnWindows.Pipeline.Chunking

/-!
# The frame counts of SBC packets

A packet of SBC frames has a header of one byte before them, whose low four bits are the number
of frames.  The frames of a stream have one length, so that the packets of a chunk hold as many
of them as the limit allows, and the last one what is left.  The number goes to the header
modulo 16, which is right up to 15 frames.
-/

namespace Ssc

open Packing Blocks

variable {program : Program}

/-- The packet has its number of frames, each of `length` bytes, in the low four bits of its
header. -/
def MediaPacket.Labelled (length : ℕ) (packet : MediaPacket) : Prop :=
  ∃ header payload, packet.data = header :: payload
    ∧ payload.length = (header &&& 0x0F).toNat * length ∧ 1 ≤ (header &&& 0x0F).toNat

/-- The packet that `send_media` queues for the call is right about its frames. -/
def MediaCall.Labelled (length : ℕ) (call : MediaCall program) : Prop :=
  ∀ packet,
    Transport.buildPacket call.data call.timestamp.toNat call.frames .sbc = some packet →
    packet.Labelled length

/-- The numbers of frames of the packets of a chunk, when the encoder gives `n` frames of
`length` bytes. -/
def packetCounts (length limit n : ℕ) : List ℕ :=
  let full := max 1 (limit / length)
  if n = 0 then []
  else if limit / length > accumCapacity / length then [min n (accumCapacity / length)]
  else List.replicate ((n - 1) / full) full ++ [(n - 1) % full + 1]

/-- No packet of more than 15 frames has a slot. -/
def CountsFit (length limit n : ℕ) : Prop :=
  ∀ k ∈ packetCounts length limit n, k ≤ 15 ∨ k * length > slotRoom .sbc

instance (length limit n : ℕ) : Decidable (CountsFit length limit n) :=
  inferInstanceAs (Decidable (∀ k ∈ _, k ≤ 15 ∨ k * length > slotRoom .sbc))

/-! ### Frames of one length -/

/-- A packet that is filled with frames of one length: the packets sent, and the frames in it. -/
structure FrameCount where
  sent : List ℕ := []
  held : ℕ := 0

namespace FrameCount

/-- One more frame. -/
def next (length limit : ℕ) (c : FrameCount) : FrameCount :=
  if (c.held + 1) * length > limit ∧ c.held > 0 then ⟨c.sent ++ [c.held], 1⟩
  else if (c.held + 1) * length ≤ accumCapacity then { c with held := c.held + 1 }
  else c

/-- The packets behind the last frame. -/
def packets (c : FrameCount) : List ℕ :=
  if c.held > 0 then c.sent ++ [c.held] else c.sent

variable {length limit : ℕ}

theorem next_eq (hlength : 0 < length) (c : FrameCount) :
  c.next length limit
    = if limit / length ≤ c.held ∧ c.held > 0 then ⟨c.sent ++ [c.held], 1⟩
      else if c.held < accumCapacity / length then { c with held := c.held + 1 }
      else c
  := by
  have hiff (bound : ℕ) : (c.held + 1) * length ≤ bound ↔ c.held < bound / length := by
    rw [← Nat.le_div_iff_mul_le hlength]
    rfl
  have hfull : (c.held + 1) * length > limit ↔ limit / length ≤ c.held := by
    rw [gt_iff_lt, ← not_le, hiff, not_lt]
  simp only [next, hfull, hiff]

/-- Frames that do not reach the limit before the buffer is full stay in one packet. -/
theorem next_iterate_of_stuck (hlength : 0 < length)
    (h : limit / length > accumCapacity / length) (n : ℕ) :
  (next length limit)^[n] {} = ⟨[], min n (accumCapacity / length)⟩
  := by
  induction n with
  | zero => simp
  | succ n ih =>
      rw [Function.iterate_succ_apply', ih, next_eq hlength, if_neg (by dsimp only; omega)]
      by_cases hroom : n < accumCapacity / length
      · rw [if_pos (by dsimp only; omega), min_eq_left hroom.le, min_eq_left hroom]
      · rw [if_neg (by dsimp only; omega)]
        congr 1
        omega

/-- The last packet has what the full packets have left. -/
theorem next_iterate (hlength : 0 < length) (hfits : length ≤ accumCapacity)
    (h : ¬ limit / length > accumCapacity / length) (n : ℕ) :
  (next length limit)^[n + 1] {}
    = ⟨List.replicate (n / max 1 (limit / length)) (max 1 (limit / length)),
        n % max 1 (limit / length) + 1⟩
  := by
  have hone : 1 ≤ accumCapacity / length := (Nat.one_le_div_iff hlength).mpr hfits
  generalize hfull : max 1 (limit / length) = full
  have hpos : 0 < full := by omega
  induction n with
  | zero =>
      rw [Function.iterate_one, next_eq hlength, if_neg (by simp), if_pos (by dsimp only; omega),
        Nat.zero_div, Nat.zero_mod]
      rfl
  | succ n ih =>
      have hmod := Nat.mod_lt n hpos
      have hdiv := Nat.div_add_mod n full
      rw [Function.iterate_succ_apply', ih, next_eq hlength]
      by_cases hlast : n % full + 1 = full
      · have hnext : (n + 1) / full = n / full + 1 ∧ (n + 1) % full = 0 := by
          apply (Nat.div_mod_unique hpos).mpr
          rw [Nat.mul_add, Nat.mul_one]
          omega
        rw [if_pos (by dsimp only; omega), hlast, hnext.1, hnext.2, List.replicate_succ']
      · have hnext : (n + 1) / full = n / full ∧ (n + 1) % full = n % full + 1 := by
          apply (Nat.div_mod_unique hpos).mpr
          omega
        rw [if_neg (by dsimp only; omega), if_pos (by dsimp only; omega), hnext.1, hnext.2]

theorem packets_iterate (limit : ℕ) (hlength : 0 < length) (hfits : length ≤ accumCapacity)
    (n : ℕ) :
  ((next length limit)^[n] {}).packets = packetCounts length limit n
  := by
  have hone : 1 ≤ accumCapacity / length := (Nat.one_le_div_iff hlength).mpr hfits
  cases n with
  | zero => rfl
  | succ n =>
      rw [packetCounts, if_neg (Nat.succ_ne_zero n)]
      split
      · next hstuck =>
          rw [next_iterate_of_stuck hlength hstuck, packets, if_pos (by dsimp only; omega)]
          rfl
      · next hstuck =>
          rw [next_iterate hlength hfits hstuck, packets, if_pos (Nat.succ_pos _)]
          rfl

end FrameCount

/-! ### Packets of frames of one length -/

/-- The payload has as many frames of `length` bytes as the call says. -/
structure MediaCall.Uniform (length : ℕ) (call : MediaCall program) : Prop where
  length_eq : call.data.length = call.pieces.length * length
  frames_eq : call.frames = UInt8.ofNat call.pieces.length
  pos : 0 < call.pieces.length
  length_le : call.data.length ≤ accumCapacity

theorem toNat_and_fifteen (k : ℕ) :
  (UInt8.ofNat k &&& 0x0F).toNat = k % 16
  := by
  rw [UInt8.toNat_and, UInt8.toNat_ofNat']
  change k % 2 ^ 8 &&& (2 ^ 4 - 1) = k % 16
  rw [Nat.and_two_pow_sub_one_eq_mod, Nat.mod_mod_of_dvd _ (by decide)]

/-- The header is right up to 15 frames. -/
theorem MediaCall.Uniform.labelled_iff {length : ℕ} {call : MediaCall program}
    (h : call.Uniform length) (hlength : 0 < length) :
  call.Labelled length
    ↔ call.pieces.length ≤ 15 ∨ call.pieces.length * length > slotRoom .sbc
  := by
  have hpos := h.pos
  have hle := h.length_le
  rw [accumCapacity] at hle
  have hbuild : Transport.buildPacket call.data call.timestamp.toNat call.frames .sbc
      = if call.data.length > slotRoom .sbc then none
        else some ⟨(call.frames &&& 0x0F) :: call.data, call.data.length + 1,
          call.timestamp.toNat, call.frames⟩ := by
    have hmod : (call.data.length + 1) % 2 ^ 32 = call.data.length + 1 := by
      apply Nat.mod_eq_of_lt
      omega
    have hgt : call.data.length + 1 > mediaSlotSize ↔ call.data.length > slotRoom .sbc := by
      rw [slotRoom, mediaSlotSize, if_pos rfl]
      omega
    simp only [Transport.buildPacket, hmod, hgt]
  rw [← h.length_eq, MediaCall.Labelled, hbuild]
  by_cases hroom : call.data.length > slotRoom .sbc
  · rw [if_pos hroom]
    constructor
    · intro _
      apply Or.inr hroom
    · intro _ packet hpacket
      contradiction
  · rw [if_neg hroom, or_iff_left hroom]
    have hheader : (call.frames &&& 0x0F &&& 0x0F).toNat = call.pieces.length % 16 := by
      rw [UInt8.and_assoc, UInt8.and_self, h.frames_eq, toNat_and_fifteen]
    constructor
    · intro hlabelled
      obtain ⟨header, payload, hdata, hframes, -⟩ := hlabelled _ rfl
      obtain ⟨rfl, rfl⟩ := List.cons.inj hdata
      rw [hheader, h.length_eq, Nat.mul_right_cancel_iff hlength] at hframes
      omega
    · intro hcount packet hpacket
      obtain rfl := Option.some.inj hpacket
      refine ⟨_, _, rfl, ?_⟩
      rw [hheader, h.length_eq, Nat.mod_eq_of_lt (by omega)]
      exact ⟨rfl, hpos⟩

namespace Packetizer

variable {s : Packetizer program} {c : FrameCount} {r : EncodeResult program} {length limit : ℕ}

/-- The packets are those that are counted. -/
structure Counts (length : ℕ) (s : Packetizer program) (c : FrameCount) : Prop where
  sent_eq : s.sent.map (fun call => call.pieces.length) = c.sent
  held_eq : s.accum.length = c.held
  size_eq : s.accumSize = c.held * length
  size_le : s.accumSize ≤ accumCapacity
  frames_eq : s.accumFrames = UInt32.ofNat c.held
  uniform : ∀ call ∈ s.sent, call.Uniform length

theorem Counts.frames_pos_iff (h : s.Counts length c) (hlength : 0 < length) :
  s.accumFrames > 0 ↔ c.held > 0
  := by
  have hle : c.held ≤ accumCapacity := by
    apply Nat.le_trans _ h.size_le
    rw [h.size_eq]
    apply Nat.le_mul_of_pos_right _ hlength
  rw [accumCapacity] at hle
  rw [h.frames_eq]
  change 0 < (UInt32.ofNat c.held).toNat ↔ _
  rw [UInt32.toNat_ofNat', Nat.mod_eq_of_lt (by omega)]

theorem Counts.call (h : s.Counts length c) (hheld : c.held > 0) :
  s.call.Uniform length
  := by
  have hdata : s.call.data.length = s.accumSize := length_data s.call
  constructor
  · rw [hdata, h.size_eq, ← h.held_eq]
    rfl
  · change s.accumFrames.toUInt8 = UInt8.ofNat s.accum.length
    rw [h.frames_eq, h.held_eq]
    apply UInt32.toUInt8_ofNat
  · change 0 < s.accum.length
    rw [h.held_eq]
    apply hheld
  · rw [hdata]
    apply h.size_le

theorem Counts.flush (h : s.Counts length c) (hheld : c.held > 0) :
  s.flush.Counts length ⟨c.sent ++ [c.held], 0⟩
  := by
  constructor
  · change (s.sent ++ [s.call]).map _ = _
    rw [List.map_append, h.sent_eq, ← h.held_eq]
    rfl
  · rfl
  · change 0 = _
    rw [Nat.zero_mul]
  · apply Nat.zero_le
  · rfl
  · change ∀ call ∈ s.sent ++ [s.call], _
    rw [List.forall_mem_append, List.forall_mem_singleton]
    exact ⟨h.uniform, h.call hheld⟩

theorem Counts.ready (h : s.Counts length c) (limit : ℕ) (hlength : 0 < length) :
  (s.ready limit length).Counts length
    (if (c.held + 1) * length > limit ∧ c.held > 0 then ⟨c.sent ++ [c.held], 0⟩ else c)
  := by
  have hfull : s.full limit length = true ↔ (c.held + 1) * length > limit ∧ c.held > 0 := by
    rw [full, Bool.and_eq_true, decide_eq_true_eq, decide_eq_true_eq,
      h.frames_pos_iff hlength, h.size_eq, Nat.succ_mul]
  rw [Packetizer.ready]
  simp only [hfull]
  split
  · next hpacket => apply h.flush hpacket.2
  · apply h

theorem Counts.accumulate (h : s.Counts length c) (hr : r.size = length ∧ r.frames = 1) :
  (s.accumulate r).Counts length
    (if (c.held + 1) * length ≤ accumCapacity then { c with held := c.held + 1 } else c)
  := by
  have hroom : s.accumSize + r.size ≤ accumCapacity ↔ (c.held + 1) * length ≤ accumCapacity := by
    rw [h.size_eq, hr.1, Nat.succ_mul]
  by_cases hfits : (c.held + 1) * length ≤ accumCapacity
  · have hsize := accumSize_accumulate (hroom.mpr hfits)
    rw [if_pos hfits]
    constructor
    · rw [sent_accumulate]
      apply h.sent_eq
    · rw [Packetizer.accumulate, if_pos (hroom.mpr hfits), List.length_append, h.held_eq]
      rfl
    · rw [hsize, h.size_eq, hr.1, Nat.succ_mul]
    · rw [hsize]
      apply hroom.mpr hfits
    · rw [Packetizer.accumulate, if_pos (hroom.mpr hfits)]
      change s.accumFrames + r.frames = _
      rw [h.frames_eq, hr.2, UInt32.ofNat_add]
      rfl
    · rw [sent_accumulate]
      apply h.uniform
  · rw [if_neg hfits, accumulate_of_lost (fun hlt => hfits (hroom.mp hlt))]
    apply h

/-- A block adds a frame, or nothing. -/
theorem Counts.encode (h : s.Counts length c) (limit : ℕ) (hlength : 0 < length)
    (hfits : length ≤ accumCapacity) (hr : r.OneFrame length) (pcmFrames : UInt32) :
  (s.encode pcmFrames limit r).Counts length
    (if r.productive then c.next length limit else c)
  := by
  suffices hanswer : (s.answer limit r).Counts length
      (if r.productive then c.next length limit else c) from
    ⟨hanswer.sent_eq, hanswer.held_eq, hanswer.size_eq, hanswer.size_le, hanswer.frames_eq,
      hanswer.uniform⟩
  rw [answer]
  split
  · next hproductive =>
      have hone := hr hproductive
      have hready := (h.ready limit hlength).accumulate hone
      rw [← hone.1] at hready
      rw [FrameCount.next, ← hone.1]
      split at hready
      · next hpacket =>
          rw [if_pos hpacket]
          rw [if_pos (by rw [hone.1, Nat.zero_add, Nat.one_mul]; apply hfits)] at hready
          apply hready
      · next hpacket =>
          rw [if_neg hpacket]
          apply hready
  · apply h

/-- The blocks of a chunk. -/
theorem Counts.encodeAll {rs : List (EncodeResult program)} (h : s.Counts length c) (limit : ℕ)
    (hlength : 0 < length) (hfits : length ≤ accumCapacity)
    (hrs : ∀ r ∈ rs, r.OneFrame length) (pcmFrames : UInt32) :
  (s.encodeAll pcmFrames limit rs).Counts length
    ((FrameCount.next length limit)^[rs.countP EncodeResult.productive] c)
  := by
  induction rs generalizing s c with
  | nil => apply h
  | cons r rs ih =>
      obtain ⟨hr, hrest⟩ := List.forall_mem_cons.mp hrs
      have hnext := ih (h.encode limit hlength hfits hr pcmFrames) hrest
      rw [encodeAll_cons, List.countP_cons]
      split at hnext
      · next hproductive =>
          rw [hproductive, if_pos rfl, Function.iterate_succ_apply]
          apply hnext
      · next hproductive =>
          rw [if_neg hproductive, Nat.add_zero]
          apply hnext

/-- The packets of a chunk are right about their frames exactly when no packet of more than 15
frames has a slot. -/
theorem chunk_labelled_iff {rs : List (EncodeResult program)} (hlength : 0 < length)
    (hfits : length ≤ accumCapacity) (hrs : ∀ r ∈ rs, r.OneFrame length)
    (s : Packetizer program) (pcmFrames : UInt32) (mtu : UInt16) :
  (∀ call ∈ (s.chunk .sbc pcmFrames mtu rs).sent, call.Labelled length)
    ↔ CountsFit length (maxRaw .sbc mtu) (rs.countP EncodeResult.productive)
  := by
  have hrestart : s.restart.Counts length {} := by
    constructor
    · rfl
    · rfl
    · change 0 = _
      rw [Nat.zero_mul]
    · apply Nat.zero_le
    · rfl
    · nofun
  have hcounts := hrestart.encodeAll (maxRaw .sbc mtu) hlength hfits hrs pcmFrames
  have hpackets := FrameCount.packets_iterate (maxRaw .sbc mtu) hlength hfits
    (rs.countP EncodeResult.productive)
  rw [CountsFit, ← hpackets, chunk]
  generalize s.restart.encodeAll pcmFrames (maxRaw .sbc mtu) rs = t at hcounts ⊢
  generalize (FrameCount.next length (maxRaw .sbc mtu))^[rs.countP EncodeResult.productive] {}
    = c at hcounts ⊢
  have hcalls (calls : List (MediaCall program))
      (huniform : ∀ call ∈ calls, call.Uniform length) :
      (∀ call ∈ calls, call.Labelled length)
        ↔ ∀ k ∈ calls.map (fun call => call.pieces.length),
          k ≤ 15 ∨ k * length > slotRoom .sbc := by
    rw [List.forall_mem_map]
    apply forall₂_congr
    intro call hcall
    apply (huniform call hcall).labelled_iff hlength
  rw [finish, FrameCount.packets]
  simp only [hcounts.frames_pos_iff hlength]
  split
  · next hheld =>
      rw [sendMedia, hcalls (t.sent ++ [t.call]), List.map_append, hcounts.sent_eq,
        ← hcounts.held_eq]
      · rfl
      · rw [List.forall_mem_append, List.forall_mem_singleton]
        exact ⟨hcounts.uniform, hcounts.call hheld⟩
  · rw [hcalls t.sent hcounts.uniform, hcounts.sent_eq]

end Packetizer

/-! ### Streams -/

/-- What does not change while SBC is streamed: samples of 16 bits at the rate of the capture,
and the quality. -/
structure SbcConfig extends ChunkConfig where
  quality : EncoderQuality
  bytesPerSample_eq : bytesPerSample = 2
  encodeSampleRate_eq : encodeSampleRate = sampleRate

/-- What a chunk brings: the MTU, and the bytes that have been captured.  The service has read
them from the ring. -/
structure SbcChunk (program : Program) (cfg : SbcConfig) where
  mtu : UInt16
  bytes : List UInt8
  read_eq : program = .service →
    ∃ avail, bytes.length = readBytes cfg.frameBytes cfg.sampleRate avail

/-- A stream of SBC packets, with the answers of the encoder in every chunk. -/
structure SbcStream (program : Program) (σ : Type*) where
  encoder : SbcEncoder σ
  feed : EncoderFeed := {}
  packetizer : Packetizer program := {}
  answers : List (UInt16 × List (EncodeResult program)) := []
  calls : List (MediaCall program) := []

/-- What the program makes of the bytes of a chunk. -/
def Program.feed (program : Program) (cfg : ChunkConfig) (feed : EncoderFeed)
    (bytes : List UInt8) : EncoderFeed :=
  match program with
  | service => feed.encodeThread cfg bytes
  | cli => feed.audioCallback cfg bytes

namespace SbcStream

variable {σ : Type*} {lib : SbcLibrary σ} {cfg : SbcConfig}

/-- A chunk is converted, encoded and sent. -/
def chunk (lib : SbcLibrary σ) (cfg : SbcConfig) (s : SbcStream program σ)
    (c : SbcChunk program cfg) : SbcStream program σ :=
  let feed := program.feed cfg.toChunkConfig s.feed c.bytes
  let encoded := s.encoder.encodeBlocks program lib (feed.handed.drop s.feed.handed.length)
  let packetizer :=
    s.packetizer.chunk .sbc (UInt32.ofNat s.encoder.pcmFramesPerSbcFrame) c.mtu encoded.1
  { encoder := encoded.2
    feed := feed
    packetizer := packetizer
    answers := s.answers ++ [(c.mtu, encoded.1)]
    calls := s.calls ++ packetizer.sent }

/-- The chunks, one after the other. -/
def run (lib : SbcLibrary σ) (cfg : SbcConfig) (encoder : SbcEncoder σ)
    (chunks : List (SbcChunk program cfg)) : SbcStream program σ :=
  chunks.foldl (chunk lib cfg) { encoder := encoder }

end SbcStream

/-! ### The blocks of a chunk -/

namespace EncoderFeed

variable {cfg : ChunkConfig} {s : EncoderFeed}

/-- What is put behind the residual is given to the encoder in whole blocks. -/
structure Fed (cfg : ChunkConfig) (s : EncoderFeed) (frames : ℕ) (t : EncoderFeed) : Prop where
  residual_lt : t.residual.length < cfg.bytesPerEncode
  handed_eq : t.handed = s.handed ++ t.handed.drop s.handed.length
  blocks_eq : ∀ block ∈ t.handed.drop s.handed.length, block.length = cfg.bytesPerEncode
  count_le : (t.handed.drop s.handed.length).length * cfg.bytesPerEncode
    ≤ s.residual.length + frames * (cfg.activeChannels * cfg.bytesPerSample)

theorem encode_fed (cfg : ChunkConfig) (s : EncoderFeed) (frames : ℕ) (pcm : List UInt8) :
  Fed cfg s frames (s.encode cfg frames pcm)
  := by
  have hpos := cfg.bytesPerEncode_pos
  generalize hcombined : s.residual ++ pcm.take (frames * cfg.activeChannels * cfg.bytesPerSample)
    = combined
  obtain ⟨hblocks, -⟩ := encodeLoop_blocks hpos combined 0 (Nat.zero_add _).ge
  rw [List.drop_zero] at hblocks
  have hhanded : (s.encode cfg frames pcm).handed
      = s.handed ++ blocks cfg.bytesPerEncode combined := by
    rw [encode, hcombined, hblocks]
  have hnew : (s.encode cfg frames pcm).handed.drop s.handed.length
      = blocks cfg.bytesPerEncode combined := by
    rw [hhanded, List.drop_left]
  constructor
  · rw [encode]
    dsimp only
    split
    · next hremaining =>
        rw [List.length_drop]
        apply hremaining.2
    · apply hpos
  · rw [hnew, hhanded]
  · rw [hnew]
    intro block hblock
    apply length_of_mem_blocks hpos hblock
  · rw [hnew, length_blocks]
    calc combined.length / cfg.bytesPerEncode * cfg.bytesPerEncode
        ≤ combined.length := Nat.div_mul_le_self _ _
      _ ≤ s.residual.length + frames * (cfg.activeChannels * cfg.bytesPerSample) := by
        rw [← hcombined, List.length_append, ← Nat.mul_assoc]
        apply Nat.add_le_add_left (List.length_take_le _ _)

theorem feed_fed (hresidual : s.residual.length < cfg.bytesPerEncode) (frames : ℕ)
    (pcm : Option (List UInt8)) :
  Fed cfg s frames (s.feed cfg frames pcm)
  := by
  cases pcm with
  | some pcm => apply encode_fed
  | none =>
      have hnew : s.handed.drop s.handed.length = [] := List.drop_length
      constructor
      · apply hresidual
      · rw [feed, hnew, List.append_nil]
      · rw [feed, hnew]
        nofun
      · rw [feed, hnew, List.length_nil, Nat.zero_mul]
        apply Nat.zero_le

end EncoderFeed

/-- SBC is not upsampled. -/
theorem Program.feed_fed (program : Program) {cfg : ChunkConfig} {s : EncoderFeed}
    (hresidual : s.residual.length < cfg.bytesPerEncode) (hrate : cfg.encodeSampleRate ≠ 96000)
    (bytes : List UInt8) :
  EncoderFeed.Fed cfg s (bytes.length / cfg.frameBytes) (program.feed cfg s bytes)
  := by
  cases program with
  | service =>
      have hupsampled : cfg.upsampled = false := by simp [EncodeConfig.upsampled, hrate]
      rw [feed, EncoderFeed.encodeThread, hupsampled, if_neg Bool.false_ne_true]
      apply EncoderFeed.feed_fed hresidual
  | cli =>
      have hupsampled : cfg.cliUpsampled = false := by simp [ChunkConfig.cliUpsampled, hrate]
      rw [feed, EncoderFeed.audioCallback, hupsampled, if_neg Bool.false_ne_true]
      apply EncoderFeed.feed_fed hresidual

theorem maxFrames_le_limit {sampleRate : ℕ} (hrate : sampleRate = 44100 ∨ sampleRate = 48000)
    (frames : ℕ) :
  maxFrames sampleRate frames ≤ 480
  := by
  rw [maxFrames]
  grind

/-- A packet has no more frames than the chunk. -/
theorem le_of_mem_packetCounts {length limit n k : ℕ} (h : k ∈ packetCounts length limit n) :
  k ≤ n
  := by
  rw [packetCounts] at h
  split at h
  · contradiction
  · split at h
    · rw [List.mem_singleton.mp h]
      apply min_le_left
    · obtain hfull | hlast := List.mem_append.mp h
      · obtain ⟨hsome, rfl⟩ := List.mem_replicate.mp hfull
        have hle := Nat.div_mul_le_self (n - 1) (max 1 (limit / length))
        have hone : 1 ≤ (n - 1) / max 1 (limit / length) := Nat.one_le_iff_ne_zero.mpr hsome
        have hmul := Nat.mul_le_mul_right (max 1 (limit / length)) hone
        omega
      · rw [List.mem_singleton.mp hlast]
        have hle := Nat.mod_le (n - 1) (max 1 (limit / length))
        omega

theorem countsFit_of_le {length limit n : ℕ} (h : n ≤ 15) :
  CountsFit length limit n
  := by
  intro k hk
  left
  apply (le_of_mem_packetCounts hk).trans h

/-- In the higher qualities 16 frames do not go into a slot. -/
theorem countsFit_of_quality {quality : EncoderQuality} {channels : ℕ}
    (hquality : quality ≠ .mobile) (hchannels : channels = 1 ∨ channels = 2) (limit n : ℕ) :
  CountsFit (specFrameLength (qualityToBitpool quality) channels) limit n
  := by
  intro k _
  have hlong : 64 ≤ specFrameLength (qualityToBitpool quality) channels := by
    obtain rfl | rfl := hchannels
    · cases quality with
      | high | standard => decide
      | mobile => contradiction
    · cases quality with
      | high | standard => decide
      | mobile => contradiction
  by_cases hk : k ≤ 15
  · left
    apply hk
  · right
    have hmul := Nat.mul_le_mul (Nat.lt_of_not_le hk) hlong
    apply lt_of_lt_of_le _ hmul
    decide

/-! ### Runs -/

/-- The length of the frames of a stream. -/
def SbcConfig.frameLength (cfg : SbcConfig) : ℕ :=
  specFrameLength (qualityToBitpool cfg.quality) cfg.activeChannels

theorem accumCapacity_le (program : Program) :
  accumCapacity ≤ program.encodeBufferSize
  := by cases program with | service | cli => decide

theorem specFrameLength_le (quality : EncoderQuality) {channels : ℕ}
    (h : channels = 1 ∨ channels = 2) :
  0 < specFrameLength (qualityToBitpool quality) channels
    ∧ specFrameLength (qualityToBitpool quality) channels ≤ accumCapacity
  := by
  obtain rfl | rfl := h
  · cases quality with | high | standard | mobile => decide
  · cases quality with | high | standard | mobile => decide

namespace SbcStream

variable {σ : Type*} {lib : SbcLibrary σ} {cfg : SbcConfig}

/-- What the encoder has been initialised for. -/
structure Configured (lib : SbcLibrary σ) (cfg : SbcConfig) : Prop where
  channels : cfg.activeChannels = 1 ∨ cfg.activeChannels = 2
  sampleRate : cfg.encodeSampleRate = 44100 ∨ cfg.encodeSampleRate = 48000
  bytesPerEncode_eq : cfg.bytesPerEncode = sbcNumBlocks * sbcNumSubbands * cfg.activeChannels * 2

/-- The answers of a chunk leave no packet of more than 15 frames that has a slot. -/
def AnswersFit (cfg : SbcConfig) (answer : UInt16 × List (EncodeResult program)) : Prop :=
  CountsFit cfg.frameLength (maxRaw .sbc answer.1) (answer.2.countP EncodeResult.productive)

/-- The encoder is ready, less than a block is kept, and the packets so far are right exactly
when the answers so far fit. -/
structure Kept (lib : SbcLibrary σ) (cfg : SbcConfig) (s : SbcStream program σ) : Prop where
  ready : s.encoder.Ready lib cfg.frameLength cfg.activeChannels
  residual_lt : s.feed.residual.length < cfg.bytesPerEncode
  labelled_iff : (∀ call ∈ s.calls, call.Labelled cfg.frameLength)
    ↔ ∀ answer ∈ s.answers, AnswersFit cfg answer
  short : program = .service → ∀ answer ∈ s.answers, AnswersFit cfg answer

/-- The service gives the encoder no more than four blocks at once. -/
theorem length_blocks_le {cfg : SbcConfig} (hcfg : Configured lib cfg) {s t : EncoderFeed}
    (hresidual : s.residual.length < cfg.bytesPerEncode) {bytes : List UInt8}
    (hread : ∃ avail, bytes.length = readBytes cfg.frameBytes cfg.sampleRate avail)
    (h : EncoderFeed.Fed cfg.toChunkConfig s (bytes.length / cfg.frameBytes) t) :
  (t.handed.drop s.handed.length).length ≤ 4
  := by
  obtain ⟨avail, hlength⟩ := hread
  have hframes : bytes.length / cfg.frameBytes ≤ 480 := by
    rw [hlength, readBytes]
    have hrate := hcfg.sampleRate
    rw [cfg.encodeSampleRate_eq] at hrate
    by_cases hzero : cfg.frameBytes = 0
    · rw [hzero, Nat.div_zero]
      apply Nat.zero_le
    · rw [Nat.mul_div_cancel _ (Nat.pos_of_ne_zero hzero)]
      apply maxFrames_le_limit hrate
  have hcount := h.count_le
  rw [hcfg.bytesPerEncode_eq] at hresidual hcount
  rw [cfg.bytesPerSample_eq] at hcount
  rw [sbcNumBlocks, sbcNumSubbands] at hresidual hcount
  generalize bytes.length / cfg.frameBytes = frames at hframes hcount
  obtain hone | htwo := hcfg.channels
  · rw [hone] at hresidual hcount
    omega
  · rw [htwo] at hresidual hcount
    omega

theorem Kept.chunk (hcfg : Configured lib cfg) {s : SbcStream program σ} (h : s.Kept lib cfg)
    (c : SbcChunk program cfg) :
  (s.chunk lib cfg c).Kept lib cfg
  := by
  have hrate : cfg.encodeSampleRate ≠ 96000 := by
    have hrates := hcfg.sampleRate
    omega
  have hchannels : 0 < cfg.activeChannels := cfg.activeChannels_pos
  obtain ⟨hpos, hle⟩ := specFrameLength_le cfg.quality hcfg.channels
  have hfed := program.feed_fed h.residual_lt hrate c.bytes
  obtain ⟨hanswers, hcount, hready⟩ := h.ready.encodeBlocks hchannels
    (hle.trans (accumCapacity_le program))
    (fun block hblock => (hfed.blocks_eq block hblock).trans hcfg.bytesPerEncode_eq)
  have hlabelled := Packetizer.chunk_labelled_iff hpos hle hanswers s.packetizer
    (UInt32.ofNat s.encoder.pcmFramesPerSbcFrame) c.mtu
  constructor
  · apply hready
  · apply hfed.residual_lt
  · rw [SbcStream.chunk, List.forall_mem_append, List.forall_mem_append,
      List.forall_mem_singleton, h.labelled_iff]
    apply and_congr_right
    intro _
    apply hlabelled
  · intro hservice
    rw [SbcStream.chunk, List.forall_mem_append, List.forall_mem_singleton]
    constructor
    · apply h.short hservice
    · apply countsFit_of_le
      apply List.countP_le_length.trans
      dsimp only
      rw [hcount]
      apply (length_blocks_le hcfg h.residual_lt (c.read_eq hservice) hfed).trans
      decide

theorem kept_run (hcfg : Configured lib cfg) {encoder : SbcEncoder σ}
    (hready : encoder.Ready lib cfg.frameLength cfg.activeChannels)
    (chunks : List (SbcChunk program cfg)) :
  (run lib cfg encoder chunks).Kept lib cfg
  := by
  have h (s : SbcStream program σ) (hs : s.Kept lib cfg) :
      (chunks.foldl (SbcStream.chunk lib cfg) s).Kept lib cfg := by
    induction chunks generalizing s with
    | nil => apply hs
    | cons c chunks ih => apply ih _ (hs.chunk hcfg c)
  apply h
  constructor
  · apply hready
  · apply cfg.bytesPerEncode_pos
  · simp
  · nofun

end SbcStream

/-- With any SBC library that keeps to its format, the packets of the service are right about
their frames, and those of either program are so exactly when in every chunk the frames that
have been encoded leave no packet of more than 15 frames that has a slot. -/
theorem sbcStream_labelled_iff {σ : Type*} (program : Program) (lib : SbcLibrary σ)
    (cfg : SbcConfig) (e : SbcEncoder σ) (mtu : ℕ) (chunks : List (SbcChunk program cfg))
    (hlib : lib.Documented)
    (hinit : (e.init lib mtu cfg.quality cfg.encodeSampleRate cfg.activeChannels).1 = true)
    (hframes : cfg.pcmFramesPerEncode
      = (e.init lib mtu cfg.quality cfg.encodeSampleRate
          cfg.activeChannels).2.pcmFramesPerSbcFrame) :
  (program = .service →
    ∀ call ∈ (SbcStream.run lib cfg
        (e.init lib mtu cfg.quality cfg.encodeSampleRate cfg.activeChannels).2 chunks).calls,
      call.Labelled cfg.frameLength)
  ∧ ((∀ call ∈ (SbcStream.run lib cfg
        (e.init lib mtu cfg.quality cfg.encodeSampleRate cfg.activeChannels).2 chunks).calls,
      call.Labelled cfg.frameLength)
    ↔ ∀ answer ∈ (SbcStream.run lib cfg
        (e.init lib mtu cfg.quality cfg.encodeSampleRate cfg.activeChannels).2 chunks).answers,
      SbcStream.AnswersFit cfg answer)
  := by
  obtain ⟨hchannels, hrate, hready⟩ := SbcEncoder.ready_init hlib hinit
  have hcfg : SbcStream.Configured lib cfg := by
    constructor
    · apply hchannels
    · apply hrate
    · change cfg.pcmFramesPerEncode * cfg.activeChannels * cfg.bytesPerSample = _
      rw [hframes, hready.pcmFrames_eq, cfg.bytesPerSample_eq]
  have hkept := SbcStream.kept_run hcfg hready chunks
  constructor
  · intro hservice
    apply hkept.labelled_iff.mpr (hkept.short hservice)
  · apply hkept.labelled_iff

/-- A library whose state is the length of its frames. -/
def steadyLibrary : SbcLibrary ℕ where
  configure _ bitpool jointStereo := some (specFrameLength bitpool (if jointStereo then 2 else 1))
  numAudioFrames _ := 128
  bufferLength length := length
  encodeSigned16 length _ := ((0, List.replicate length 0x9C), length)

theorem steadyLibrary_documented :
  steadyLibrary.Documented
  := by
  intro sampleRate bitpool channels state hchannels hstate frames
  have hlength : state = specFrameLength bitpool channels := by
    rw [← Option.some.inj hstate]
    obtain rfl | rfl := hchannels
    · rfl
    · rfl
  have hafter : steadyLibrary.after state frames = state := by
    induction frames with
    | nil => rfl
    | cons frame frames ih => apply ih
  rw [hafter, hlength]
  constructor
  · rfl
  · right
    rfl
  · intro _ _
    apply List.length_replicate

/-- Mono in the lowest quality. -/
def monoMobile : SbcConfig where
  channels := 1
  bitsPerSample := 16
  sampleRate := 48000
  encodeSampleRate := 48000
  activeChannels := 1
  bytesPerSample := 2
  pcmFramesPerEncode := 128
  sbc := true
  positive := by decide
  scale := 2147483647
  active_eq := by decide
  width_eq := ChunkConfig.width_two
  quality := .mobile
  bytesPerSample_eq := rfl
  encodeSampleRate_eq := rfl

/-- The encoder for them. -/
def monoEncoder : SbcEncoder ℕ :=
  (SbcEncoder.init steadyLibrary {} 800 .mobile 48000 1).2

/-- A callback with so many frames of silence. -/
def silentChunk (mtu : UInt16) (frames : ℕ) : SbcChunk .cli monoMobile where
  mtu := mtu
  bytes := List.replicate (frames * 2) 0
  read_eq := nofun

/-- Callbacks of 10 ms are right. -/
theorem sbcStream_labelled_short :
  (SbcStream.run steadyLibrary monoMobile monoEncoder
      [silentChunk 800 480, silentChunk 800 480]).calls ≠ []
    ∧ ∀ call ∈ (SbcStream.run steadyLibrary monoMobile monoEncoder
        [silentChunk 800 480, silentChunk 800 480]).calls,
      call.Labelled 46
  := by
  have hcalls : (SbcStream.run steadyLibrary monoMobile monoEncoder
      [silentChunk 800 480, silentChunk 800 480]).calls.isEmpty = false := by
    decide +kernel
  use List.isEmpty_eq_false_iff.mp hcalls
  apply (sbcStream_labelled_iff .cli steadyLibrary monoMobile {} 800 _ steadyLibrary_documented
    rfl rfl).2.mpr
  have hanswers : ∀ answer ∈ (SbcStream.run steadyLibrary monoMobile monoEncoder
      [silentChunk 800 480, silentChunk 800 480]).answers,
      CountsFit 46 (maxRaw .sbc answer.1) (answer.2.countP EncodeResult.productive) := by
    decide +kernel
  apply hanswers

/-- A callback of 2048 frames fills a packet with 16 frames, whose header says 0. -/
theorem not_sbcStream_labelled_long :
  ¬ ∀ call ∈ (SbcStream.run steadyLibrary monoMobile monoEncoder [silentChunk 800 2048]).calls,
    call.Labelled 46
  := by
  intro h
  have hcall : ∃ call ∈ (SbcStream.run steadyLibrary monoMobile monoEncoder
      [silentChunk 800 2048]).calls,
      (Transport.buildPacket call.data call.timestamp.toNat call.frames .sbc).any
        (fun packet => packet.data.head? = some 0) = true := by
    decide +kernel
  obtain ⟨call, hmem, hany⟩ := hcall
  obtain ⟨packet, hpacket, hheader⟩ := (Option.any_eq_true _ _).mp hany
  obtain ⟨header, payload, hdata, -, hframes⟩ := h call hmem packet hpacket
  rw [hdata, decide_eq_true_eq] at hheader
  obtain rfl := Option.some.inj hheader
  revert hframes
  decide

end Ssc
