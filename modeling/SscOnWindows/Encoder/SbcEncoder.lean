import SscOnWindows.Pipeline.Packetize

/-!
# The SBC encoder

`SbcEncoder` wraps the SBC encoder that comes with BTstack.  That encoder is a parameter; what
is known of it is the size of the frames of the format it is configured for.

A call of `encode` takes as many frames as the PCM has.  Both programs call it with the PCM of
one frame.
-/

namespace Ssc

/-- `SBC_NUM_BLOCKS`. -/
def sbcNumBlocks : ℕ := 16

/-- `SBC_NUM_SUBBANDS`. -/
def sbcNumSubbands : ℕ := 8

/-- `quality_to_bitpool`. -/
def qualityToBitpool : EncoderQuality → ℕ
  | .high => 53
  | .standard => 35
  | .mobile => 19

/-- The length of a frame in joint stereo or mono. -/
def specFrameLength (bitpool channels : ℕ) : ℕ :=
  let header := 4 + 4 * sbcNumSubbands * channels / 8
  let dataBits :=
    if channels = 2 then sbcNumSubbands + sbcNumBlocks * bitpool
    else sbcNumBlocks * channels * bitpool
  header + (dataBits + 7) / 8

/-- `btstack_sbc_encoder_t`.  A configuration that fails has no state; `encode_signed_16`
returns its status and the bytes it has written. -/
structure SbcLibrary (σ : Type*) where
  configure : (sampleRate bitpool : ℕ) → (jointStereo : Bool) → Option σ
  numAudioFrames : σ → ℕ
  bufferLength : σ → ℕ
  encodeSigned16 : σ → List UInt8 → (ℕ × List UInt8) × σ

/-- The fields of `SbcEncoder`. -/
structure SbcEncoder (σ : Type*) where
  initialized : Bool := false
  state : Option σ := none
  mtu : ℕ := 0
  sampleRate : ℕ := 0
  channels : ℕ := 0
  bitpool : ℕ := 53
  frameLength : ℕ := 0
  pcmFramesPerSbcFrame : ℕ := 0

/-- The loop of `encode`: the library, the encode buffer and the offset in it. -/
structure SbcPass (σ : Type*) where
  state : σ
  frameLength : ℕ
  buffer : List UInt8
  offset : ℕ := 0

/-- The bytes are written to the buffer at the offset. -/
def overwrite (buffer : List UInt8) (offset : ℕ) (bytes : List UInt8) : List UInt8 :=
  buffer.take offset ++ bytes ++ buffer.drop (offset + bytes.length)

namespace SbcEncoder

variable {σ : Type*}

/-- `shutdown`. -/
def shutdown (e : SbcEncoder σ) : SbcEncoder σ :=
  { e with state := none, initialized := false }

/-- `init` of an encoder that is not initialised. -/
def setUp (lib : SbcLibrary σ) (e : SbcEncoder σ) (mtu : ℕ) (quality : EncoderQuality)
    (sampleRate channels : ℕ) : Bool × SbcEncoder σ :=
  if channels ≠ 1 ∧ channels ≠ 2 then (false, e)
  else if sampleRate ≠ 44100 ∧ sampleRate ≠ 48000 then (false, e)
  else
    match lib.configure sampleRate (qualityToBitpool quality) (channels ≠ 1) with
    | none => (false, { e with bitpool := qualityToBitpool quality, state := none })
    | some state =>
        (true, { e with
          bitpool := qualityToBitpool quality
          state := some state
          pcmFramesPerSbcFrame := lib.numAudioFrames state
          frameLength :=
            if lib.bufferLength state = 0 then
              specFrameLength (qualityToBitpool quality) channels
            else lib.bufferLength state
          mtu := mtu
          sampleRate := sampleRate
          channels := channels
          initialized := true })

/-- `init`. -/
def init (lib : SbcLibrary σ) (e : SbcEncoder σ) (mtu : ℕ) (quality : EncoderQuality)
    (sampleRate channels : ℕ) : Bool × SbcEncoder σ :=
  (if e.initialized then e.shutdown else e).setUp lib mtu quality sampleRate channels

/-- `bytes_per_sbc_input`. -/
def bytesPerSbcInput (e : SbcEncoder σ) : ℕ :=
  e.pcmFramesPerSbcFrame * e.channels * 2

/-- The frames `encode` makes of the PCM. -/
def numFrames (e : SbcEncoder σ) (pcmBytes : ℕ) : ℕ :=
  let maxPayload := if e.mtu > 16 then e.mtu - 16 else e.mtu
  let maxFrames := maxPayload / e.frameLength
  min (pcmBytes / e.bytesPerSbcInput) (if maxFrames = 0 then 1 else maxFrames)

/-- A frame of the loop of `encode`.  The first one corrects the length of the frames. -/
def encodeFrame (lib : SbcLibrary σ) (bytesPerInput : ℕ) (pcm : List UInt8) (p : SbcPass σ)
    (f : ℕ) : Bool × SbcPass σ :=
  let answer := lib.encodeSigned16 p.state ((pcm.drop (f * bytesPerInput)).take bytesPerInput)
  let p := { p with state := answer.2, buffer := overwrite p.buffer p.offset answer.1.2 }
  if answer.1.1 ≠ 0 then (false, p)
  else
    let actual := lib.bufferLength p.state
    let length := if f = 0 ∧ actual > 0 then actual else p.frameLength
    (true, { p with frameLength := length, offset := p.offset + length })

/-- The loop of `encode`, up to a frame that fails. -/
def encodeFrames (lib : SbcLibrary σ) (bytesPerInput : ℕ) (pcm : List UInt8) :
    SbcPass σ → List ℕ → Bool × SbcPass σ
  | p, [] => (true, p)
  | p, f :: fs =>
      match encodeFrame lib bytesPerInput pcm p f with
      | (true, p) => encodeFrames lib bytesPerInput pcm p fs
      | (false, p) => (false, p)

end SbcEncoder

namespace EncodeResult

variable {program : Program}

/-- A call that returns `false`. -/
def failed : EncodeResult program :=
  ⟨false, [], 0, Nat.zero_le _⟩

/-- A call that returns `true`, with the bytes it has written to the encode buffer. -/
def written (bytes : List UInt8) (frames : UInt32) : EncodeResult program :=
  ⟨true, bytes.take program.encodeBufferSize, frames, List.length_take_le _ _⟩

end EncodeResult

namespace SbcEncoder

variable {σ : Type*} {program : Program}

/-- `encode`, into the encode buffer of the program. -/
def encode (program : Program) (lib : SbcLibrary σ) (e : SbcEncoder σ) (pcm : List UInt8) :
    EncodeResult program × SbcEncoder σ :=
  match e.initialized, e.state with
  | true, some state =>
      if pcm.length / e.bytesPerSbcInput = 0 then (.written [] 0, e)
      else
        let frames := e.numFrames pcm.length
        if program.encodeBufferSize < frames * e.frameLength then (.failed, e)
        else
          let pass := encodeFrames lib e.bytesPerSbcInput pcm
            ⟨state, e.frameLength, List.replicate program.encodeBufferSize 0, 0⟩
            (List.range frames)
          let e := { e with state := some pass.2.state, frameLength := pass.2.frameLength }
          if pass.1 then
            (.written (pass.2.buffer.take pass.2.offset) (UInt32.ofNat frames), e)
          else (.failed, e)
  | _, _ => (.failed, e)

/-- The answers to the blocks of a chunk. -/
def encodeBlocks (program : Program) (lib : SbcLibrary σ) :
    SbcEncoder σ → List (List UInt8) → List (EncodeResult program) × SbcEncoder σ
  | e, [] => ([], e)
  | e, block :: rest =>
      let answer := e.encode program lib block
      let later := encodeBlocks program lib answer.2 rest
      (answer.1 :: later.1, later.2)

end SbcEncoder

/-! ### Frames of the format -/

namespace EncodeResult

variable {program : Program} {length : ℕ}

/-- An answer with output has one frame of `length` bytes. -/
def OneFrame (length : ℕ) (r : EncodeResult program) : Prop :=
  r.productive → r.size = length ∧ r.frames = 1

theorem oneFrame_failed :
  (failed : EncodeResult program).OneFrame length
  := nofun

theorem oneFrame_written {bytes : List UInt8} (hbytes : bytes.length = length)
    (hlength : length ≤ program.encodeBufferSize) :
  (written bytes 1 : EncodeResult program).OneFrame length
  := by
  intro _
  constructor
  · change (bytes.take program.encodeBufferSize).length = length
    rw [List.take_of_length_le (by omega), hbytes]
  · rfl

end EncodeResult

namespace SbcLibrary

variable {σ : Type*}

/-- The library behind some frames. -/
def after (lib : SbcLibrary σ) (state : σ) (frames : List (List UInt8)) : σ :=
  frames.foldl (fun s frame => (lib.encodeSigned16 s frame).2) state

/-- A frame has 16 blocks of 8 samples and is `length` bytes long, though the length may not
be known before the first frame. -/
structure Format (lib : SbcLibrary σ) (length : ℕ) (s : σ) : Prop where
  numAudioFrames_eq : lib.numAudioFrames s = sbcNumBlocks * sbcNumSubbands
  bufferLength_eq : lib.bufferLength s = 0 ∨ lib.bufferLength s = length
  written_eq : ∀ frame, (lib.encodeSigned16 s frame).1.1 = 0 →
    (lib.encodeSigned16 s frame).1.2.length = length

/-- All frames are those of the format the library has been configured for. -/
def Documented (lib : SbcLibrary σ) : Prop :=
  ∀ (sampleRate bitpool channels : ℕ) (state : σ), channels = 1 ∨ channels = 2 →
    lib.configure sampleRate bitpool (channels ≠ 1) = some state →
    ∀ frames, lib.Format (specFrameLength bitpool channels) (lib.after state frames)

end SbcLibrary

namespace SbcEncoder

variable {σ : Type*} {lib : SbcLibrary σ} {e : SbcEncoder σ} {program : Program}
  {length channels : ℕ}

/-- The encoder gives frames of `length` bytes. -/
structure Ready (lib : SbcLibrary σ) (length channels : ℕ) (e : SbcEncoder σ) : Prop where
  initialized_eq : e.initialized = true
  state_eq : ∃ state, e.state = some state
    ∧ ∀ frames, lib.Format length (lib.after state frames)
  channels_eq : e.channels = channels
  pcmFrames_eq : e.pcmFramesPerSbcFrame = sbcNumBlocks * sbcNumSubbands
  frameLength_eq : e.frameLength = length

/-- `init` takes mono and stereo at two rates only, and leaves an encoder for the frames of
the format. -/
theorem ready_init (hlib : lib.Documented) {mtu sampleRate : ℕ} {quality : EncoderQuality}
    (h : (e.init lib mtu quality sampleRate channels).1 = true) :
  (channels = 1 ∨ channels = 2) ∧ (sampleRate = 44100 ∨ sampleRate = 48000)
    ∧ (e.init lib mtu quality sampleRate channels).2.Ready lib
        (specFrameLength (qualityToBitpool quality) channels) channels
  := by
  revert h
  rw [init]
  generalize (if e.initialized then e.shutdown else e) = e
  rw [setUp]
  split
  · nofun
  · next hchannels =>
      have hvalid : channels = 1 ∨ channels = 2 := by omega
      split
      · nofun
      · next hrate =>
          cases hstate : lib.configure sampleRate (qualityToBitpool quality) (channels ≠ 1) with
          | none => nofun
          | some state =>
              intro _
              have hformat := hlib _ _ _ state hvalid hstate
              refine ⟨hvalid, by omega, rfl, ⟨state, rfl, hformat⟩, rfl, ?_, ?_⟩
              · apply (hformat []).numAudioFrames_eq
              · dsimp only
                split
                · rfl
                · next hnonzero => apply (hformat []).bufferLength_eq.resolve_left hnonzero

theorem overwrite_zero (buffer bytes : List UInt8) :
  (overwrite buffer 0 bytes).take bytes.length = bytes
  := by
  rw [overwrite, List.take_zero, List.nil_append, List.take_left]

/-- A frame of the loop fails, or it is put behind the others with the length of the format. -/
theorem encodeFrame_cases {p : SbcPass σ} (bytesPerInput : ℕ) (pcm : List UInt8) (f : ℕ)
    (hformat : ∀ frames, lib.Format length (lib.after p.state frames))
    (hframe : p.frameLength = length) :
  ∃ frame, (encodeFrame lib bytesPerInput pcm p f).2.state = lib.after p.state [frame]
    ∧ (encodeFrame lib bytesPerInput pcm p f).2.frameLength = length
    ∧ ((encodeFrame lib bytesPerInput pcm p f).1 = false
      ∨ ∃ bytes : List UInt8, bytes.length = length
        ∧ (encodeFrame lib bytesPerInput pcm p f).1 = true
        ∧ (encodeFrame lib bytesPerInput pcm p f).2.buffer = overwrite p.buffer p.offset bytes
        ∧ (encodeFrame lib bytesPerInput pcm p f).2.offset = p.offset + length)
  := by
  use (pcm.drop (f * bytesPerInput)).take bytesPerInput
  generalize hanswer : lib.encodeSigned16 p.state ((pcm.drop (f * bytesPerInput)).take
    bytesPerInput) = answer
  have hnow := hformat []
  have hlater := (hformat [(pcm.drop (f * bytesPerInput)).take bytesPerInput]).bufferLength_eq
  simp only [SbcLibrary.after, List.foldl_cons, List.foldl_nil, hanswer] at hlater ⊢
  simp only [encodeFrame, hanswer]
  by_cases hstatus : answer.1.1 ≠ 0
  · rw [if_pos hstatus]
    exact ⟨rfl, hframe, .inl rfl⟩
  · rw [if_neg hstatus]
    have hlength : (if f = 0 ∧ lib.bufferLength answer.2 > 0 then lib.bufferLength answer.2
        else p.frameLength) = length := by
      split
      · next hfirst => apply hlater.resolve_left (by omega)
      · apply hframe
    refine ⟨rfl, hlength, .inr ⟨answer.1.2, ?_, rfl, rfl, ?_⟩⟩
    · have hwritten := hnow.written_eq ((pcm.drop (f * bytesPerInput)).take bytesPerInput)
      simp only [SbcLibrary.after, List.foldl_nil, hanswer] at hwritten
      apply hwritten (not_not.mp hstatus)
    · dsimp only
      rw [hlength]

/-- The encoder fails at the PCM of one frame, or it writes one frame. -/
theorem Ready.encode (h : e.Ready lib length channels) (hchannels : 0 < channels)
    (hlength : length ≤ program.encodeBufferSize) {pcm : List UInt8}
    (hpcm : pcm.length = sbcNumBlocks * sbcNumSubbands * channels * 2) :
  ((e.encode program lib pcm).1 = .failed
      ∨ ∃ bytes : List UInt8, bytes.length = length
        ∧ (e.encode program lib pcm).1 = .written bytes 1)
    ∧ (e.encode program lib pcm).2.Ready lib length channels
  := by
  obtain ⟨hinit, ⟨state, hstate, hformat⟩, hch, hpcmFrames, hframe⟩ := h
  have hinput : e.bytesPerSbcInput = pcm.length := by
    rw [bytesPerSbcInput, hpcmFrames, hch, hpcm]
  have hpos : 0 < pcm.length := by
    rw [hpcm, sbcNumBlocks, sbcNumSubbands]
    omega
  have hone : pcm.length / e.bytesPerSbcInput = 1 := by rw [hinput, Nat.div_self hpos]
  have hframes : e.numFrames pcm.length = 1 := by
    rw [numFrames, hone]
    apply min_eq_left
    generalize (if e.mtu > 16 then e.mtu - 16 else e.mtu) / e.frameLength = maxFrames
    split
    · apply Nat.le_refl
    · omega
  obtain ⟨frame, hnext, hsame, hcases⟩ := encodeFrame_cases
    (p := ⟨state, e.frameLength, List.replicate program.encodeBufferSize 0, 0⟩)
    e.bytesPerSbcInput pcm 0 hformat hframe
  have hready (pass : SbcPass σ) (hpass : pass.state = lib.after state [frame])
      (hlen : pass.frameLength = length) :
      Ready lib length channels
        { e with
          initialized := true, state := some pass.state, frameLength := pass.frameLength } := by
    refine ⟨rfl, ⟨pass.state, rfl, ?_⟩, hch, hpcmFrames, hlen⟩
    intro frames
    rw [hpass]
    apply hformat (frame :: frames)
  rw [SbcEncoder.encode, hinit, hstate]
  dsimp only
  rw [hone, if_neg (by decide), hframes, Nat.one_mul, if_neg (by omega)]
  simp only [List.range_one, encodeFrames]
  generalize hpass : encodeFrame lib e.bytesPerSbcInput pcm
    ⟨state, e.frameLength, List.replicate program.encodeBufferSize 0, 0⟩ 0 = pass
    at hnext hsame hcases ⊢
  obtain ⟨ok, pass⟩ := pass
  cases ok with
  | false => exact ⟨.inl rfl, hready pass hnext hsame⟩
  | true =>
      obtain hfalse | ⟨bytes, hbytes, -, hbuffer, hoffset⟩ := hcases
      · contradiction
      · refine ⟨.inr ⟨bytes, hbytes, ?_⟩, hready pass hnext hsame⟩
        dsimp only at hbuffer hoffset ⊢
        rw [if_pos rfl, hbuffer, hoffset, Nat.zero_add, ← hbytes, overwrite_zero]
        rfl

/-- The answers to the blocks of a chunk. -/
theorem Ready.encodeBlocks (h : e.Ready lib length channels) (hchannels : 0 < channels)
    (hlength : length ≤ program.encodeBufferSize) {blocks : List (List UInt8)}
    (hblocks : ∀ block ∈ blocks, block.length = sbcNumBlocks * sbcNumSubbands * channels * 2) :
  (∀ r ∈ (SbcEncoder.encodeBlocks program lib e blocks).1, r.OneFrame length)
    ∧ (SbcEncoder.encodeBlocks program lib e blocks).1.length = blocks.length
    ∧ (SbcEncoder.encodeBlocks program lib e blocks).2.Ready lib length channels
  := by
  induction blocks generalizing e with
  | nil => exact ⟨nofun, rfl, h⟩
  | cons block rest ih =>
      obtain ⟨hblock, hrest⟩ := List.forall_mem_cons.mp hblocks
      obtain ⟨hanswer, hready⟩ := h.encode hchannels hlength hblock
      obtain ⟨hframes, hsame, hlater⟩ := ih hready hrest
      rw [SbcEncoder.encodeBlocks]
      refine ⟨List.forall_mem_cons.mpr ⟨?_, hframes⟩, ?_, hlater⟩
      · obtain hfailed | ⟨bytes, hbytes, hwritten⟩ := hanswer
        · rw [hfailed]
          apply EncodeResult.oneFrame_failed
        · rw [hwritten]
          apply EncodeResult.oneFrame_written hbytes hlength
      · rw [List.length_cons, hsame, List.length_cons]

end SbcEncoder

end Ssc
