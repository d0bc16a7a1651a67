import SscOnWindows.Codec.Policy

/-!
# Rates between the capture and the remote

The sample rate of a stream is decided once, from the capture format, the rate the user
asked for and the capabilities of the remote, and then read by four consumers: the
SET_CONFIGURATION request of the transport, the bitrate of the encoder, and the upsampling
of the captured PCM in the encode thread of the service and in the callback of the
command-line program.
-/

namespace Ssc

/-! ### Captured formats and the two pipelines -/

/-- The width of a captured sample: a 16-bit integer or a 32-bit float. -/
inductive SampleWidth where
  | int16
  | float32
  deriving DecidableEq, Repr

/-- `bits_per_sample`. -/
def SampleWidth.bits : SampleWidth → Nat
  | .int16 => 16
  | .float32 => 32

/-- The format `WasapiCapture` reports. -/
structure CaptureFormat where
  sampleRate : Nat
  channels : Nat
  width : SampleWidth
  channels_pos : 1 ≤ channels
  channels_le : channels ≤ 8

/-- `use_ch` of the service, `g_active_channels` of the command-line program. -/
def activeChannels (channels : Nat) : Nat :=
  if channels > 2 then 2 else channels

/-- The two programs that stream, with the rate the user asked for: `sample_rate` of the
profile in the service, `--uhq` on the command line. -/
inductive Pipeline where
  | service (profileRate : Nat)
  | cli (uhq : Bool)
  deriving DecidableEq, Repr

/-- The sample rate asked for, `0` when none is. -/
def Pipeline.requestedSr : Pipeline → Nat
  | .service profileRate => profileRate
  | .cli uhq => if uhq then 96000 else 0

/-- `encode_sr` of `streaming_thread_func_inner` and of `run_streaming`, with the value
of the fallback flag. -/
def Pipeline.encodeSr (p : Pipeline) (codec : AudioCodec) (sr : Nat) (caps : Caps) : Nat × Bool :=
  match p with
  | .service profileRate =>
      if codec = .ssc ∧ sr = 48000 ∧ (profileRate = 88200 ∨ profileRate = 96000) then
        resolveEncodeSr codec sr profileRate caps
      else (sr, false)
  | .cli uhq =>
      if codec = .ssc ∧ sr = 48000 ∧ uhq = true then resolveEncodeSr codec sr 96000 caps
      else (sr, false)

/-- `out_channels` of `audio_callback`. -/
def outChannels (channels : Nat) : Nat :=
  if channels > activeChannels channels then activeChannels channels else channels

/-- The condition under which the PCM is upsampled by two: in `encode_thread_func` it
looks at the captured channels, in `audio_callback` at the channels left after the
downmix. -/
def Pipeline.upsamples (p : Pipeline) (encodeSr : Nat) (fmt : CaptureFormat) : Bool :=
  match p with
  | .service _ => encodeSr == 96000 && fmt.channels == 2 && fmt.width.bits == 32
  | .cli _ => fmt.width.bits == 32 && (encodeSr == 96000 && outChannels fmt.channels == 2)

/-- The rate of the PCM handed to the encoder, edge frames of the chunks aside. -/
def Pipeline.pcmRate (p : Pipeline) (codec : AudioCodec) (fmt : CaptureFormat) (caps : Caps) :
    Nat :=
  (if p.upsamples (p.encodeSr codec fmt.sampleRate caps).1 fmt then 2 else 1) * fmt.sampleRate

/-- Both programs use the rate and the flag of `resolve_encode_sr`. -/
theorem Pipeline.encodeSr_eq (p : Pipeline) (codec : AudioCodec) (sr : Nat) (caps : Caps) :
  p.encodeSr codec sr caps = resolveEncodeSr codec sr p.requestedSr caps
  := by
  cases p with
  | service profileRate =>
      by_cases h : codec = .ssc ∧ sr = 48000 ∧ (profileRate = 88200 ∨ profileRate = 96000)
      · simp only [encodeSr, requestedSr, if_pos h]
      · simp only [encodeSr, requestedSr, if_neg h]
        rw [resolveEncodeSr, if_neg (by simpa [isUhqRate] using h)]
  | cli uhq =>
      cases uhq
      · simp [encodeSr, requestedSr, resolveEncodeSr, isUhqRate]
      · by_cases h : codec = .ssc ∧ sr = 48000
        · simp [encodeSr, requestedSr, h]
        · simp only [encodeSr, requestedSr, and_true, if_true, if_neg h]
          rw [resolveEncodeSr, if_neg (by tauto)]

/-! ### The rate of the PCM and the rate of the encoder -/

/-- The formats that are upsampled for a 96 kHz stream: float samples, in exactly two
channels for the service and in at least two for the command-line program. -/
def Pipeline.wide (p : Pipeline) (fmt : CaptureFormat) : Bool :=
  fmt.width == .float32 &&
    match p with
    | .service _ => fmt.channels == 2
    | .cli _ => decide (2 ≤ fmt.channels)

/-- The request for a UHQ rate is granted: it was made on a 48 kHz capture and the remote
advertises UHQ. -/
def Pipeline.uhqGranted (p : Pipeline) (fmt : CaptureFormat) (caps : Caps) : Bool :=
  fmt.sampleRate == 48000 && isUhqRate p.requestedSr && caps.sscUhq

/-- The PCM handed to the encoder has the rate the encoder and the remote are configured
with, which is the one of `resolve_encode_sr`. -/
def Pipeline.RateConsistent (p : Pipeline) (codec : AudioCodec) (fmt : CaptureFormat)
    (caps : Caps) : Prop :=
  p.pcmRate codec fmt caps = (p.encodeSr codec fmt.sampleRate caps).1
    ∧ (p.encodeSr codec fmt.sampleRate caps).1
        = (resolveEncodeSr codec fmt.sampleRate p.requestedSr caps).1

/-- A granted UHQ request is for 96 kHz and meets a format that is upsampled; without one,
the capture is not a 96 kHz one in such a format. -/
def Pipeline.RateCondition (p : Pipeline) (fmt : CaptureFormat) (caps : Caps) : Prop :=
  (p.uhqGranted fmt caps = true → p.requestedSr = 96000 ∧ p.wide fmt = true)
    ∧ (p.uhqGranted fmt caps = false → ¬ (fmt.sampleRate = 96000 ∧ p.wide fmt = true))

theorem activeChannels_eq_two_iff (channels : Nat) :
  activeChannels channels = 2 ↔ 2 ≤ channels
  := by
  rw [activeChannels]
  split <;> omega

/-- The callback always ends with the channels of the encoder. -/
theorem outChannels_eq (channels : Nat) :
  outChannels channels = activeChannels channels
  := by
  simp only [outChannels, activeChannels]
  grind

/-- Upsampling happens for 96 kHz streams in the wide formats. -/
theorem Pipeline.upsamples_iff (p : Pipeline) (encodeSr : Nat) (fmt : CaptureFormat) :
  p.upsamples encodeSr fmt = true ↔ encodeSr = 96000 ∧ p.wide fmt = true
  := by
  have hbits : fmt.width.bits = 32 ↔ fmt.width = .float32 := by
    cases fmt.width <;> simp [SampleWidth.bits]
  cases p with
  | service _ =>
      simp only [upsamples, wide, Bool.and_eq_true, beq_iff_eq, hbits]
      tauto
  | cli _ =>
      simp only [upsamples, wide, Bool.and_eq_true, beq_iff_eq, decide_eq_true_eq, hbits,
        outChannels_eq, activeChannels_eq_two_iff]
      tauto

/-- A granted request fixes the encode rate to the requested one. -/
theorem Pipeline.encodeSr_of_granted {p : Pipeline} {fmt : CaptureFormat} {caps : Caps}
    (h : p.uhqGranted fmt caps = true) :
  (p.encodeSr .ssc fmt.sampleRate caps).1 = p.requestedSr
  := by
  rw [encodeSr_eq, resolveEncodeSr_fst, if_pos]
  simpa [uhqGranted, and_assoc] using h

/-- Without a granted request the stream is encoded at the capture rate. -/
theorem Pipeline.encodeSr_of_not_granted {p : Pipeline} {fmt : CaptureFormat} {caps : Caps}
    (h : p.uhqGranted fmt caps = false) :
  (p.encodeSr .ssc fmt.sampleRate caps).1 = fmt.sampleRate
  := by
  rw [encodeSr_eq, resolveEncodeSr_fst, if_neg]
  rintro ⟨-, hcapture, hrequested, huhq⟩
  simp [uhqGranted, hcapture, hrequested, huhq] at h

/-- When SSC is the selected codec, the rates are consistent. -/
def Pipeline.RateLaw (p : Pipeline) (requested : AudioCodec) (fmt : CaptureFormat)
    (caps : Caps) : Prop :=
  ∀ codec, resolveCodec requested caps = some codec → codec = .ssc →
    p.RateConsistent codec fmt caps

/-- The PCM of an SSC stream has the rate of the encoder exactly under `RateCondition`. -/
theorem Pipeline.rateConsistent_iff (p : Pipeline) (fmt : CaptureFormat) (caps : Caps) :
  p.RateConsistent .ssc fmt caps ↔ p.RateCondition fmt caps
  := by
  rw [RateConsistent, ← encodeSr_eq, pcmRate, RateCondition]
  cases hg : p.uhqGranted fmt caps with
  | true =>
      rw [encodeSr_of_granted hg]
      have hcapture : fmt.sampleRate = 48000 := by
        simp only [uhqGranted, Bool.and_eq_true, beq_iff_eq] at hg
        apply hg.1.1
      have huhq : p.requestedSr = 88200 ∨ p.requestedSr = 96000 := by
        simp only [uhqGranted, isUhqRate, Bool.and_eq_true, Bool.or_eq_true, beq_iff_eq] at hg
        apply hg.1.2
      cases hup : p.upsamples p.requestedSr fmt with
      | true =>
          simp [hcapture, (p.upsamples_iff _ _).mp hup]
      | false =>
          have hnot := mt (p.upsamples_iff p.requestedSr fmt).mpr (by simp [hup])
          simp only [hcapture, Bool.false_eq_true, if_false]
          simp only [and_true, forall_const, reduceCtorEq, false_implies, hnot, iff_false]
          omega
  | false =>
      rw [encodeSr_of_not_granted hg]
      cases hup : p.upsamples fmt.sampleRate fmt with
      | true =>
          simp [(p.upsamples_iff _ _).mp hup]
      | false =>
          have hnot := mt (p.upsamples_iff fmt.sampleRate fmt).mpr (by simp [hup])
          simp [hnot]

/-- The rate law holds exactly when SSC is not selected or `RateCondition` does: it fails
for a granted 88.2 kHz request, for a granted 96 kHz request on a format that is not
upsampled, and for a native 96 kHz capture that is upsampled again. -/
theorem Pipeline.rateLaw_iff (p : Pipeline) (requested : AudioCodec) (fmt : CaptureFormat)
    (caps : Caps) :
  p.RateLaw requested fmt caps
    ↔ (resolveCodec requested caps = some .ssc → p.RateCondition fmt caps)
  := by
  rw [← rateConsistent_iff]
  constructor
  · intro h hcodec
    apply h .ssc hcodec rfl
  · rintro h _ hcodec rfl
    apply h hcodec

/-- A 5.1 capture at 48 kHz, streamed by the service at 96 kHz, is not upsampled. -/
theorem Pipeline.not_rateLaw_surround :
  ¬ (Pipeline.service 96000).RateLaw .ssc ⟨48000, 6, .float32, by decide, by decide⟩
      { ssc := true, sscCap := 0x3E, sscUhq := true }
  := by
  intro h
  obtain ⟨hrate, -⟩ := h .ssc rfl rfl
  revert hrate
  decide

/-! ### The consumers of the encode rate -/

/-- `SSC_VENDOR_ID`, Samsung Electronics. -/
def sscVendorId : UInt32 := 0x00000075

/-- `SSC_CODEC_ID`, the Samsung Scalable Codec. -/
def sscCodecId : UInt16 := 0x0103

/-- `SSC_CAP_BASIC`. -/
def sscCapBasic : UInt8 := 0x0C

/-- `SSC_CAP_UHQ`. -/
def sscCapUhq : UInt8 := 0x0E

/-- `write_vendor_codec_id`: the vendor id in four bytes and the codec id in two, both
little-endian. -/
def writeVendorCodecId (vendorId : UInt32) (codecId : UInt16) : List UInt8 :=
  [vendorId.toUInt8, (vendorId >>> 8).toUInt8, (vendorId >>> 16).toUInt8,
    (vendorId >>> 24).toUInt8, codecId.toUInt8, (codecId >>> 8).toUInt8]

/-- `config_info` of `configure_codec`: the vendor block of the SET_CONFIGURATION request,
empty for the codecs with a typed configuration. -/
def configInfo (codec : AudioCodec) (sampleRate : Nat) : List UInt8 :=
  match codec with
  | .ssc =>
      writeVendorCodecId sscVendorId sscCodecId
        ++ [if sampleRate = 88200 ∨ sampleRate = 96000 then sscCapUhq else sscCapBasic]
  | .sbc => []
  | .aac => []

/-- The vendor block that asks the remote for UHQ. -/
def uhqConfigInfo : List UInt8 :=
  writeVendorCodecId sscVendorId sscCodecId ++ [sscCapUhq]

/-- The bitrate `SscEncoder::init` configures the encoder with: the override snapped to
the accepted set, or else the one picked for the quality.  A sample rate of `0` stands
for 48 kHz. -/
def initBitrateBps (overrideKbps : Nat) (quality : EncoderQuality) (sampleRate : Nat) : Nat :=
  if overrideKbps > 0 then
    snapBitrateBps (overrideKbps * 1000 % 2 ^ 32) (if sampleRate = 0 then 48000 else sampleRate)
  else pickBitrateBps quality sampleRate

/-- The transport asks for UHQ exactly for an SSC stream at a UHQ rate. -/
theorem configInfo_eq_uhq_iff (codec : AudioCodec) (sampleRate : Nat) :
  configInfo codec sampleRate = uhqConfigInfo ↔ codec = .ssc ∧ isUhqRate sampleRate = true
  := by
  cases codec with
  | ssc =>
      simp only [configInfo, uhqConfigInfo, isUhqRate, Bool.or_eq_true, beq_iff_eq, true_and,
        List.append_cancel_left_eq]
      split
      · rename_i h
        simp [h]
      · rename_i h
        simp [h, sscCapBasic, sscCapUhq]
  | aac => simp [configInfo, uhqConfigInfo, writeVendorCodecId]
  | sbc => simp [configInfo, uhqConfigInfo, writeVendorCodecId]

/-- The encoder is configured with a bitrate accepted at its sample rate. -/
theorem initBitrateBps_mem (overrideKbps : Nat) (quality : EncoderQuality) (sampleRate : Nat) :
  initBitrateBps overrideKbps quality sampleRate
    ∈ bitratesBps (if sampleRate = 0 then 48000 else sampleRate)
  := by
  rw [initBitrateBps]
  by_cases hoverride : overrideKbps > 0
  · rw [if_pos hoverride]
    apply (snapBitrateBps_isNearest _ _).mem
  · rw [if_neg hoverride]
    by_cases hzero : sampleRate = 0
    · rw [if_pos hzero, hzero]
      apply pickBitrateBps_mem quality 0
    · rw [if_neg hzero]
      apply pickBitrateBps_mem

/-- The encoder is configured with a UHQ bitrate exactly at a UHQ rate. -/
theorem initBitrateBps_mem_uhq_iff (overrideKbps : Nat) (quality : EncoderQuality)
    (sampleRate : Nat) :
  initBitrateBps overrideKbps quality sampleRate ∈ kUhqBitratesBps
    ↔ isUhqRate sampleRate = true
  := by
  rw [mem_uhq_iff (initBitrateBps_mem overrideKbps quality sampleRate)]
  split
  · rename_i h
    rw [h]
    decide
  · rfl

/-! ### The UHQ gate -/

/-- What the UHQ gate promises of a decision `d` made by `resolve_stream` for SSC, and of
the two consumers that are handed the encode rate of the program `p`. -/
structure UhqGate (p : Pipeline) (captureSr : Nat) (caps : Caps) (d : StreamDecision) : Prop where
  rate : isUhqRate d.sampleRate = true → caps.sscUhq = true
  fallback : d.uhqFellBack = true
    ↔ captureSr = 48000 ∧ isUhqRate p.requestedSr = true ∧ d.sampleRate ≠ p.requestedSr
  config : configInfo d.codec (p.encodeSr d.codec captureSr caps).1 = uhqConfigInfo →
    caps.sscUhq = true
  bitrate : ∀ overrideKbps quality,
    initBitrateBps overrideKbps quality (p.encodeSr d.codec captureSr caps).1
      ∈ kUhqBitratesBps → caps.sscUhq = true

/-- Every decision for SSC passes the UHQ gate. -/
def UhqGateLaw (p : Pipeline) (requested : AudioCodec) (captureSr : Nat) (caps : Caps) : Prop :=
  ∀ d, resolveStream requested captureSr p.requestedSr caps = some d → d.codec = .ssc →
    UhqGate p captureSr caps d

/-- The remote advertises UHQ, or the capture is not at a UHQ rate itself, or SSC is not
the codec of the stream: it is not advertised, or another advertised codec is
requested. -/
def UhqGateCondition (requested : AudioCodec) (captureSr : Nat) (caps : Caps) : Prop :=
  caps.sscUhq = true ∨ isUhqRate captureSr = false ∨ caps.ssc = false
    ∨ (requested ≠ .ssc ∧ codecPresent requested caps = true)

/-- A decision for SSC fell back exactly when a UHQ request on a 48 kHz capture was
dropped. -/
theorem uhqFellBack_iff {p : Pipeline} {requested : AudioCodec} {captureSr : Nat} {caps : Caps}
    {d : StreamDecision} (h : resolveStream requested captureSr p.requestedSr caps = some d)
    (hssc : d.codec = .ssc) :
  d.uhqFellBack = true
    ↔ captureSr = 48000 ∧ isUhqRate p.requestedSr = true ∧ d.sampleRate ≠ p.requestedSr
  := by
  obtain ⟨-, hsr, -, hfell⟩ := resolveStream_eq_some_iff.mp h
  rw [hfell, resolveEncodeSr_snd, hsr, resolveEncodeSr_fst]
  simp only [hssc, true_and]
  constructor
  · rintro ⟨hcapture, hrequested, huhq⟩
    use hcapture, hrequested
    rw [if_neg (by simp [huhq])]
    rintro heq
    rw [← heq, hcapture] at hrequested
    simp [isUhqRate] at hrequested
  · rintro ⟨hcapture, hrequested, hne⟩
    use hcapture, hrequested
    by_contra huhq
    simp [hcapture, hrequested, huhq] at hne

/-- A decision for SSC is at a UHQ rate exactly when the capture is at one or a UHQ
request was granted. -/
theorem isUhqRate_decision_iff {p : Pipeline} {requested : AudioCodec} {captureSr : Nat}
    {caps : Caps} {d : StreamDecision}
    (h : resolveStream requested captureSr p.requestedSr caps = some d) (hssc : d.codec = .ssc) :
  isUhqRate d.sampleRate = true
    ↔ isUhqRate captureSr = true
      ∨ (captureSr = 48000 ∧ isUhqRate p.requestedSr = true ∧ caps.sscUhq = true)
  := by
  obtain ⟨-, hsr, -, -⟩ := resolveStream_eq_some_iff.mp h
  rw [hsr, resolveEncodeSr_fst]
  simp only [hssc, true_and]
  split
  · rename_i hreq
    simp [hreq]
  · rename_i hreq
    simp [hreq]

/-- The UHQ gate holds of every decision exactly under `UhqGateCondition`: what gets
through is a capture that is natively at a UHQ rate, for a remote without UHQ. -/
theorem uhqGateLaw_iff (p : Pipeline) (requested : AudioCodec) (captureSr : Nat) (caps : Caps) :
  UhqGateLaw p requested captureSr caps ↔ UhqGateCondition requested captureSr caps
  := by
  constructor
  · intro hlaw
    by_contra hcond
    simp only [UhqGateCondition, not_or, Bool.not_eq_true, Bool.not_eq_false, not_and,
      ne_eq] at hcond
    obtain ⟨huhq, hcapture, hssc, hpresent⟩ := hcond
    have hcodec : resolveCodec requested caps = some .ssc := by
      apply (resolveCodec_eq_ssc_iff requested caps).mpr
      use hssc
      by_cases hreq : requested = .ssc
      · left
        apply hreq
      · right
        apply hpresent hreq
    obtain ⟨d, hd, hdssc⟩ : ∃ d, resolveStream requested captureSr p.requestedSr caps = some d
        ∧ d.codec = .ssc := by
      rw [resolveStream, hcodec, Option.map_some]
      exact ⟨_, rfl, rfl⟩
    have hgate := (hlaw d hd hdssc).rate
      ((isUhqRate_decision_iff hd hdssc).mpr (Or.inl hcapture))
    rw [huhq] at hgate
    contradiction
  · intro hcond d hd hssc
    obtain ⟨hcodec, hsr, -, -⟩ := resolveStream_eq_some_iff.mp hd
    rw [hssc] at hcodec
    obtain ⟨hadvertised, hchoice⟩ := (resolveCodec_eq_ssc_iff requested caps).mp hcodec
    have hrate : isUhqRate d.sampleRate = true → caps.sscUhq = true := by
      rw [isUhqRate_decision_iff hd hssc]
      rintro (hcapture | ⟨-, -, huhq⟩)
      · rcases hcond with huhq | hnot | hnot | ⟨hne, hpresent⟩
        · apply huhq
        · rw [hcapture] at hnot
          contradiction
        · rw [hadvertised] at hnot
          contradiction
        · rcases hchoice with heq | hnot
          · apply absurd heq hne
          · rw [hpresent] at hnot
            contradiction
      · apply huhq
    have hasked : (p.encodeSr d.codec captureSr caps).1 = d.sampleRate := by
      rw [p.encodeSr_eq, hsr]
    constructor
    · apply hrate
    · apply uhqFellBack_iff hd hssc
    · rw [hasked, configInfo_eq_uhq_iff]
      intro h
      apply hrate h.2
    · intro overrideKbps quality
      rw [hasked, initBitrateBps_mem_uhq_iff]
      apply hrate

/-- A native 96 kHz capture is streamed at 96 kHz to a remote without UHQ. -/
theorem not_uhqGateLaw_native :
  ¬ UhqGateLaw (.service 0) .ssc 96000 { ssc := true, sscCap := 0x3C, sscUhq := false }
  := by
  intro h
  have hgate := h ⟨.ssc, 96000, false, false⟩ (by decide) rfl
  apply absurd (hgate.rate (by decide))
  decide

end Ssc
