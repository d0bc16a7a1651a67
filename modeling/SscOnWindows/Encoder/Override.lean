import SscOnWindows.Encoder.Watchdog

/-!
# The bitrate override

A user may ask for a bitrate in kbps.  `SscEncoder::init` multiplies it by 1000 in 32 bits,
snaps the product to an accepted bitrate and starts the backend with that one; the
windows show what `snap_bitrate_kbps` reports for the same number.
-/

namespace Ssc

open Nearest Machine

variable {σ : Type*}

/-- `snap_bitrate_kbps`. -/
def snapBitrateKbps (kbps sampleRate : Nat) : Nat :=
  if kbps = 0 then 0 else snapBitrateBps (kbps * 1000 % 2 ^ 32) sampleRate / 1000

/-- The number of the option `--bitrate`: what `atoi` returned, cast to 32 unsigned bits. -/
def cliBitrateKbps (n : Int32) : UInt32 :=
  n.toUInt32

/-- `backend_->init` as `SscEncoder::init` calls it. -/
def SscEncoder.initBackend (net : Net σ) (w : σ) (native : Bool) (overrideKbps : Nat)
    (quality : EncoderQuality) (sampleRate channels : Nat) : Started σ :=
  ({ native := native } : DaemonSscBackend).init net w
    (if sampleRate = 0 then 48000 else sampleRate) (if channels = 1 then 1 else 2)
    (initBitrateBps overrideKbps quality sampleRate)

/-- `init` keeps the backend it has initialised. -/
theorem SscEncoder.init_eq_install (net : Net σ) (e : SscEncoder) (w : σ) (native : Bool)
    (overrideKbps : Nat) (quality : EncoderQuality) (sampleRate channels : Nat) :
  e.init net w native overrideKbps quality sampleRate channels
    = SscEncoder.install
        { e with
          channels := if channels = 1 then 1 else 2
          bitrateKbps := initBitrateBps overrideKbps quality sampleRate / 1000 }
        (initBackend net w native overrideKbps quality sampleRate channels)
  := rfl

/-- The bitrate the backend is initialised with. -/
theorem SscEncoder.initBackend_bitrateBps (net : Net σ) (w : σ) (native : Bool)
    (overrideKbps : Nat) (quality : EncoderQuality) (sampleRate channels : Nat) :
  (initBackend net w native overrideKbps quality sampleRate channels).backend.bitrateBps
    = initBitrateBps overrideKbps quality sampleRate
  := by
  rw [initBackend, DaemonSscBackend.init, DaemonSscBackend.startDaemon_bitrateBps]

/-! ### Recoveries keep the bitrate -/

/-- A backend, if there is one, has been started for the bitrate `bps`. -/
def SscEncoder.HasBitrate (e : SscEncoder) (bps : Nat) : Prop :=
  ∀ b, e.backend = some b → b.bitrateBps = bps

theorem SscEncoder.HasBitrate.install {e : SscEncoder} {started : Started σ} {bps : Nat}
    (h : started.backend.bitrateBps = bps) :
  (e.install started).2.1.HasBitrate bps
  := by
  rw [SscEncoder.install]
  split
  · intro b hb
    obtain rfl := Option.some.inj hb
    apply h
  · intro b hb
    cases hb

theorem SscEncoder.HasBitrate.recover {net : Net σ} {e : SscEncoder} {w : σ} {now bps : Nat}
    (h : e.HasBitrate bps) :
  (e.recover net w now).encoder.HasBitrate bps
  := by
  rw [SscEncoder.recover]
  split
  · apply h
  · dsimp only
    cases hbackend : e.backend with
    | none =>
        intro b hb
        cases hb
    | some b =>
        intro b' hb'
        obtain rfl := Option.some.inj hb'
        rw [DaemonSscBackend.recover, DaemonSscBackend.startDaemon_bitrateBps]
        apply h b hbackend

theorem SscEncoder.encodeConnected_encoder (net : Net σ) (e : SscEncoder) (w : σ)
    (call : EncodeCall) (recovered : Bool) :
  (e.encodeConnected net w call recovered).encoder = e
  := by
  rcases e.encodeConnected_cases net w call recovered with ⟨ok, h⟩ | ⟨b, -, -, h⟩
  · rw [h]
  · rw [h, finish_encoder]

theorem SscEncoder.HasBitrate.encode {net : Net σ} {e : SscEncoder} {w : σ} {call : EncodeCall}
    {bps : Nat} (h : e.HasBitrate bps) :
  (e.encode net w call).encoder.HasBitrate bps
  := by
  rcases e.encode_cases net w call with heq | ⟨-, heq⟩ | ⟨-, -, heq⟩ | ⟨-, heq⟩
  · rw [heq]
    apply h
  · rw [heq, encodeConnected_encoder]
    apply h
  · rw [heq, encodeConnected_encoder]
    apply h.recover
  · rw [heq]
    apply h.recover

/-- The bitrate stays the one of the initialisation, whatever the calls of `encode` and the
recoveries in them. -/
theorem SscEncoder.HasBitrate.reachable {net : Net σ} {s t : Watched σ} {bps : Nat}
    (h : s.encoder.HasBitrate bps) (hreach : Reachable (Watched.next net) s t) :
  t.encoder.HasBitrate bps
  := by
  apply hreach.invariant (I := fun s => s.encoder.HasBitrate bps) h
  intro s call t hs hnext
  obtain rfl := Option.some.inj hnext
  apply hs.encode

/-! ### The product in 32 bits -/

/-- The greatest number of a set is the nearest one to the points beyond the midpoint
between it and the next smaller one. -/
theorem isNearest_eq_greatest_iff {bps c next greatest : Nat} {s : Set Nat}
    (h : IsNearest Nat.dist bps s c) (hgreatest : greatest ∈ s) (hnext : next ∈ s)
    (hlt : next < greatest) (hle : ∀ d ∈ s, d ≠ greatest → d ≤ next) :
  c = greatest ↔ next + greatest < 2 * bps
  := by
  constructor
  · rintro rfl
    by_contra hge
    have hdist : Nat.dist bps next ≤ Nat.dist bps c := by
      simp only [Nat.dist]
      omega
    apply Nat.not_le_of_lt hlt (h.least next hnext hdist)
  · intro hfar
    apply h.unique
    apply isNearest_of_forall_lt hgreatest
    intro d hd hne
    have hd := hle d hd hne
    simp only [Nat.dist]
    omega

/-- The highest bitrate accepted at a sample rate. -/
def highestBitrateBps (sampleRate : Nat) : Nat :=
  if isUhqRate sampleRate then 886000 else 328000

/-- The midpoint between the two highest bitrates accepted at a sample rate. -/
def highestMidpointBps (sampleRate : Nat) : Nat :=
  if isUhqRate sampleRate then 735000 else 292000

/-- A nearest accepted bitrate is the highest one when the request is beyond the midpoint. -/
theorem isNearest_eq_highest_iff {bps sampleRate c : Nat}
    (h : IsNearest Nat.dist bps {c | c ∈ bitratesBps sampleRate} c) :
  c = highestBitrateBps sampleRate ↔ highestMidpointBps sampleRate < bps
  := by
  rcases Bool.eq_false_or_eq_true (isUhqRate sampleRate) with huhq | huhq
  · simp only [bitratesBps, highestBitrateBps, highestMidpointBps, huhq, if_true] at h ⊢
    have hgreatest : 886000 ∈ kUhqBitratesBps := by decide
    have hnext : 584000 ∈ kUhqBitratesBps := by decide
    rw [isNearest_eq_greatest_iff h hgreatest hnext (by decide) (by simp [kUhqBitratesBps])]
    omega
  · simp only [bitratesBps, highestBitrateBps, highestMidpointBps, huhq, Bool.false_eq_true,
      if_false] at h ⊢
    have hgreatest : 328000 ∈ kBasicBitratesBps := by decide
    have hnext : 256000 ∈ kBasicBitratesBps := by decide
    rw [isNearest_eq_greatest_iff h hgreatest hnext (by decide) (by simp [kBasicBitratesBps])]
    omega

/-- A sample rate of `0` stands for 48 kHz, which has the same bitrates. -/
theorem bitratesBps_default (sampleRate : Nat) :
  bitratesBps (if sampleRate = 0 then 48000 else sampleRate) = bitratesBps sampleRate
  := by
  split
  · rename_i h
    rw [h]
    rfl
  · rfl

/-- A snapped bitrate depends on the sample rate through the accepted bitrates only. -/
theorem initBitrateBps_of_pos {overrideKbps : Nat} (quality : EncoderQuality) (sampleRate : Nat)
    (h : overrideKbps ≠ 0) :
  initBitrateBps overrideKbps quality sampleRate
    = snapBitrateBps (overrideKbps * 1000 % 2 ^ 32) sampleRate
  := by
  rw [initBitrateBps, if_pos (Nat.pos_of_ne_zero h), snapBitrateBps, snapBitrateBps,
    bitratesBps_default]

/-- The accepted bitrates are whole numbers of kbps. -/
theorem div_mul_of_mem_bitratesBps {bps sampleRate : Nat} (h : bps ∈ bitratesBps sampleRate) :
  bps / 1000 * 1000 = bps
  := by
  rw [bitratesBps] at h
  split at h
  · revert bps
    decide
  · revert bps
    decide

/-! ### The law of the override -/

/-- What the bitrate override promises: `init` gives the backend the accepted bitrate nearest
to the number of kbps, in exact integers, the window reports the same bitrate, and no
call of `encode` changes it. -/
structure OverrideLaw (net : Net σ) (w : σ) (native : Bool) (kbps : UInt32)
    (quality : EncoderQuality) (sampleRate channels : Nat) : Prop where
  nearest : IsNearest Nat.dist (kbps.toNat * 1000)
    {c | c ∈ bitratesBps (if sampleRate = 0 then 48000 else sampleRate)}
    (SscEncoder.initBackend net w native kbps.toNat quality sampleRate channels).backend.bitrateBps
  reported : snapBitrateKbps kbps.toNat sampleRate * 1000
    = (SscEncoder.initBackend net w native kbps.toNat quality sampleRate
        channels).backend.bitrateBps
  kept : ∀ (e : SscEncoder) (s : Watched σ),
    Reachable (Watched.next net)
      (Watched.start (e.init net w native kbps.toNat quality sampleRate channels).2.1
        (e.init net w native kbps.toNat quality sampleRate channels).2.2) s →
    s.encoder.HasBitrate
      (SscEncoder.initBackend net w native kbps.toNat quality sampleRate
        channels).backend.bitrateBps

/-- The product with 1000 fits in 32 bits, or what is left of it is still snapped to the
highest bitrate. -/
def OverrideExact (kbps : UInt32) (sampleRate : Nat) : Prop :=
  kbps.toNat * 1000 < 2 ^ 32 ∨ highestMidpointBps sampleRate < kbps.toNat * 1000 % 2 ^ 32

instance (kbps : UInt32) (sampleRate : Nat) : Decidable (OverrideExact kbps sampleRate) :=
  inferInstanceAs (Decidable (_ ∨ _))

/-- The wrapped product is snapped to the bitrate nearest to the exact one when it is the
exact one, or still beyond the midpoint of the two highest bitrates. -/
theorem snapBitrateBps_wrapped_isNearest_iff (kbps : UInt32) (sampleRate : Nat) :
  IsNearest Nat.dist (kbps.toNat * 1000) {c | c ∈ bitratesBps sampleRate}
      (snapBitrateBps (kbps.toNat * 1000 % 2 ^ 32) sampleRate)
    ↔ OverrideExact kbps sampleRate
  := by
  have hwrapped := snapBitrateBps_isNearest (kbps.toNat * 1000 % 2 ^ 32) sampleRate
  have hexact := snapBitrateBps_isNearest (kbps.toNat * 1000) sampleRate
  rw [OverrideExact]
  by_cases hfits : kbps.toNat * 1000 < 2 ^ 32
  · rw [Nat.mod_eq_of_lt hfits]
    simp only [hexact, hfits, true_or]
  · have hbeyond : highestMidpointBps sampleRate < kbps.toNat * 1000 := by
      rw [highestMidpointBps]
      split <;> omega
    have hhighest := (isNearest_eq_highest_iff hexact).mpr hbeyond
    rw [← isNearest_eq_highest_iff hwrapped]
    constructor
    · intro h
      right
      rw [← hhighest]
      apply h.unique hexact
    · rintro (h | h)
      · contradiction
      · rw [h, ← hhighest]
        apply hexact

/-- The override is honoured exactly when its product does not wrap, or wraps to a value
beyond the midpoint of the two highest bitrates. -/
theorem overrideLaw_iff (net : Net σ) (w : σ) (native : Bool) (kbps : UInt32)
    (quality : EncoderQuality) (sampleRate channels : Nat) (h : kbps ≠ 0) :
  OverrideLaw net w native kbps quality sampleRate channels ↔ OverrideExact kbps sampleRate
  := by
  have hpos : kbps.toNat ≠ 0 := by
    intro hzero
    apply h
    apply UInt32.toNat_inj.mp hzero
  have hgiven := SscEncoder.initBackend_bitrateBps net w native kbps.toNat quality sampleRate
    channels
  rw [initBitrateBps_of_pos quality sampleRate hpos] at hgiven
  rw [← snapBitrateBps_wrapped_isNearest_iff]
  constructor
  · intro hlaw
    have hnearest := hlaw.nearest
    rw [hgiven, bitratesBps_default] at hnearest
    apply hnearest
  · intro hnearest
    constructor
    · rw [hgiven, bitratesBps_default]
      apply hnearest
    · rw [hgiven, snapBitrateKbps, if_neg hpos]
      apply div_mul_of_mem_bitratesBps hnearest.mem
    · intro e s hreach
      apply SscEncoder.HasBitrate.reachable _ hreach
      rw [Watched.start, SscEncoder.init_eq_install]
      apply SscEncoder.HasBitrate.install rfl

/-- An override of 229 kbps is honoured. -/
theorem overrideLaw_229 :
  OverrideLaw Watched.scriptedNet ([], []) true 229 .high 48000 2
  := by
  apply (overrideLaw_iff _ _ _ _ _ _ _ (by decide)).mpr
  decide

/-- An override of 4294968 kbps wraps to 704 bits per second, and the encoder gets the
lowest bitrate instead of the highest one. -/
theorem not_overrideLaw_4294968 :
  ¬ OverrideLaw Watched.scriptedNet ([], []) true 4294968 .high 48000 2
  := by
  intro hlaw
  have hgiven := SscEncoder.initBackend_bitrateBps Watched.scriptedNet ([], []) true
    (4294968 : UInt32).toNat .high 48000 2
  have hlowest : initBitrateBps (4294968 : UInt32).toNat .high 48000 = 88000 := by decide
  have hnear := hlaw.nearest.min 328000 (by decide)
  rw [hgiven, hlowest] at hnear
  apply absurd hnear
  decide

/-- The negative numbers `-1`, …, `-4294` of the option `--bitrate` wrap beyond the midpoint
again: they ask for the highest bitrate. -/
theorem overrideExact_of_negative {n : Int32} (sampleRate : Nat) (hneg : n.toInt < 0)
    (hsmall : -4294 ≤ n.toInt) :
  OverrideExact (cliBitrateKbps n) sampleRate
  := by
  have hcast : ((cliBitrateKbps n).toNat : Int) = n.toInt + 2 ^ 32 := by
    have htoInt : n.toInt = n.toBitVec.toInt := rfl
    have htoNat : (cliBitrateKbps n).toNat = n.toBitVec.toNat := rfl
    rw [htoInt, BitVec.toInt_eq_toNat_cond] at hneg
    rw [htoNat, htoInt, BitVec.toInt_eq_toNat_cond]
    split at hneg
    · omega
    · rename_i hbig
      rw [if_neg hbig]
      omega
  have hproduct : (cliBitrateKbps n).toNat * 1000
      = 2 ^ 32 * 999 + (2 ^ 32 - 1000 * (2 ^ 32 - (cliBitrateKbps n).toNat)) := by
    omega
  right
  rw [hproduct, Nat.mul_add_mod, Nat.mod_eq_of_lt (by omega), highestMidpointBps]
  split <;> omega

end Ssc
