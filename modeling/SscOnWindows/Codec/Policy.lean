import Mathlib.Data.Nat.Dist
import Mathlib.Data.UInt
import SscOnWindows.Lib.Nearest

/-!
# The codec policy

The decisions of `codec_policy.h`: which codec a stream uses, at which sample rate it is
encoded, and which bitrates the encoder accepts at that rate.  Rates and bitrates are
natural numbers; the source's `uint32_t` never overflows in this file.
-/

namespace Ssc

open Nearest

/-- `AudioCodec`. -/
inductive AudioCodec where
  | ssc
  | aac
  | sbc
  deriving DecidableEq, Repr

/-- `EncoderQuality`. -/
inductive EncoderQuality where
  | high
  | standard
  | mobile
  deriving DecidableEq, Repr

/-- `codec_policy::Caps`: what the remote advertises.  `sscCap` is the raw SSC capability
byte and `sscUhq` its UHQ bit. -/
structure Caps where
  sbc : Bool := false
  aac : Bool := false
  ssc : Bool := false
  sscCap : UInt8 := 0
  sscUhq : Bool := false
  deriving DecidableEq, Repr

/-! ### Choice of the codec -/

/-- `codec_present`. -/
def codecPresent (codec : AudioCodec) (caps : Caps) : Bool :=
  match codec with
  | .ssc => caps.ssc
  | .aac => caps.aac
  | .sbc => caps.sbc

/-- `resolve_codec`: the requested codec when it is advertised, and else the first
advertised one of SSC, AAC, SBC. -/
def resolveCodec (requested : AudioCodec) (caps : Caps) : Option AudioCodec :=
  if codecPresent requested caps then some requested
  else if caps.ssc then some .ssc
  else if caps.aac then some .aac
  else if caps.sbc then some .sbc
  else none

/-- The codec chosen is advertised. -/
theorem resolveCodec_present {requested codec : AudioCodec} {caps : Caps}
    (h : resolveCodec requested caps = some codec) :
  codecPresent codec caps = true
  := by
  rw [resolveCodec] at h
  split at h
  · obtain rfl := Option.some.inj h
    assumption
  · split at h
    · obtain rfl := Option.some.inj h
      assumption
    · split at h
      · obtain rfl := Option.some.inj h
        assumption
      · split at h
        · obtain rfl := Option.some.inj h
          assumption
        · contradiction

/-- SSC is chosen when it is advertised and either requested or the fallback for a codec
that is not advertised. -/
theorem resolveCodec_eq_ssc_iff (requested : AudioCodec) (caps : Caps) :
  resolveCodec requested caps = some .ssc
    ↔ caps.ssc = true ∧ (requested = .ssc ∨ codecPresent requested caps = false)
  := by
  obtain ⟨sbc, aac, ssc, sscCap, sscUhq⟩ := caps
  cases requested <;> cases ssc <;> cases aac <;> cases sbc <;>
    simp [resolveCodec, codecPresent]

/-- No codec is chosen exactly when none is advertised. -/
theorem resolveCodec_eq_none_iff (requested : AudioCodec) (caps : Caps) :
  resolveCodec requested caps = none ↔ ∀ codec, codecPresent codec caps = false
  := by
  constructor
  · intro h codec
    obtain ⟨sbc, aac, ssc, sscCap, sscUhq⟩ := caps
    cases requested <;> cases ssc <;> cases aac <;> cases sbc <;> cases codec <;>
      simp_all [resolveCodec, codecPresent]
  · intro h
    have hssc := h .ssc
    have haac := h .aac
    have hsbc := h .sbc
    simp only [codecPresent] at hssc haac hsbc
    simp [resolveCodec, h requested, hssc, haac, hsbc]

/-! ### Bitrates -/

/-- `kBasicBitratesBps`. -/
def kBasicBitratesBps : List Nat :=
  [88000, 96000, 128000, 192000, 229000, 256000, 328000]

/-- `kUhqBitratesBps`. -/
def kUhqBitratesBps : List Nat :=
  [152000, 250000, 291000, 308000, 442000, 584000, 886000]

/-- `is_uhq_rate`. -/
def isUhqRate (sampleRate : Nat) : Bool :=
  sampleRate == 88200 || sampleRate == 96000

/-- The bitrates the encoder accepts at a sample rate. -/
def bitratesBps (sampleRate : Nat) : List Nat :=
  if isUhqRate sampleRate then kUhqBitratesBps else kBasicBitratesBps

/-- The distance of two bitrates, as `snap_bitrate_bps` computes it. -/
def bitrateDiff (bps cand : Nat) : Nat :=
  if bps > cand then bps - cand else cand - bps

/-- The loop of `snap_bitrate_bps` over the candidates after the first one. -/
def snapLoop (bps : Nat) : Nat → Nat → List Nat → Nat
  | best, _, [] => best
  | best, bestDiff, cand :: rest =>
      if bitrateDiff bps cand < bestDiff then snapLoop bps cand (bitrateDiff bps cand) rest
      else snapLoop bps best bestDiff rest

/-- `snap_bitrate_bps`: the accepted bitrate nearest to the requested one, the smaller of
two equally near ones. -/
def snapBitrateBps (bps sampleRate : Nat) : Nat :=
  match bitratesBps sampleRate with
  | [] => 0
  | first :: rest => snapLoop bps first (bitrateDiff bps first) rest

/-- `pick_bitrate_bps`. -/
def pickBitrateBps (quality : EncoderQuality) (sampleRate : Nat) : Nat :=
  match quality with
  | .high => if isUhqRate sampleRate then 584000 else 229000
  | .standard => if isUhqRate sampleRate then 442000 else 192000
  | .mobile => if isUhqRate sampleRate then 250000 else 128000

theorem bitrateDiff_eq_dist (bps cand : Nat) :
  bitrateDiff bps cand = Nat.dist bps cand
  := by
  rw [bitrateDiff, Nat.dist]
  split <;> omega

/-- The loop is the scan for the nearest candidate. -/
theorem snapLoop_eq_scan (bps : Nat) (best : Nat) (rest : List Nat) :
  snapLoop bps best (bitrateDiff bps best) rest = scan Nat.dist bps best rest
  := by
  induction rest generalizing best with
  | nil => rfl
  | cons cand rest ih =>
      rw [snapLoop, scan, ih cand, ih best, bitrateDiff_eq_dist, bitrateDiff_eq_dist]

theorem bitratesBps_ne_nil (sampleRate : Nat) :
  bitratesBps sampleRate ≠ []
  := by
  rw [bitratesBps]
  split
  · simp [kUhqBitratesBps]
  · simp [kBasicBitratesBps]

theorem bitratesBps_sorted (sampleRate : Nat) :
  (bitratesBps sampleRate).Pairwise (· ≤ ·)
  := by
  rw [bitratesBps]
  split <;> decide

/-- A snapped bitrate is the accepted one nearest to the requested bitrate, the least of
two equally near ones. -/
theorem snapBitrateBps_isNearest (bps sampleRate : Nat) :
  IsNearest Nat.dist bps {c | c ∈ bitratesBps sampleRate} (snapBitrateBps bps sampleRate)
  := by
  have hsorted := bitratesBps_sorted sampleRate
  rw [snapBitrateBps]
  cases h : bitratesBps sampleRate with
  | nil => apply absurd h (bitratesBps_ne_nil sampleRate)
  | cons first rest =>
      rw [h] at hsorted
      dsimp only
      rw [snapLoop_eq_scan]
      apply scan_isNearest Nat.dist bps hsorted

/-- An accepted bitrate is left as it is. -/
theorem snapBitrateBps_of_mem {bps sampleRate : Nat} (h : bps ∈ bitratesBps sampleRate) :
  snapBitrateBps bps sampleRate = bps
  := by
  apply (snapBitrateBps_isNearest bps sampleRate).unique
  apply isNearest_of_forall_lt
  · apply h
  · intro c _ hne
    rw [Nat.dist_self]
    apply Nat.dist_pos_of_ne hne.symm

/-- Of two requested bitrates the smaller one is snapped to the smaller accepted one. -/
theorem snapBitrateBps_mono {bps bps' : Nat} (sampleRate : Nat) (h : bps ≤ bps') :
  snapBitrateBps bps sampleRate ≤ snapBitrateBps bps' sampleRate
  := by
  apply (snapBitrateBps_isNearest bps sampleRate).le (snapBitrateBps_isNearest bps' sampleRate)
  intro hle
  simp only [Nat.dist]
  omega

/-- The bitrate picked for a quality is accepted at its sample rate. -/
theorem pickBitrateBps_mem (quality : EncoderQuality) (sampleRate : Nat) :
  pickBitrateBps quality sampleRate ∈ bitratesBps sampleRate
  := by
  rw [bitratesBps]
  cases quality <;> cases h : isUhqRate sampleRate <;>
    simp [pickBitrateBps, h, kUhqBitratesBps, kBasicBitratesBps]

/-- What snapping to the bitrates accepted at a sample rate promises. -/
structure SnapLaw (sampleRate : Nat) : Prop where
  nearest : ∀ bps, IsNearest Nat.dist bps {c | c ∈ bitratesBps sampleRate}
    (snapBitrateBps bps sampleRate)
  accepted : ∀ bps ∈ bitratesBps sampleRate, snapBitrateBps bps sampleRate = bps
  idempotent : ∀ bps, snapBitrateBps (snapBitrateBps bps sampleRate) sampleRate
    = snapBitrateBps bps sampleRate
  mono : Monotone (fun bps => snapBitrateBps bps sampleRate)
  picked : ∀ quality, snapBitrateBps (pickBitrateBps quality sampleRate) sampleRate
    = pickBitrateBps quality sampleRate

/-- Every requested bitrate is snapped to the nearest accepted one, in order, and the
accepted and the picked ones stay as they are. -/
theorem snapBitrateBps_snapLaw (sampleRate : Nat) :
  SnapLaw sampleRate
  := by
  constructor
  · intro bps
    apply snapBitrateBps_isNearest
  · intro bps h
    apply snapBitrateBps_of_mem h
  · intro bps
    apply snapBitrateBps_of_mem (snapBitrateBps_isNearest bps sampleRate).mem
  · intro bps bps' h
    apply snapBitrateBps_mono sampleRate h
  · intro quality
    apply snapBitrateBps_of_mem (pickBitrateBps_mem quality sampleRate)

/-- No bitrate is both a basic and a UHQ one. -/
theorem basic_disjoint_uhq {bps : Nat} (h : bps ∈ kBasicBitratesBps) :
  bps ∉ kUhqBitratesBps
  := by
  revert bps
  decide

/-- A bitrate accepted at a sample rate is a UHQ one exactly when the rate is. -/
theorem mem_uhq_iff {bps sampleRate : Nat} (h : bps ∈ bitratesBps sampleRate) :
  bps ∈ kUhqBitratesBps ↔ isUhqRate sampleRate = true
  := by
  rw [bitratesBps] at h
  split at h
  · rename_i huhq
    simp [huhq, h]
  · rename_i huhq
    simp [huhq, basic_disjoint_uhq h]

/-! ### The encode sample rate -/

/-- `resolve_encode_sr`, with the value of `*fell_back`. -/
def resolveEncodeSr (codec : AudioCodec) (captureSr requestedSr : Nat) (caps : Caps) :
    Nat × Bool :=
  if codec = .ssc ∧ captureSr = 48000 ∧ isUhqRate requestedSr then
    if caps.sscUhq then (requestedSr, false) else (captureSr, true)
  else (captureSr, false)

/-- What `resolve_stream` stores through its out-parameters. -/
structure StreamDecision where
  codec : AudioCodec
  sampleRate : Nat
  codecFellBack : Bool
  uhqFellBack : Bool
  deriving DecidableEq, Repr

/-- `resolve_stream`. -/
def resolveStream (requested : AudioCodec) (captureSr requestedSr : Nat) (caps : Caps) :
    Option StreamDecision :=
  (resolveCodec requested caps).map fun codec =>
    { codec := codec
      sampleRate := (resolveEncodeSr codec captureSr requestedSr caps).1
      codecFellBack := codec != requested
      uhqFellBack := (resolveEncodeSr codec captureSr requestedSr caps).2 }

/-- The UHQ rate is used on a 48 kHz capture exactly when it was requested for SSC and
the remote advertises it; every other stream is encoded at the capture rate. -/
theorem resolveEncodeSr_fst (codec : AudioCodec) (captureSr requestedSr : Nat) (caps : Caps) :
  (resolveEncodeSr codec captureSr requestedSr caps).1
    = if codec = .ssc ∧ captureSr = 48000 ∧ isUhqRate requestedSr ∧ caps.sscUhq then requestedSr
      else captureSr
  := by
  rw [resolveEncodeSr]
  cases h : caps.sscUhq
  · split
    · simp
    · simp
  · split
    · simp [*]
    · rename_i hreq
      simp only [and_true]
      rw [if_neg hreq]

/-- The fallback is reported exactly for a UHQ request for SSC on a 48 kHz capture when
the remote does not advertise UHQ. -/
theorem resolveEncodeSr_snd (codec : AudioCodec) (captureSr requestedSr : Nat) (caps : Caps) :
  (resolveEncodeSr codec captureSr requestedSr caps).2 = true
    ↔ codec = .ssc ∧ captureSr = 48000 ∧ isUhqRate requestedSr ∧ caps.sscUhq = false
  := by
  rw [resolveEncodeSr]
  cases h : caps.sscUhq
  · split
    · simp [*]
    · rename_i hreq
      simpa using hreq
  · split
    · simp
    · simp

/-- The fields of a decision are those of its codec. -/
theorem resolveStream_eq_some_iff {requested : AudioCodec} {captureSr requestedSr : Nat}
    {caps : Caps} {d : StreamDecision} :
  resolveStream requested captureSr requestedSr caps = some d
    ↔ resolveCodec requested caps = some d.codec
      ∧ d.sampleRate = (resolveEncodeSr d.codec captureSr requestedSr caps).1
      ∧ d.codecFellBack = (d.codec != requested)
      ∧ d.uhqFellBack = (resolveEncodeSr d.codec captureSr requestedSr caps).2
  := by
  rw [resolveStream, Option.map_eq_some_iff]
  constructor
  · rintro ⟨codec, hcodec, rfl⟩
    simp [hcodec]
  · rintro ⟨hcodec, hsr, hfb, huhq⟩
    use d.codec, hcodec
    rw [← hsr, ← hfb, ← huhq]

end Ssc
