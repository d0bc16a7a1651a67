import SscOnWindows.Codec.Negotiation
import SscOnWindows.Encoder.Backend

/-!
# The SSC encoder

`SscEncoder` hands one frame of PCM after the other to its backend.  When the backend is
not connected, a call restarts it first, at most once in the time of the cooldown.
-/

namespace Ssc

/-- `kRecoveryCooldownMs`. -/
def kRecoveryCooldownMs : Nat := 5000

/-- The fields of `SscEncoder`. -/
structure SscEncoder where
  initialized : Bool := false
  channels : Nat := 2
  bitrateKbps : Nat := 0
  nextRecoveryMs : Nat := 0
  recoveryCount : Nat := 0
  backend : Option DaemonSscBackend := none
  deriving DecidableEq, Repr

/-- A call of `encode`: the time it is made at, the PCM, and which of the two output
pointers are given. -/
structure EncodeCall where
  now : Nat
  pcm : Option (List UInt8)
  pcmBytes : Nat
  outData : Bool := true
  outSize : Bool := true
  pcm_length : ∀ l, pcm = some l → l.length = pcmBytes

/-- A call with one mono frame of silence. -/
def silentFrame (now : Nat) : EncodeCall where
  now := now
  pcm := some (List.replicate 3456 0)
  pcmBytes := 3456
  pcm_length l h := by
    obtain rfl := Option.some.inj h
    apply List.length_replicate

/-- What a call of `encode` returns: its result, the bytes written to `out_data`, as many
as `*out_size` says, whether it has called `recover` of the backend, and the calls it has
made on the socket. -/
structure Reply where
  ok : Bool
  payload : List UInt8 := []
  recovered : Bool
  events : List SocketEvent := []
  deriving DecidableEq, Repr

/-- The outcome of `recover`. -/
structure Recovery (σ : Type*) where
  ok : Bool
  called : Bool
  encoder : SscEncoder
  world : σ

/-- The outcome of a call of `encode`. -/
structure Encoded (σ : Type*) where
  reply : Reply
  encoder : SscEncoder
  world : σ

namespace SscEncoder

variable {σ : Type*}

/-- `backend_ && backend_->connected()`. -/
def isConnected (e : SscEncoder) : Bool :=
  match e.backend with
  | none => false
  | some b => b.isConnected

/-- The end of `init`: the backend is kept when it has been started. -/
def install (e : SscEncoder) (started : Started σ) : Bool × SscEncoder × σ :=
  if started.ok then
    (true, { e with initialized := true, backend := some started.backend }, started.world)
  else (false, { e with backend := none }, started.world)

/-- `init` of an encoder that is not initialised. -/
def init (net : Net σ) (e : SscEncoder) (w : σ) (native : Bool) (overrideKbps : Nat)
    (quality : EncoderQuality) (sampleRate channels : Nat) : Bool × SscEncoder × σ :=
  let channels := if channels = 1 then 1 else 2
  let rate := if sampleRate = 0 then 48000 else sampleRate
  let bitrate := initBitrateBps overrideKbps quality sampleRate
  { e with channels := channels, bitrateKbps := bitrate / 1000 }.install
    (({ native := native } : DaemonSscBackend).init net w rate channels bitrate)

/-- `recover`, called at the time `now`. -/
def recover (net : Net σ) (e : SscEncoder) (w : σ) (now : Nat) : Recovery σ :=
  if now < e.nextRecoveryMs then ⟨e.isConnected, false, e, w⟩
  else
    let e := { e with nextRecoveryMs := now + kRecoveryCooldownMs }
    match e.backend with
    | none => ⟨false, false, e, w⟩
    | some b =>
        let started := b.recover net w
        ⟨started.ok, true,
          { e with
            backend := some started.backend
            recoveryCount := if started.ok then e.recoveryCount + 1 else e.recoveryCount },
          started.world⟩

/-- The end of `encode`: the outcome of the exchange is returned. -/
def finish (e : SscEncoder) (recovered : Bool) (x : Exchange σ) : Encoded σ :=
  match x.payload with
  | none => ⟨{ ok := false, recovered := recovered, events := x.events }, e, x.world⟩
  | some payload =>
      ⟨{ ok := true, payload := payload, recovered := recovered, events := x.events }, e, x.world⟩

@[simp] theorem finish_events (e : SscEncoder) (recovered : Bool) (x : Exchange σ) :
  (e.finish recovered x).reply.events = x.events
  := by
  rw [finish]
  split <;> rfl

@[simp] theorem finish_payload (e : SscEncoder) (recovered : Bool) (x : Exchange σ) :
  (e.finish recovered x).reply.payload = x.payload.getD []
  := by
  rw [finish]
  split
  · rename_i h
    rw [h]
    rfl
  · rename_i h
    rw [h]
    rfl

@[simp] theorem finish_encoder (e : SscEncoder) (recovered : Bool) (x : Exchange σ) :
  (e.finish recovered x).encoder = e
  := by
  rw [finish]
  split <;> rfl

@[simp] theorem finish_world (e : SscEncoder) (recovered : Bool) (x : Exchange σ) :
  (e.finish recovered x).world = x.world
  := by
  rw [finish]
  split <;> rfl

/-- The part of `encode` behind the recovery. -/
def encodeConnected (net : Net σ) (e : SscEncoder) (w : σ) (call : EncodeCall)
    (recovered : Bool) : Encoded σ :=
  if call.pcmBytes < kFrameSamples * e.channels * 4 % 2 ^ 32 then
    ⟨{ ok := true, recovered := recovered }, e, w⟩
  else if call.outData = false then ⟨{ ok := false, recovered := recovered }, e, w⟩
  else
    match e.backend with
    | none => ⟨{ ok := false, recovered := recovered }, e, w⟩
    | some b =>
        e.finish recovered (b.encode net call.pcm kFrameSamples e.channels kMaxEncodeBytes w)

/-- `encode`. -/
def encode (net : Net σ) (e : SscEncoder) (w : σ) (call : EncodeCall) : Encoded σ :=
  if e.initialized = false then ⟨{ ok := false, recovered := false }, e, w⟩
  else if call.outSize = false then ⟨{ ok := false, recovered := false }, e, w⟩
  else if e.isConnected then e.encodeConnected net w call false
  else
    let r := e.recover net w call.now
    if r.ok then r.encoder.encodeConnected net r.world call r.called
    else ⟨{ ok := false, recovered := r.called }, r.encoder, r.world⟩

/-- Behind the recovery `encode` either makes no exchange, or one with its backend. -/
theorem encodeConnected_cases (net : Net σ) (e : SscEncoder) (w : σ) (call : EncodeCall)
    (recovered : Bool) :
  (∃ ok, e.encodeConnected net w call recovered = ⟨{ ok := ok, recovered := recovered }, e, w⟩)
    ∨ ∃ b, e.backend = some b ∧ kFrameSamples * e.channels * 4 % 2 ^ 32 ≤ call.pcmBytes
      ∧ e.encodeConnected net w call recovered
        = e.finish recovered (b.encode net call.pcm kFrameSamples e.channels kMaxEncodeBytes w)
  := by
  rw [encodeConnected]
  split
  · left
    use true
  · rename_i hbytes
    split
    · left
      use false
    · cases hbackend : e.backend with
      | none =>
          left
          use false
      | some b =>
          right
          use b
          exact ⟨rfl, Nat.le_of_not_lt hbytes, rfl⟩

/-- What `encode` does before: it refuses the call, goes on with its backend, or with the
recovered one, or its recovery fails. -/
theorem encode_cases (net : Net σ) (e : SscEncoder) (w : σ) (call : EncodeCall) :
  e.encode net w call = ⟨{ ok := false, recovered := false }, e, w⟩
    ∨ (e.isConnected = true ∧ e.encode net w call = e.encodeConnected net w call false)
    ∨ (e.isConnected = false ∧ (e.recover net w call.now).ok = true
      ∧ e.encode net w call = (e.recover net w call.now).encoder.encodeConnected net
        (e.recover net w call.now).world call (e.recover net w call.now).called)
    ∨ (e.isConnected = false ∧ e.encode net w call
      = ⟨{ ok := false, recovered := (e.recover net w call.now).called },
          (e.recover net w call.now).encoder, (e.recover net w call.now).world⟩)
  := by
  rw [encode]
  split
  · left
    rfl
  · split
    · left
      rfl
    · right
      split
      · rename_i hconnected
        left
        exact ⟨hconnected, rfl⟩
      · rename_i hdown
        have hdown : e.isConnected = false := Bool.eq_false_of_not_eq_true hdown
        dsimp only
        right
        split
        · rename_i hok
          left
          exact ⟨hdown, hok, rfl⟩
        · right
          exact ⟨hdown, rfl⟩

/-- An encoder that has made calls on a socket is connected. -/
theorem encodeConnected_isConnected {net : Net σ} {e : SscEncoder} {w : σ} {call : EncodeCall}
    {recovered : Bool} {event : SocketEvent}
    (h : event ∈ (e.encodeConnected net w call recovered).reply.events) :
  (e.encodeConnected net w call recovered).encoder.isConnected = true
  := by
  rcases encodeConnected_cases net e w call recovered with ⟨ok, hr⟩ | ⟨b, hbackend, -, hr⟩
  · rw [hr] at h
    contradiction
  · rw [hr, finish_events] at h
    rw [hr, finish_encoder, isConnected, hbackend]
    apply b.isConnected_of_event h

theorem encode_isConnected {net : Net σ} {e : SscEncoder} {w : σ} {call : EncodeCall}
    {event : SocketEvent} (h : event ∈ (e.encode net w call).reply.events) :
  (e.encode net w call).encoder.isConnected = true
  := by
  rcases encode_cases net e w call with hr | ⟨-, hr⟩ | ⟨-, -, hr⟩ | ⟨-, hr⟩
  · rw [hr] at h
    contradiction
  · rw [hr] at h ⊢
    apply encodeConnected_isConnected h
  · rw [hr] at h ⊢
    apply encodeConnected_isConnected h
  · rw [hr] at h
    contradiction

theorem encodeConnected_sound {net : Net σ} {e : SscEncoder} {w : σ} {call : EncodeCall}
    {recovered : Bool} (h : (e.encodeConnected net w call recovered).reply.ok = true) :
  ∀ event ∈ (e.encodeConnected net w call recovered).reply.events, event.sound = true
  := by
  rcases encodeConnected_cases net e w call recovered with ⟨ok, hr⟩ | ⟨b, -, -, hr⟩
  · rw [hr]
    intro event hevent
    contradiction
  · rw [hr, finish] at h
    rw [hr, finish_events]
    split at h
    · contradiction
    · rename_i payload hpayload
      apply DaemonSscBackend.encode_sound hpayload

/-- In a call that succeeds no call on the socket falls short. -/
theorem encode_sound {net : Net σ} {e : SscEncoder} {w : σ} {call : EncodeCall}
    (h : (e.encode net w call).reply.ok = true) :
  ∀ event ∈ (e.encode net w call).reply.events, event.sound = true
  := by
  rcases encode_cases net e w call with hr | ⟨-, hr⟩ | ⟨-, -, hr⟩ | ⟨-, hr⟩
  · rw [hr] at h
    contradiction
  · rw [hr] at h ⊢
    apply encodeConnected_sound h
  · rw [hr] at h ⊢
    apply encodeConnected_sound h
  · rw [hr] at h
    contradiction

theorem encodeConnected_payload_eq_nil {net : Net σ} {e : SscEncoder} {w : σ} {call : EncodeCall}
    {recovered : Bool} (h : (e.encodeConnected net w call recovered).reply.ok = false) :
  (e.encodeConnected net w call recovered).reply.payload = []
  := by
  rcases encodeConnected_cases net e w call recovered with ⟨ok, hr⟩ | ⟨b, -, -, hr⟩
  · rw [hr]
  · rw [hr, finish] at h
    rw [hr, finish_payload]
    split at h
    · rename_i hpayload
      rw [hpayload]
      rfl
    · contradiction

/-- A call that fails returns no payload. -/
theorem encode_payload_eq_nil {net : Net σ} {e : SscEncoder} {w : σ} {call : EncodeCall}
    (h : (e.encode net w call).reply.ok = false) :
  (e.encode net w call).reply.payload = []
  := by
  rcases encode_cases net e w call with hr | ⟨-, hr⟩ | ⟨-, -, hr⟩ | ⟨-, hr⟩
  · rw [hr]
  · rw [hr] at h ⊢
    apply encodeConnected_payload_eq_nil h
  · rw [hr] at h ⊢
    apply encodeConnected_payload_eq_nil h
  · rw [hr]

end SscEncoder

end Ssc
