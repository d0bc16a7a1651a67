import SscOnWindows.Encoder.Watchdog

/-!
# The capacity of the output buffer

The caller of `encode` says in `*out_size` how many bytes its buffer has.  `SscEncoder` does
not look at that number: it tells the backend that there are `kMaxEncodeBytes` bytes, and the
backend receives a payload of up to so many into the buffer.  Bytes that are received before
a read fails are in the buffer as well.
-/

namespace Ssc

open ByteStream

variable {σ : Type*}

/-- The number of bytes a call on a socket has received. -/
def SocketEvent.receivedBytes : SocketEvent → Nat
  | .sent _ _ _ => 0
  | .received _ count => count

/-- The number of bytes received in some calls. -/
def receivedTotal (events : List SocketEvent) : Nat :=
  (events.map SocketEvent.receivedBytes).sum

/-- The number of bytes written to `out_data`: those received behind the four bytes of the
result. -/
def Reply.written (r : Reply) : Nat :=
  receivedTotal r.events - 4

theorem receivedTotal_append (events events' : List SocketEvent) :
  receivedTotal (events ++ events') = receivedTotal events + receivedTotal events'
  := by
  rw [receivedTotal, List.map_append, List.sum_append]
  rfl

theorem receivedTotal_received (sock : Nat) (counts : List Nat) :
  receivedTotal (counts.map (.received sock)) = counts.sum
  := by
  have hcounts : counts.map (SocketEvent.receivedBytes ∘ .received sock) = counts := by
    apply List.map_id'' (fun _ => rfl)
  rw [receivedTotal, List.map_map, hcounts]

/-! ### One exchange -/

namespace DaemonSscBackend

/-- At most `size` bytes are received into the buffer, and a payload is not longer. -/
structure Exchanged (size : Nat) (x : Exchange σ) : Prop where
  written : receivedTotal x.events - 4 ≤ size
  payload : ∀ payload, x.payload = some payload → payload.length ≤ size

theorem exchanged_of_failed {size : Nat} {events : List SocketEvent} {w : σ}
    (h : receivedTotal events ≤ 4) :
  Exchanged size ⟨none, events, w⟩
  := by
  constructor
  · dsimp only
    omega
  · intro payload hpayload
    cases hpayload

theorem receivePayload_exchanged {net : Net σ} {sock outCap : Nat} {events : List SocketEvent}
    {ret : Int} {w : σ} (h : receivedTotal events ≤ 4) :
  Exchanged kMaxEncodeBytes (receivePayload net sock outCap events ret w)
  := by
  rw [receivePayload]
  split
  · apply exchanged_of_failed h
  · rename_i hret
    split
    · apply exchanged_of_failed h
    · have hcounts := sum_counts_readFull_le (fun w need => net.recv w sock need) ret.toNat w
      constructor
      · dsimp only
        rw [receivedTotal_append, receivedTotal_received]
        omega
      · intro payload hpayload
        have hlength := (length_readFull hpayload).1
        omega

theorem receiveResult_exchanged {net : Net σ} {sock outCap : Nat} {events : List SocketEvent}
    {w : σ} (h : receivedTotal events = 0) :
  Exchanged kMaxEncodeBytes (receiveResult net sock outCap events w)
  := by
  have hcounts := sum_counts_readFull_le (fun w need => net.recv w sock need) 4 w
  have htotal : receivedTotal (events
      ++ (readFull (fun w need => net.recv w sock need) 4 w).counts.map (.received sock)) ≤ 4 := by
    rw [receivedTotal_append, receivedTotal_received, h]
    omega
  cases hbytes : (readFull (fun w need => net.recv w sock need) 4 w).bytes with
  | none =>
      rw [receiveResult_of_none hbytes]
      apply exchanged_of_failed htotal
  | some bytes =>
      rw [receiveResult_of_some hbytes]
      apply receivePayload_exchanged htotal

/-- Whatever the daemon answers, an exchange receives at most `kMaxEncodeBytes` bytes into the
buffer. -/
theorem encode_exchanged (net : Net σ) (b : DaemonSscBackend) (pcm : Option (List UInt8))
    (frames channels outCap : Nat) (w : σ) :
  Exchanged kMaxEncodeBytes (b.encode net pcm frames channels outCap w)
  := by
  rw [encode.eq_def]
  split
  · split
    · apply exchanged_of_failed (Nat.zero_le _)
    · split
      · apply exchanged_of_failed (Nat.zero_le _)
      · rw [exchange]
        dsimp only
        split
        · apply exchanged_of_failed (Nat.zero_le _)
        · split
          · apply exchanged_of_failed (Nat.zero_le _)
          · apply receiveResult_exchanged rfl
  · apply exchanged_of_failed (Nat.zero_le _)

end DaemonSscBackend

/-! ### A daemon that answers at length -/

/-- A world with the bytes the daemon has sent, in which every call succeeds and the sends of
the PCM return `taken`. -/
def answeringNet (taken : Int) : Net (List UInt8) where
  wsaStartup w := (true, w)
  startNativeDaemon w _ _ _ := (true, w)
  startWslDaemon w _ _ _ := w
  hostIp w := ("127.0.0.1", w)
  socket w := (true, w)
  inetPton _ := true
  connect w _ := (true, w)
  closesocket w _ := w
  send w _ bytes := (if bytes.length = 4 then 4 else taken, w)
  recv w _ need := (w.take need, w.drop need)

/-- An answer with a payload of `kMaxEncodeBytes` bytes. -/
def longAnswer : List UInt8 :=
  le32 kMaxEncodeBytes ++ List.replicate kMaxEncodeBytes 0

namespace DaemonSscBackend

theorem receiveResult_longAnswer (taken : Int) (sock : Nat) (events : List SocketEvent) :
  (receiveResult (answeringNet taken) sock kMaxEncodeBytes events longAnswer).events
    = events ++ [.received sock 4] ++ [.received sock kMaxEncodeBytes]
  := by
  have hresult : readFull (fun w need => (answeringNet taken).recv w sock need) 4 longAnswer
      = ⟨some (le32 kMaxEncodeBytes), [4], List.replicate kMaxEncodeBytes 0⟩ := by
    apply readFull_of_length (by decide)
    rfl
  have hpayload : readFull (fun w need => (answeringNet taken).recv w sock need) kMaxEncodeBytes
      (List.replicate kMaxEncodeBytes 0)
      = ⟨some (List.replicate kMaxEncodeBytes 0), [kMaxEncodeBytes], []⟩ := by
    rw [readFull_of_length (by decide) (by simp [answeringNet])]
    simp [answeringNet]
  have hret : signed32 (ofLe (le32 kMaxEncodeBytes)) = kMaxEncodeBytes := rfl
  simp only [receiveResult, hresult, hret, receivePayload, Int.toNat_natCast, hpayload]
  rw [if_neg (by decide), if_neg (by decide)]
  rfl

/-- The frame is answered, and the answer fills `kMaxEncodeBytes` bytes. -/
theorem encode_longAnswer {b : DaemonSscBackend} {pcm : List UInt8} {channels : Nat}
    (hconnected : b.isConnected = true) (hchannels : 0 < channels)
    (hpcm : kFrameSamples * channels * 4 % 2 ^ 32 ≤ pcm.length) :
  receivedTotal (b.encode (answeringNet (signed32 (kFrameSamples * channels * 4 % 2 ^ 32)))
      (some pcm) kFrameSamples channels kMaxEncodeBytes longAnswer).events
    = 4 + kMaxEncodeBytes
  := by
  obtain ⟨sock, hexchange⟩ := encode_of_isConnected
    (answeringNet (signed32 (kFrameSamples * channels * 4 % 2 ^ 32))) pcm kMaxEncodeBytes
    longAnswer hconnected (by decide : 0 < kFrameSamples) hchannels
  have hbody : (pcm.take (kFrameSamples * channels * 4 % 2 ^ 32)).length ≠ 4 := by
    rw [List.length_take_of_le hpcm, kFrameSamples]
    omega
  have hheader : ∀ taken, (answeringNet taken).send longAnswer sock (le32 kFrameSamples)
      = (4, longAnswer) := by
    intro taken
    rfl
  have hsent : ∀ taken, (answeringNet taken).send longAnswer sock
      (pcm.take (kFrameSamples * channels * 4 % 2 ^ 32)) = (taken, longAnswer) := by
    intro taken
    rw [answeringNet]
    dsimp only
    rw [if_neg hbody]
  rw [hexchange, exchange]
  simp only [hheader, hsent, ne_eq, not_true_eq_false, if_false, receiveResult_longAnswer]
  simp [receivedTotal, SocketEvent.receivedBytes]

/-- The daemon can be restarted. -/
theorem recover_answeringNet (taken : Int) (b : DaemonSscBackend) (w : List UInt8) :
  (b.recover (answeringNet taken) w).ok = true ∧ (b.recover (answeringNet taken) w).world = w
  := by
  have hclose : ∀ b : DaemonSscBackend, b.closeSocket (answeringNet taken) w = w := by
    intro b
    rw [closeSocket]
    split <;> rfl
  rw [recover, hclose, startDaemon]
  rcases Bool.eq_false_or_eq_true b.native with hnative | hnative
  · simp [answeringNet, hnative, connectLoop, connectAttempts, closeSocket]
  · simp [answeringNet, hnative, connectLoop, connectAttempts, closeSocket]

end DaemonSscBackend

/-! ### The law of the capacity -/

namespace SscEncoder

/-- A call of `encode` with `*out_size = capacity` writes at most `capacity` bytes, and returns
at most so many when it succeeds. -/
structure WithinCapacity (net : Net σ) (e : SscEncoder) (w : σ) (call : EncodeCall)
    (capacity : Nat) : Prop where
  written : (e.encode net w call).reply.written ≤ capacity
  size : (e.encode net w call).reply.ok = true →
    (e.encode net w call).reply.payload.length ≤ capacity

/-- The call stays within its capacity whatever the network and the daemon answer. -/
def RespectsCapacity (e : SscEncoder) (call : EncodeCall) (capacity : Nat) : Prop :=
  ∀ (σ : Type) (net : Net σ) (w : σ), e.WithinCapacity net w call capacity

/-- The call has what an exchange with the daemon needs, and the backend is connected or may
be restarted. -/
structure CanExchange (e : SscEncoder) (call : EncodeCall) : Prop where
  initialized : e.initialized = true
  outSize : call.outSize = true
  outData : call.outData = true
  pcm : call.pcm.isSome = true
  channels : 0 < e.channels
  pcmBytes : kFrameSamples * e.channels * 4 % 2 ^ 32 ≤ call.pcmBytes
  connects : e.isConnected = true ∨ (e.nextRecoveryMs ≤ call.now ∧ e.backend.isSome = true)

variable {net : Net σ} {e : SscEncoder} {w : σ} {call : EncodeCall} {capacity : Nat}

/-- A reply without an exchange. -/
def Silent (r : Reply) : Prop :=
  r.events = [] ∧ r.payload = []

theorem Silent.withinCapacity (h : Silent (e.encode net w call).reply) :
  e.WithinCapacity net w call capacity
  := by
  constructor
  · rw [Reply.written, h.1]
    apply Nat.zero_le
  · intro _
    rw [h.2]
    apply Nat.zero_le

theorem encodeConnected_written (net : Net σ) (e : SscEncoder) (w : σ) (call : EncodeCall)
    (recovered : Bool) :
  (e.encodeConnected net w call recovered).reply.written ≤ kMaxEncodeBytes
    ∧ (e.encodeConnected net w call recovered).reply.payload.length ≤ kMaxEncodeBytes
  := by
  rcases e.encodeConnected_cases net w call recovered with ⟨ok, heq⟩ | ⟨b, -, -, heq⟩
  · rw [heq]
    exact ⟨Nat.zero_le _, Nat.zero_le _⟩
  · have hexchanged := b.encode_exchanged net call.pcm kFrameSamples e.channels kMaxEncodeBytes w
    rw [heq, Reply.written, finish_events, finish_payload]
    constructor
    · apply hexchanged.written
    · cases hpayload : (b.encode net call.pcm kFrameSamples e.channels kMaxEncodeBytes
          w).payload with
      | none => apply Nat.zero_le
      | some payload => apply hexchanged.payload payload hpayload

/-- A buffer of `kMaxEncodeBytes` bytes is never overrun. -/
theorem withinCapacity_of_le (h : kMaxEncodeBytes ≤ capacity) :
  e.WithinCapacity net w call capacity
  := by
  have hbounds : (e.encode net w call).reply.written ≤ kMaxEncodeBytes
      ∧ (e.encode net w call).reply.payload.length ≤ kMaxEncodeBytes := by
    rcases e.encode_cases net w call with heq | ⟨-, heq⟩ | ⟨-, -, heq⟩ | ⟨-, heq⟩
    · rw [heq]
      exact ⟨Nat.zero_le _, Nat.zero_le _⟩
    · rw [heq]
      apply encodeConnected_written
    · rw [heq]
      apply encodeConnected_written
    · rw [heq]
      exact ⟨Nat.zero_le _, Nat.zero_le _⟩
  constructor
  · apply Nat.le_trans hbounds.1 h
  · intro _
    apply Nat.le_trans hbounds.2 h

/-- An exchange needs a buffer, the PCM of a frame, and channels. -/
theorem encodeConnected_silent {recovered : Bool}
    (h : ¬ (call.outData = true ∧ call.pcm.isSome = true ∧ 0 < e.channels
      ∧ kFrameSamples * e.channels * 4 % 2 ^ 32 ≤ call.pcmBytes)) :
  Silent (e.encodeConnected net w call recovered).reply
  := by
  rw [encodeConnected]
  split
  · exact ⟨rfl, rfl⟩
  · rename_i hbytes
    split
    · exact ⟨rfl, rfl⟩
    · rename_i hout
      cases hbackend : e.backend with
      | none => exact ⟨rfl, rfl⟩
      | some b =>
          dsimp only
          have hnone : b.encode net call.pcm kFrameSamples e.channels kMaxEncodeBytes w
              = ⟨none, [], w⟩ := by
            cases hpcm : call.pcm with
            | none => apply DaemonSscBackend.encode_none
            | some pcm =>
                have hchannels : e.channels = 0 := by
                  by_contra hpos
                  apply h
                  rw [hpcm]
                  exact ⟨Bool.eq_true_of_not_eq_false hout, rfl, Nat.pos_of_ne_zero hpos,
                    Nat.le_of_not_lt hbytes⟩
                rw [DaemonSscBackend.encode.eq_def]
                split
                · split
                  · rfl
                  · rw [if_pos (.inr hchannels)]
                · rfl
          rw [hnone]
          exact ⟨rfl, rfl⟩

theorem recover_channels (net : Net σ) (e : SscEncoder) (w : σ) (now : Nat) :
  (e.recover net w now).encoder.channels = e.channels
  := by
  rw [recover]
  split
  · rfl
  · dsimp only
    cases e.backend <;> rfl

/-- A recovery brings a lost connection back only behind the cooldown and with a backend. -/
theorem connects_of_recover_ok {now : Nat} (hdown : e.isConnected = false)
    (h : (e.recover net w now).ok = true) :
  e.nextRecoveryMs ≤ now ∧ e.backend.isSome = true
  := by
  rw [recover] at h
  split at h
  · rw [hdown] at h
    contradiction
  · rename_i hcooldown
    constructor
    · apply Nat.le_of_not_lt hcooldown
    · dsimp only at h
      cases hbackend : e.backend with
      | none =>
          rw [hbackend] at h
          contradiction
      | some b => rfl

/-- A call that cannot make an exchange makes none. -/
theorem encode_silent (h : ¬ e.CanExchange call) :
  Silent (e.encode net w call).reply
  := by
  rw [encode]
  split
  · exact ⟨rfl, rfl⟩
  · rename_i hinit
    split
    · exact ⟨rfl, rfl⟩
    · rename_i hout
      have hinit : e.initialized = true := Bool.eq_true_of_not_eq_false hinit
      have hout : call.outSize = true := Bool.eq_true_of_not_eq_false hout
      split
      · rename_i hconnected
        apply encodeConnected_silent
        rintro ⟨hdata, hpcm, hchannels, hbytes⟩
        apply h ⟨hinit, hout, hdata, hpcm, hchannels, hbytes, .inl hconnected⟩
      · rename_i hdown
        dsimp only
        split
        · rename_i hok
          apply encodeConnected_silent
          rw [recover_channels]
          rintro ⟨hdata, hpcm, hchannels, hbytes⟩
          have hconnects := connects_of_recover_ok (Bool.eq_false_of_not_eq_true hdown) hok
          apply h ⟨hinit, hout, hdata, hpcm, hchannels, hbytes, .inr hconnects⟩
        · exact ⟨rfl, rfl⟩

theorem encodeConnected_longAnswer {recovered : Bool} (hconnected : e.isConnected = true)
    (hdata : call.outData = true) (hpcm : call.pcm.isSome = true) (hchannels : 0 < e.channels)
    (hbytes : kFrameSamples * e.channels * 4 % 2 ^ 32 ≤ call.pcmBytes) :
  (e.encodeConnected (answeringNet (signed32 (kFrameSamples * e.channels * 4 % 2 ^ 32)))
      longAnswer call recovered).reply.written = kMaxEncodeBytes
  := by
  obtain ⟨pcm, hpcm⟩ := Option.isSome_iff_exists.mp hpcm
  rw [isConnected] at hconnected
  cases hbackend : e.backend with
  | none =>
      rw [hbackend] at hconnected
      contradiction
  | some b =>
      rw [hbackend] at hconnected
      have hlength : kFrameSamples * e.channels * 4 % 2 ^ 32 ≤ pcm.length := by
        rw [call.pcm_length pcm hpcm]
        apply hbytes
      rw [encodeConnected, if_neg (Nat.not_lt_of_le hbytes), hdata, if_neg (by decide), hbackend]
      dsimp only
      rw [Reply.written, finish_events, hpcm,
        DaemonSscBackend.encode_longAnswer hconnected hchannels hlength]
      rfl

/-- A call that can make one may be answered with `kMaxEncodeBytes` bytes. -/
theorem CanExchange.written (h : e.CanExchange call) :
  ∃ taken, (e.encode (answeringNet taken) longAnswer call).reply.written = kMaxEncodeBytes
  := by
  use signed32 (kFrameSamples * e.channels * 4 % 2 ^ 32)
  rw [encode, h.initialized, if_neg (by decide), h.outSize, if_neg (by decide)]
  split
  · rename_i hconnected
    apply encodeConnected_longAnswer hconnected h.outData h.pcm h.channels h.pcmBytes
  · rename_i hdown
    obtain ⟨hcooldown, hbackend⟩ := h.connects.resolve_left hdown
    obtain ⟨b, hb⟩ := Option.isSome_iff_exists.mp hbackend
    obtain ⟨hok, hworld⟩ := DaemonSscBackend.recover_answeringNet
      (signed32 (kFrameSamples * e.channels * 4 % 2 ^ 32)) b longAnswer
    rw [recover, if_neg (Nat.not_lt_of_le hcooldown)]
    dsimp only
    rw [hb]
    dsimp only
    rw [if_pos hok, hworld]
    apply encodeConnected_longAnswer
    · apply DaemonSscBackend.startDaemon_isConnected hok
    · apply h.outData
    · apply h.pcm
    · apply h.channels
    · apply h.pcmBytes

/-- The capacity of the buffer is respected exactly when it is at least `kMaxEncodeBytes`, or
the call cannot make an exchange. -/
theorem respectsCapacity_iff (e : SscEncoder) (call : EncodeCall) (capacity : Nat) :
  e.RespectsCapacity call capacity ↔ kMaxEncodeBytes ≤ capacity ∨ ¬ e.CanExchange call
  := by
  constructor
  · intro hrespects
    by_cases hcan : e.CanExchange call
    · left
      obtain ⟨taken, hwritten⟩ := hcan.written
      have hwithin := (hrespects _ (answeringNet taken) longAnswer).written
      rw [hwritten] at hwithin
      apply hwithin
    · right
      apply hcan
  · intro h σ net w
    rcases h with hle | hcannot
    · apply withinCapacity_of_le hle
    · apply Silent.withinCapacity (encode_silent hcannot)

/-- The buffer of the service is large enough for every answer. -/
theorem respectsCapacity_service (e : SscEncoder) (call : EncodeCall) :
  e.RespectsCapacity call 4096
  := by
  intro σ net w
  apply withinCapacity_of_le
  decide

/-- The buffer of the CLI is not: an answer of 4096 bytes overruns it. -/
theorem not_respectsCapacity_cli :
  ¬ Watched.monoEncoder.RespectsCapacity (silentFrame 6000) 2048
  := by
  intro hrespects
  have hcan : Watched.monoEncoder.CanExchange (silentFrame 6000) :=
    ⟨rfl, rfl, rfl, rfl, by decide, by decide, .inl rfl⟩
  obtain ⟨taken, hwritten⟩ := hcan.written
  have hwithin := (hrespects _ (answeringNet taken) longAnswer).written
  rw [hwritten] at hwithin
  apply absurd hwithin
  decide

end SscEncoder

end Ssc
