import SscOnWindows.Lib.ByteStream

/-!
# The daemon backend

`DaemonSscBackend` starts a daemon, connects to it and exchanges one request and one
answer with it for every frame.  What the operating system, the network and the daemon
answer to its calls is a parameter: `Net σ` is a world with a state `σ` and one function
for each of these calls.

Sockets are numbered in the order in which they are made.
-/

namespace Ssc

open ByteStream

/-- The calls of `DaemonSscBackend` that leave the program, with what they return. -/
structure Net (σ : Type*) where
  wsaStartup : σ → Bool × σ
  startNativeDaemon : σ → Nat → Nat → Nat → Bool × σ
  startWslDaemon : σ → Nat → Nat → Nat → σ
  hostIp : σ → String × σ
  socket : σ → Bool × σ
  inetPton : String → Bool
  connect : σ → Nat → Bool × σ
  closesocket : σ → Nat → σ
  send : σ → Nat → List UInt8 → Int × σ
  recv : σ → Nat → Nat → List UInt8 × σ

/-- `kFrameSamples`. -/
def kFrameSamples : Nat := 864

/-- `kMaxEncodeBytes`. -/
def kMaxEncodeBytes : Nat := 4096

/-- The number of times `start_daemon` tries to connect. -/
def connectAttempts : Nat := 20

/-- The fields of `DaemonSscBackend`, with the number of sockets it has made. -/
structure DaemonSscBackend where
  native : Bool
  connected : Bool := false
  sampleRate : Nat := 48000
  channels : Nat := 2
  bitrateBps : Nat := 229000
  sock : Option Nat := none
  sockets : Nat := 0
  deriving DecidableEq, Repr

/-- What a call on a socket returned: `send` the number of bytes it took of those it was
given, `recv` the number of bytes it delivered. -/
inductive SocketEvent where
  | sent (sock : Nat) (taken size : Int)
  | received (sock : Nat) (count : Nat)
  deriving DecidableEq, Repr

/-- The call did not fall short: `send` took all its bytes, `recv` delivered some. -/
def SocketEvent.sound : SocketEvent → Bool
  | .sent _ taken size => taken == size
  | .received _ count => count != 0

/-- The outcome of an exchange: the payload when it succeeds, the calls made on the socket,
and the world. -/
structure Exchange (σ : Type*) where
  payload : Option (List UInt8)
  events : List SocketEvent
  world : σ

/-- The outcome of starting the daemon. -/
structure Started (σ : Type*) where
  ok : Bool
  backend : DaemonSscBackend
  world : σ

namespace DaemonSscBackend

variable {σ : Type*}

/-- `connected()`. -/
def isConnected (b : DaemonSscBackend) : Bool :=
  b.connected && b.sock.isSome

/-- `closesocket(sock_)` for a valid socket. -/
def closeSocket (net : Net σ) (b : DaemonSscBackend) (w : σ) : σ :=
  match b.sock with
  | none => w
  | some s => net.closesocket w s

/-- The loop of `start_daemon` that connects to the daemon at `ip`. -/
def connectLoop (net : Net σ) (ip : String) : Nat → DaemonSscBackend → σ → Started σ
  | 0, b, w => ⟨false, b, w⟩
  | attempts + 1, b, w =>
      let made := net.socket w
      if made.1 = false then ⟨false, { b with sock := none }, made.2⟩
      else
        let s := b.sockets
        let b := { b with sock := some s, sockets := b.sockets + 1 }
        if net.inetPton ip = false then
          ⟨false, { b with sock := none }, net.closesocket made.2 s⟩
        else
          let answer := net.connect made.2 s
          if answer.1 then ⟨true, { b with connected := true }, answer.2⟩
          else
            connectLoop net ip attempts { b with sock := none } (net.closesocket answer.2 s)

/-- `start_daemon`. -/
def startDaemon (net : Net σ) (b : DaemonSscBackend) (w : σ) : Started σ :=
  let wsa := net.wsaStartup w
  if wsa.1 = false then ⟨false, b, wsa.2⟩
  else
    let w := b.closeSocket net wsa.2
    let b := { b with sock := none }
    if b.native then
      let spawned := net.startNativeDaemon w b.sampleRate b.channels b.bitrateBps
      if spawned.1 = false then ⟨false, b, spawned.2⟩
      else connectLoop net "127.0.0.1" connectAttempts b spawned.2
    else
      let host := net.hostIp (net.startWslDaemon w b.sampleRate b.channels b.bitrateBps)
      if host.1 = "" then ⟨false, b, host.2⟩
      else connectLoop net host.1 connectAttempts b host.2

/-- `init`. -/
def init (net : Net σ) (b : DaemonSscBackend) (w : σ) (sampleRate channels bitrateBps : Nat) :
    Started σ :=
  { b with sampleRate := sampleRate, channels := channels, bitrateBps := bitrateBps }.startDaemon
    net w

/-- `recover`. -/
def recover (net : Net σ) (b : DaemonSscBackend) (w : σ) : Started σ :=
  { b with connected := false, sock := none }.startDaemon net (b.closeSocket net w)

/-- The end of `encode`, behind the four bytes of the result. -/
def receivePayload (net : Net σ) (sock outCap : Nat) (events : List SocketEvent) (ret : Int)
    (w : σ) : Exchange σ :=
  if ret ≤ 0 ∨ ret > kMaxEncodeBytes then ⟨none, events, w⟩
  else if ret.toNat > outCap then ⟨none, events, w⟩
  else
    let payload := readFull (fun w need => net.recv w sock need) ret.toNat w
    ⟨payload.bytes, events ++ payload.counts.map (.received sock), payload.world⟩

/-- The middle of `encode`, behind the two sends: the result is received. -/
def receiveResult (net : Net σ) (sock outCap : Nat) (events : List SocketEvent) (w : σ) :
    Exchange σ :=
  let result := readFull (fun w need => net.recv w sock need) 4 w
  let events := events ++ result.counts.map (.received sock)
  match result.bytes with
  | none => ⟨none, events, result.world⟩
  | some bytes => receivePayload net sock outCap events (signed32 (ofLe bytes)) result.world

/-- The exchange `encode` makes on a socket: the frame count and the PCM are sent, the
result and the payload received. -/
def exchange (net : Net σ) (sock frames expectBytes outCap : Nat) (pcm : List UInt8) (w : σ) :
    Exchange σ :=
  let header := net.send w sock (le32 frames)
  let events := [SocketEvent.sent sock header.1 4]
  if header.1 ≠ 4 then ⟨none, events, header.2⟩
  else
    let body := net.send header.2 sock (pcm.take expectBytes)
    let events := events ++ [.sent sock body.1 (signed32 expectBytes)]
    if body.1 ≠ signed32 expectBytes then ⟨none, events, body.2⟩
    else receiveResult net sock outCap events body.2

/-- `encode`.  It does not change the backend. -/
def encode (net : Net σ) (b : DaemonSscBackend) (pcm : Option (List UInt8))
    (frames channels outCap : Nat) (w : σ) : Exchange σ :=
  match b.sock, pcm with
  | some s, some pcm =>
      if b.connected = false then ⟨none, [], w⟩
      else if frames = 0 ∨ channels = 0 then ⟨none, [], w⟩
      else exchange net s frames (frames * channels * 4 % 2 ^ 32) outCap pcm w
  | _, _ => ⟨none, [], w⟩

/-! ### Connections -/

/-- The loop succeeds with a connected backend. -/
theorem connectLoop_isConnected {net : Net σ} {ip : String} :
    ∀ {attempts : Nat} {b : DaemonSscBackend} {w : σ}, (connectLoop net ip attempts b w).ok = true →
      (connectLoop net ip attempts b w).backend.isConnected = true
  | 0, b, w, h => by
      simp [connectLoop] at h
  | attempts + 1, b, w, h => by
      rw [connectLoop] at h ⊢
      dsimp only at h ⊢
      split at h
      · contradiction
      · rename_i hmade
        rw [if_neg hmade]
        split at h
        · contradiction
        · rename_i hip
          rw [if_neg hip]
          split at h
          · rename_i hanswer
            rw [if_pos hanswer]
            rfl
          · rename_i hanswer
            rw [if_neg hanswer]
            apply connectLoop_isConnected h

/-- A daemon that is started is connected to. -/
theorem startDaemon_isConnected {net : Net σ} {b : DaemonSscBackend} {w : σ}
    (h : (b.startDaemon net w).ok = true) :
  (b.startDaemon net w).backend.isConnected = true
  := by
  rw [startDaemon] at h ⊢
  dsimp only at h ⊢
  split at h
  · contradiction
  · rename_i hwsa
    rw [if_neg hwsa]
    split at h
    · rename_i hnative
      rw [if_pos hnative]
      split at h
      · contradiction
      · rename_i hspawned
        rw [if_neg hspawned]
        apply connectLoop_isConnected h
    · rename_i hnative
      rw [if_neg hnative]
      split at h
      · contradiction
      · rename_i hhost
        rw [if_neg hhost]
        apply connectLoop_isConnected h

/-- A loop that fails does not connect the backend. -/
theorem connectLoop_connected {net : Net σ} {ip : String} :
    ∀ {attempts : Nat} {b : DaemonSscBackend} {w : σ},
      (connectLoop net ip attempts b w).ok = false →
        (connectLoop net ip attempts b w).backend.connected = b.connected
  | 0, b, w, h => rfl
  | attempts + 1, b, w, h => by
      rw [connectLoop] at h ⊢
      dsimp only at h ⊢
      split at h
      · rename_i hmade
        rw [if_pos hmade]
      · rename_i hmade
        rw [if_neg hmade]
        split at h
        · rename_i hip
          rw [if_pos hip]
        · rename_i hip
          rw [if_neg hip]
          split at h
          · contradiction
          · rename_i hanswer
            rw [if_neg hanswer]
            apply connectLoop_connected h

theorem startDaemon_connected {net : Net σ} {b : DaemonSscBackend} {w : σ}
    (h : (b.startDaemon net w).ok = false) :
  (b.startDaemon net w).backend.connected = b.connected
  := by
  rw [startDaemon] at h ⊢
  dsimp only at h ⊢
  split at h
  · rename_i hwsa
    rw [if_pos hwsa]
  · rename_i hwsa
    rw [if_neg hwsa]
    split at h
    · rename_i hnative
      rw [if_pos hnative]
      split at h
      · rename_i hspawned
        rw [if_pos hspawned]
      · rename_i hspawned
        rw [if_neg hspawned]
        apply connectLoop_connected h
    · rename_i hnative
      rw [if_neg hnative]
      split at h
      · rename_i hhost
        rw [if_pos hhost]
      · rename_i hhost
        rw [if_neg hhost]
        apply connectLoop_connected h

/-- A backend that could not be restarted is not connected. -/
theorem recover_not_isConnected {net : Net σ} {b : DaemonSscBackend} {w : σ}
    (h : (b.recover net w).ok = false) :
  (b.recover net w).backend.isConnected = false
  := by
  rw [isConnected, recover, startDaemon_connected h]
  rfl

/-- The loop changes the connection of the backend only. -/
theorem connectLoop_backend {net : Net σ} {ip : String} :
    ∀ {attempts : Nat} {b : DaemonSscBackend} {w : σ}, ∃ connected sock sockets,
      (connectLoop net ip attempts b w).backend
        = { b with connected := connected, sock := sock, sockets := sockets }
  | 0, b, w => ⟨b.connected, b.sock, b.sockets, rfl⟩
  | attempts + 1, b, w => by
      rw [connectLoop]
      dsimp only
      split
      · use b.connected, none, b.sockets
      · split
        · use b.connected, none, b.sockets + 1
        · split
          · use true, some b.sockets, b.sockets + 1
          · apply connectLoop_backend

/-- Starting the daemon changes the connection of the backend only. -/
theorem startDaemon_backend (net : Net σ) (b : DaemonSscBackend) (w : σ) :
  ∃ connected sock sockets, (b.startDaemon net w).backend
    = { b with connected := connected, sock := sock, sockets := sockets }
  := by
  rw [startDaemon]
  dsimp only
  split
  · use b.connected, b.sock, b.sockets
  · split
    · split
      · use b.connected, none, b.sockets
      · apply connectLoop_backend
    · split
      · use b.connected, none, b.sockets
      · apply connectLoop_backend

/-- The daemon is started for the channels the backend keeps. -/
theorem startDaemon_channels {net : Net σ} {b : DaemonSscBackend} {w : σ} :
  (b.startDaemon net w).backend.channels = b.channels
  := by
  obtain ⟨connected, sock, sockets, h⟩ := b.startDaemon_backend net w
  rw [h]

/-- The daemon is started for the bitrate the backend keeps. -/
theorem startDaemon_bitrateBps {net : Net σ} {b : DaemonSscBackend} {w : σ} :
  (b.startDaemon net w).backend.bitrateBps = b.bitrateBps
  := by
  obtain ⟨connected, sock, sockets, h⟩ := b.startDaemon_backend net w
  rw [h]

/-- What the calls of the loop preserve is preserved by the loop. -/
theorem connectLoop_preserves {net : Net σ} {ip : String} {I : σ → Prop}
    (hsocket : ∀ w, I w → I (net.socket w).2) (hconnect : ∀ w s, I w → I (net.connect w s).2)
    (hclose : ∀ w s, I w → I (net.closesocket w s)) :
    ∀ {attempts : Nat} {b : DaemonSscBackend} {w : σ}, I w →
      I (connectLoop net ip attempts b w).world
  | 0, _, _, h => h
  | attempts + 1, b, w, h => by
      rw [connectLoop]
      dsimp only
      split
      · apply hsocket w h
      · split
        · apply hclose _ _ (hsocket w h)
        · split
          · apply hconnect _ _ (hsocket w h)
          · apply connectLoop_preserves hsocket hconnect hclose
            apply hclose _ _ (hconnect _ _ (hsocket w h))

/-! ### Exchanges -/

/-- The backend makes calls on its socket only when it is connected. -/
theorem isConnected_of_event {net : Net σ} {b : DaemonSscBackend} {pcm : Option (List UInt8)}
    {frames channels outCap : Nat} {w : σ} {event : SocketEvent}
    (h : event ∈ (b.encode net pcm frames channels outCap w).events) :
  b.isConnected = true
  := by
  rw [encode.eq_def] at h
  split at h
  · rename_i s _ hsock
    split at h
    · contradiction
    · rename_i hconnected
      rw [isConnected, hsock, Option.isSome_some, Bool.and_true]
      apply Bool.eq_true_of_not_eq_false hconnected
  · contradiction

/-- The reads of bytes that arrive do not fall short. -/
theorem readFull_sound {recv : σ → Nat → List UInt8 × σ} {need sock : Nat} {w : σ}
    {bytes : List UInt8} (h : (readFull recv need w).bytes = some bytes) :
  ∀ e ∈ (readFull recv need w).counts.map (SocketEvent.received sock), e.sound = true
  := by
  have hcounts : 0 ∉ (readFull recv need w).counts := by
    rw [← readFull_eq_none_iff, h]
    simp
  intro e he
  obtain ⟨count, hcount, rfl⟩ := List.mem_map.mp he
  rw [SocketEvent.sound, bne_iff_ne]
  rintro rfl
  contradiction

/-- A connected backend makes an exchange for every frame it is given. -/
theorem encode_of_isConnected (net : Net σ) {b : DaemonSscBackend} (pcm : List UInt8)
    {frames channels : Nat} (outCap : Nat) (w : σ) (h : b.isConnected = true) (hframes : 0 < frames)
    (hchannels : 0 < channels) :
  ∃ sock, b.encode net (some pcm) frames channels outCap w
    = exchange net sock frames (frames * channels * 4 % 2 ^ 32) outCap pcm w
  := by
  rw [isConnected, Bool.and_eq_true] at h
  obtain ⟨sock, hsock⟩ := Option.isSome_iff_exists.mp h.2
  use sock
  simp only [encode, hsock]
  rw [if_neg (by simp [h.1]), if_neg (by omega)]

theorem encode_none {net : Net σ} {b : DaemonSscBackend} {frames channels outCap : Nat} {w : σ} :
  b.encode net none frames channels outCap w = ⟨none, [], w⟩
  := by
  rw [encode.eq_def]
  split
  · contradiction
  · rfl

theorem receiveResult_of_none {net : Net σ} {sock outCap : Nat} {events : List SocketEvent} {w : σ}
    (h : (readFull (fun w need => net.recv w sock need) 4 w).bytes = none) :
  receiveResult net sock outCap events w
    = ⟨none, events ++ (readFull (fun w need => net.recv w sock need) 4 w).counts.map
        (.received sock), (readFull (fun w need => net.recv w sock need) 4 w).world⟩
  := by
  simp only [receiveResult, h]

theorem receiveResult_of_some {net : Net σ} {sock outCap : Nat} {events : List SocketEvent} {w : σ}
    {bytes : List UInt8}
    (h : (readFull (fun w need => net.recv w sock need) 4 w).bytes = some bytes) :
  receiveResult net sock outCap events w
    = receivePayload net sock outCap
        (events ++ (readFull (fun w need => net.recv w sock need) 4 w).counts.map (.received sock))
        (signed32 (ofLe bytes)) (readFull (fun w need => net.recv w sock need) 4 w).world
  := by
  simp only [receiveResult, h]

theorem receivePayload_events {net : Net σ} {sock outCap : Nat} {events : List SocketEvent}
    {ret : Int} {w : σ} :
  events <+: (receivePayload net sock outCap events ret w).events
  := by
  rw [receivePayload]
  split
  · apply List.prefix_rfl
  · split
    · apply List.prefix_rfl
    · apply List.prefix_append

theorem receiveResult_events {net : Net σ} {sock outCap : Nat} {events : List SocketEvent}
    {w : σ} :
  events <+: (receiveResult net sock outCap events w).events
  := by
  cases hbytes : (readFull (fun w need => net.recv w sock need) 4 w).bytes with
  | none =>
      rw [receiveResult_of_none hbytes]
      apply List.prefix_append
  | some bytes =>
      rw [receiveResult_of_some hbytes]
      apply (List.prefix_append _ _).trans receivePayload_events

/-- Every exchange begins with a send. -/
theorem exchange_events_ne_nil {net : Net σ} {sock frames expectBytes outCap : Nat}
    {pcm : List UInt8} {w : σ} :
  (exchange net sock frames expectBytes outCap pcm w).events ≠ []
  := by
  rw [exchange]
  dsimp only
  split
  · apply List.cons_ne_nil
  · split
    · apply List.cons_ne_nil
    · apply List.IsPrefix.ne_nil receiveResult_events
      apply List.cons_ne_nil

/-- Reads that do not fall short return the bytes. -/
theorem readFull_bytes_of_sound {recv : σ → Nat → List UInt8 × σ} {need sock : Nat} {w : σ}
    (h : ∀ e ∈ (readFull recv need w).counts.map (SocketEvent.received sock), e.sound = true) :
  ∃ bytes, (readFull recv need w).bytes = some bytes
  := by
  cases hbytes : (readFull recv need w).bytes with
  | none =>
      have hzero := readFull_eq_none_iff.mp hbytes
      have hsound := h _ (List.mem_map.mpr ⟨0, hzero, rfl⟩)
      contradiction
  | some bytes =>
      use bytes

theorem receivePayload_sound {net : Net σ} {sock outCap : Nat} {events : List SocketEvent}
    {ret : Int} {w : σ} {payload : List UInt8} (hevents : ∀ e ∈ events, e.sound = true)
    (h : (receivePayload net sock outCap events ret w).payload = some payload) :
  ∀ e ∈ (receivePayload net sock outCap events ret w).events, e.sound = true
  := by
  rw [receivePayload] at h ⊢
  split at h
  · contradiction
  · rename_i hret
    rw [if_neg hret]
    split at h
    · contradiction
    · rename_i hcap
      rw [if_neg hcap]
      intro e he
      rcases List.mem_append.mp he with he | he
      · apply hevents e he
      · apply readFull_sound h e he

theorem receiveResult_sound {net : Net σ} {sock outCap : Nat} {events : List SocketEvent}
    {w : σ} {payload : List UInt8} (hevents : ∀ e ∈ events, e.sound = true)
    (h : (receiveResult net sock outCap events w).payload = some payload) :
  ∀ e ∈ (receiveResult net sock outCap events w).events, e.sound = true
  := by
  cases hbytes : (readFull (fun w need => net.recv w sock need) 4 w).bytes with
  | none =>
      rw [receiveResult_of_none hbytes] at h
      contradiction
  | some bytes =>
      rw [receiveResult_of_some hbytes] at h ⊢
      apply receivePayload_sound _ h
      intro e he
      rcases List.mem_append.mp he with he | he
      · apply hevents e he
      · apply readFull_sound hbytes e he

/-- In an exchange that succeeds no call on the socket falls short. -/
theorem exchange_sound {net : Net σ} {sock frames expectBytes outCap : Nat} {pcm : List UInt8}
    {w : σ} {payload : List UInt8}
    (h : (exchange net sock frames expectBytes outCap pcm w).payload = some payload) :
  ∀ e ∈ (exchange net sock frames expectBytes outCap pcm w).events, e.sound = true
  := by
  rw [exchange] at h ⊢
  dsimp only at h ⊢
  split at h
  · contradiction
  · rename_i hheader
    rw [if_neg hheader]
    split at h
    · contradiction
    · rename_i hbody
      rw [if_neg hbody]
      apply receiveResult_sound _ h
      rw [not_not] at hheader hbody
      intro e he
      rcases List.mem_append.mp he with he | he
      · rw [List.mem_singleton.mp he, hheader]
        rfl
      · rw [List.mem_singleton.mp he, hbody]
        apply beq_self_eq_true

theorem encode_sound {net : Net σ} {b : DaemonSscBackend} {pcm : Option (List UInt8)}
    {frames channels outCap : Nat} {w : σ} {payload : List UInt8}
    (h : (b.encode net pcm frames channels outCap w).payload = some payload) :
  ∀ e ∈ (b.encode net pcm frames channels outCap w).events, e.sound = true
  := by
  rw [encode.eq_def] at h ⊢
  split at h
  · split at h
    · contradiction
    · rename_i hconnected
      rw [if_neg hconnected]
      split at h
      · contradiction
      · rename_i hframes
        rw [if_neg hframes]
        apply exchange_sound h
  · contradiction

end DaemonSscBackend

end Ssc
