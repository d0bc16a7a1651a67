import SscOnWindows.Encoder.SscEncoder

/-!
# The daemon

`service_client` of the daemon reads requests from its socket, hands the PCM of each to the
encoder process it has spawned and writes the answer back, one after the other.  The answers
of that process are a parameter: they may depend on the requests before.

`daemonNet` is the network with this daemon at its other end.  When the bytes of an answer
arrive at the client, how many bytes a send takes, and whether a call succeeds is up to a
schedule.
-/

namespace Ssc

open ByteStream

/-- `CMD_SHUTDOWN`. -/
def cmdShutdown : Nat := 0x44434853

/-- `MAX_FRAME_SAMPLES`. -/
def maxFrameSamples : Nat := 16384

theorem kFrameSamples_pos :
  0 < kFrameSamples
  := by
  decide

/-- The frames of the client are not refused by the daemon. -/
theorem kFrameSamples_le :
  kFrameSamples ≤ maxFrameSamples
  := by
  decide

/-- `MAX_ENCODE_BYTES`. -/
def maxEncodeBytes : Nat := 65536

/-- What the encoder process returns for a frame: a 32-bit result, and as many bytes as it
says when it is positive. -/
structure Answer where
  ret : Int
  payload : List UInt8
  ret_ge : -2 ^ 31 ≤ ret
  ret_lt : ret < 2 ^ 31
  payload_length : 0 < ret → payload.length = ret.toNat

namespace Answer

/-- The result the daemon passes on: a frame above its limit is turned into an empty one. -/
def sentRet (a : Answer) : Int :=
  if a.ret > maxEncodeBytes then 0 else a.ret

/-- The bytes the daemon writes: the result, and the payload when there is one. -/
def bytes (a : Answer) : List UInt8 :=
  le32 (a.sentRet % 2 ^ 32).toNat ++ if a.sentRet > 0 then a.payload else []

theorem payload_length_sent {a : Answer} (h : 0 < a.sentRet) :
  a.payload.length = a.sentRet.toNat
  := by
  rw [sentRet] at h ⊢
  split at h
  · contradiction
  · rename_i hle
    rw [if_neg hle]
    apply a.payload_length h

/-- The client reads the result the daemon has sent. -/
theorem signed32_sentRet (a : Answer) :
  signed32 (ofLe (le32 (a.sentRet % 2 ^ 32).toNat)) = a.sentRet
  := by
  have hge := a.ret_ge
  have hlt := a.ret_lt
  apply signed32_ofLe_le32
  · rw [sentRet]
    split <;> omega
  · rw [sentRet]
    split <;> omega

end Answer

/-- The encoder process: its answer to a frame, given the frames before it. -/
abbrev Helper : Type := List (List UInt8) → List UInt8 → Answer

/-- `service_client`: the bytes it has received and not consumed, the frames it has
served, and whether it has left its loop. -/
structure Client where
  input : List UInt8 := []
  served : List (List UInt8) := []
  closed : Bool := false
  deriving DecidableEq, Repr

namespace Client

/-- The header of the request at the front of the input. -/
def frameSamples (c : Client) : Nat :=
  ofLe (c.input.take 4)

/-- The header makes `service_client` leave its loop. -/
def refuses (c : Client) : Bool :=
  c.frameSamples == cmdShutdown || c.frameSamples == 0 || decide (c.frameSamples > maxFrameSamples)

/-- `pcm32_bytes`. -/
def pcmBytes (c : Client) (channels : Nat) : Nat :=
  c.frameSamples * channels * 4

/-- Serve the requests that have arrived whole.  Every one of them has at least the four
bytes of its header, so that as many rounds as bytes are enough. -/
def serve (helper : Helper) (channels : Nat) : Nat → Client → Client × List UInt8
  | 0, c => (c, [])
  | rounds + 1, c =>
      if c.closed || decide (c.input.length < 4) then (c, [])
      else if c.refuses then ({ c with closed := true }, [])
      else if c.input.length < 4 + c.pcmBytes channels then (c, [])
      else
        let pcm := (c.input.drop 4).take (c.pcmBytes channels)
        let rest := serve helper channels rounds
          { c with
            input := c.input.drop (4 + c.pcmBytes channels)
            served := c.served ++ [pcm] }
        (rest.1, (helper c.served pcm).bytes ++ rest.2)

/-- `bytes` arrive at the daemon. -/
def receive (helper : Helper) (channels : Nat) (c : Client) (bytes : List UInt8) :
    Client × List UInt8 :=
  serve helper channels (c.input.length + bytes.length) { c with input := c.input ++ bytes }

/-- The daemon waits for more bytes, or has left its loop. -/
def Waits (channels : Nat) (c : Client) : Prop :=
  c.closed = true ∨ c.input.length < 4
    ∨ (c.refuses = false ∧ c.input.length < 4 + c.pcmBytes channels)

/-- The daemon serves every request that has arrived. -/
theorem serve_waits {helper : Helper} {channels : Nat} :
    ∀ {rounds : Nat} {c : Client}, c.input.length ≤ rounds →
      Waits channels (serve helper channels rounds c).1
  | 0, c, h => by
      right
      left
      change c.input.length < 4
      omega
  | rounds + 1, c, h => by
      rw [serve]
      split
      · rename_i hstop
        rw [Bool.or_eq_true, decide_eq_true_eq] at hstop
        cases hstop with
        | inl hclosed => exact .inl hclosed
        | inr hshort => exact .inr (.inl hshort)
      · split
        · exact .inl rfl
        · rename_i hrefuses
          split
          · rename_i hshort
            exact .inr (.inr ⟨Bool.eq_false_of_not_eq_true hrefuses, hshort⟩)
          · apply serve_waits
            simp only [List.length_drop]
            omega

/-- The header at the front of the input is the one that was sent. -/
theorem frameSamples_eq {frames : Nat} {c : Client} {rest : List UInt8}
    (hinput : c.input = le32 frames ++ rest) (hframes : frames ≤ maxFrameSamples) :
  c.frameSamples = frames
  := by
  rw [frameSamples, hinput, List.take_left' (length_le32 frames), ofLe_le32]
  apply Nat.mod_eq_of_lt
  rw [maxFrameSamples] at hframes
  omega

/-- A header within the limits is not refused. -/
theorem refuses_eq_false {frames : Nat} {c : Client} {rest : List UInt8}
    (hinput : c.input = le32 frames ++ rest) (hpos : 0 < frames)
    (hframes : frames ≤ maxFrameSamples) :
  c.refuses = false
  := by
  have hlt : frames < cmdShutdown := lt_of_le_of_lt hframes (by decide)
  simp only [refuses, frameSamples_eq hinput hframes, Bool.or_eq_false_iff, beq_eq_false_iff_ne,
    decide_eq_false_iff_not]
  omega

/-- There is nothing to serve without input. -/
theorem serve_nil {helper : Helper} {channels rounds : Nat} {c : Client} (hinput : c.input = []) :
  serve helper channels rounds c = (c, [])
  := by
  cases rounds with
  | zero => rfl
  | succ rounds => simp [serve, hinput]

/-- A header alone is kept until the PCM arrives. -/
theorem receive_header (helper : Helper) {channels frames : Nat} (served : List (List UInt8))
    (hpos : 0 < frames) (hchannels : 0 < channels) (hframes : frames ≤ maxFrameSamples) :
  receive helper channels ⟨[], served, false⟩ (le32 frames) = (⟨le32 frames, served, false⟩, [])
  := by
  have hfront : (⟨le32 frames, served, false⟩ : Client).input = le32 frames ++ [] := by simp
  have hmore : 0 < frames * channels := Nat.mul_pos hpos hchannels
  rw [receive, List.nil_append, List.length_nil, Nat.zero_add, length_le32, serve]
  rw [if_neg (by simp), if_neg (by simp [refuses_eq_false hfront hpos hframes]), if_pos]
  rw [pcmBytes, frameSamples_eq hfront hframes, length_le32]
  omega

/-- The PCM behind a header completes the request. -/
theorem receive_pcm (helper : Helper) {channels frames : Nat} (served : List (List UInt8))
    {pcm : List UInt8} (hpos : 0 < frames) (hframes : frames ≤ maxFrameSamples)
    (hpcm : pcm.length = frames * channels * 4) :
  receive helper channels ⟨le32 frames, served, false⟩ pcm
    = (⟨[], served ++ [pcm], false⟩, (helper served pcm).bytes)
  := by
  have hfront : (⟨le32 frames ++ pcm, served, false⟩ : Client).input = le32 frames ++ pcm := rfl
  have hbytes : (⟨le32 frames ++ pcm, served, false⟩ : Client).pcmBytes channels = pcm.length := by
    rw [pcmBytes, frameSamples_eq hfront hframes, hpcm]
  have hrounds : (le32 frames).length + pcm.length = (3 + pcm.length) + 1 := by
    rw [length_le32]
    omega
  have hdrop : (le32 frames ++ pcm).drop (4 + pcm.length) = [] := by
    apply List.drop_eq_nil_of_le
    rw [List.length_append, length_le32]
  have htake : ((le32 frames ++ pcm).drop 4).take pcm.length = pcm := by
    rw [List.drop_left' (length_le32 frames), List.take_length]
  rw [receive, hrounds, serve]
  rw [if_neg (by simp), if_neg (by simp [refuses_eq_false hfront hpos hframes]),
    if_neg (by rw [hbytes]; simp)]
  simp only [hbytes, hdrop, htake]
  rw [serve_nil rfl, List.append_nil]

end Client

/-! ### The network with the daemon -/

/-- What the schedule decides, for every call in the order they are made: whether it
succeeds, how many bytes a send takes, and how many bytes of the answers have arrived at a
read. -/
structure Schedule where
  works : Nat → Bool
  taken : Nat → Nat
  arrived : Nat → Nat

/-- The daemon with the connection to it: the bytes it has written that the client has not
read, and the number of calls made. -/
structure DaemonWorld where
  channels : Nat := 0
  client : Client := {}
  inbound : List UInt8 := []
  calls : Nat := 0
  deriving DecidableEq, Repr

namespace DaemonWorld

/-- One more call. -/
def tick (w : DaemonWorld) : DaemonWorld :=
  { w with calls := w.calls + 1 }

/-- A daemon is started: it has a new connection. -/
def restart (w : DaemonWorld) (channels : Nat) : DaemonWorld where
  channels := channels
  client := {}
  inbound := []
  calls := w.calls + 1

/-- `bytes` are sent to the daemon, which writes its answers. -/
def deliver (helper : Helper) (w : DaemonWorld) (bytes : List UInt8) : DaemonWorld :=
  let r := w.client.receive helper w.channels bytes
  { w with
    client := r.1
    inbound := w.inbound ++ r.2
    calls := w.calls + 1 }

/-- A send takes as many bytes as the schedule says. -/
def send (helper : Helper) (schedule : Schedule) (w : DaemonWorld) (bytes : List UInt8) :
    Int × DaemonWorld :=
  ((bytes.take (schedule.taken w.calls)).length,
    w.deliver helper (bytes.take (schedule.taken w.calls)))

/-- A read delivers the bytes that have arrived, up to the number asked for. -/
def recv (schedule : Schedule) (w : DaemonWorld) (need : Nat) : List UInt8 × DaemonWorld :=
  (w.inbound.take (min need (schedule.arrived w.calls)),
    { w with
      inbound := w.inbound.drop (min need (schedule.arrived w.calls))
      calls := w.calls + 1 })

/-- The connection is at the beginning of a request: there is nothing to be read or to be
served. -/
structure Idle (channels : Nat) (w : DaemonWorld) : Prop where
  channels_eq : w.channels = channels
  input_eq : w.client.input = []
  opened : w.client.closed = false
  inbound_eq : w.inbound = []

/-- The connection is new. -/
structure Fresh (channels : Nat) (w : DaemonWorld) : Prop extends Idle channels w where
  served_eq : w.client.served = []

/-- The header of a request has been delivered, behind the frames `served`. -/
structure HeaderSent (channels frames : Nat) (served : List (List UInt8)) (w : DaemonWorld) :
    Prop where
  channels_eq : w.channels = channels
  client_eq : w.client = ⟨le32 frames, served, false⟩
  inbound_eq : w.inbound = []

/-- The PCM of a request has been delivered and its answer written. -/
structure Requested (channels : Nat) (a : Answer) (served : List (List UInt8))
    (w : DaemonWorld) : Prop where
  channels_eq : w.channels = channels
  client_eq : w.client = ⟨[], served, false⟩
  inbound_eq : w.inbound = a.bytes

theorem Idle.client_eq {channels : Nat} {w : DaemonWorld} (h : w.Idle channels) :
  w.client = ⟨[], w.client.served, false⟩
  := by
  rw [← h.input_eq, ← h.opened]

theorem Idle.deliver_header (helper : Helper) {channels frames : Nat} {w : DaemonWorld}
    (h : w.Idle channels) (hpos : 0 < frames) (hchannels : 0 < channels)
    (hframes : frames ≤ maxFrameSamples) :
  (w.deliver helper (le32 frames)).HeaderSent channels frames w.client.served
  := by
  have hreceive := Client.receive_header helper w.client.served hpos hchannels hframes
  rw [← h.client_eq, ← h.channels_eq] at hreceive
  constructor
  · apply h.channels_eq
  · rw [deliver, hreceive]
  · rw [deliver, hreceive, h.inbound_eq]
    rfl

theorem HeaderSent.deliver_pcm (helper : Helper) {channels frames : Nat}
    {served : List (List UInt8)} {w : DaemonWorld} {pcm : List UInt8}
    (h : w.HeaderSent channels frames served) (hpos : 0 < frames)
    (hframes : frames ≤ maxFrameSamples) (hpcm : pcm.length = frames * channels * 4) :
  (w.deliver helper pcm).Requested channels (helper served pcm) (served ++ [pcm])
  := by
  have hreceive := Client.receive_pcm helper served hpos hframes hpcm
  rw [← h.client_eq, ← h.channels_eq] at hreceive
  constructor
  · apply h.channels_eq
  · rw [deliver, hreceive]
  · rw [deliver, hreceive, h.inbound_eq]
    rfl

theorem Fresh.tick {channels : Nat} {w : DaemonWorld} (h : w.Fresh channels) :
  w.tick.Fresh channels
  := { h with }

theorem restart_fresh (w : DaemonWorld) (channels : Nat) :
  (w.restart channels).Fresh channels
  := ⟨⟨rfl, rfl, rfl, rfl⟩, rfl⟩

/-- A send that takes all its bytes delivers them. -/
theorem send_eq_deliver {helper : Helper} (schedule : Schedule) (w : DaemonWorld)
    {bytes : List UInt8} (h : (w.send helper schedule bytes).1 = bytes.length) :
  (w.send helper schedule bytes).2 = w.deliver helper bytes
  := by
  rw [send] at h ⊢
  rw [Nat.cast_inj, List.length_take] at h
  rw [List.take_of_length_le (by omega)]

/-- Reads take the bytes of the answers from their front. -/
theorem recv_delivers (schedule : Schedule) :
  Delivers (recv schedule) inbound
  := by
  intro w need
  constructor
  · rw [recv, List.length_take]
    apply (min_le_left _ _).trans (min_le_left _ _)
  · apply (List.take_append_drop _ _).symm

end DaemonWorld

/-- The network with the daemon at its other end. -/
def daemonNet (helper : Helper) (schedule : Schedule) : Net DaemonWorld where
  wsaStartup w := (schedule.works w.calls, w.tick)
  startNativeDaemon w _ channels _ := (schedule.works w.calls, w.restart channels)
  startWslDaemon w _ channels _ := w.restart channels
  hostIp w := (if schedule.works w.calls then "172.20.0.2" else "", w.tick)
  socket w := (schedule.works w.calls, w.tick)
  inetPton _ := true
  connect w _ := (schedule.works w.calls, w.tick)
  closesocket w _ := w.tick
  send w _ bytes := w.send helper schedule bytes
  recv w _ need := w.recv schedule need

/-- A daemon that is started has a new connection. -/
theorem startDaemon_fresh {helper : Helper} {schedule : Schedule} {b : DaemonSscBackend}
    {w : DaemonWorld} (h : (b.startDaemon (daemonNet helper schedule) w).ok = true) :
  (b.startDaemon (daemonNet helper schedule) w).world.Fresh b.channels
  := by
  rw [DaemonSscBackend.startDaemon] at h ⊢
  dsimp only at h ⊢
  split at h
  · contradiction
  · rename_i hwsa
    rw [if_neg hwsa]
    split at h
    · rename_i hnative
      rw [if_pos hnative]
      split at h
      · contradiction
      · rename_i hspawned
        rw [if_neg hspawned]
        apply DaemonSscBackend.connectLoop_preserves (I := DaemonWorld.Fresh b.channels)
        · intro w hw
          apply hw.tick
        · intro w s hw
          apply hw.tick
        · intro w s hw
          apply hw.tick
        · apply DaemonWorld.restart_fresh
    · rename_i hnative
      rw [if_neg hnative]
      split at h
      · contradiction
      · rename_i hhost
        rw [if_neg hhost]
        apply DaemonSscBackend.connectLoop_preserves (I := DaemonWorld.Fresh b.channels)
        · intro w hw
          apply hw.tick
        · intro w s hw
          apply hw.tick
        · intro w s hw
          apply hw.tick
        · apply (DaemonWorld.restart_fresh _ _).tick

end Ssc
