import SscOnWindows.Encoder.Daemon
import SscOnWindows.Lib.ByteNetwork
import SscOnWindows.Lib.Machine

/-!
# The wire protocol

The three ends of the protocol as programs: `DaemonSscBackend::encode`, the loop of
`service_client` in the daemon, and the loop of the helper that runs the encoder.  They are
connected by a socket and by two pipes, each of which moves any part of the bytes at a time.

What the helper's encoder returns is a parameter, as in the daemon.  The calls of `encode`
follow each other: the next one is made when the last one has returned.
-/

namespace Ssc

open ByteStream ByteNetwork

/-- `MAX_FRAME_SAMPLES` of the helper. -/
def helperMaxFrameSamples : Nat := 8192

/-- `MAX_ENCODE_BYTES` of the helper. -/
def helperMaxEncodeBytes : Nat := 4096

/-- The channels the three programs are started for, the size of the frames, and the room
for an answer. -/
structure WireConfig where
  channels : Nat
  frames : Nat
  outCap : Nat
  channels_eq : channels = 1 ∨ channels = 2
  frames_pos : 0 < frames
  frames_le : frames ≤ helperMaxFrameSamples
  outCap_ge : kMaxEncodeBytes ≤ outCap

/-- The bytes of a frame. -/
def WireConfig.pcmBytes (cfg : WireConfig) : Nat :=
  cfg.frames * cfg.channels * 4

/-- The bytes of a frame are counted without overflow. -/
theorem WireConfig.pcmBytes_le (cfg : WireConfig) :
  cfg.pcmBytes ≤ 2 ^ 16
  := by
  have hframes : cfg.frames ≤ 8192 := cfg.frames_le
  rw [WireConfig.pcmBytes]
  cases cfg.channels_eq with
  | inl h => rw [h]; omega
  | inr h => rw [h]; omega

inductive Party where
  | client
  | daemon
  | helper
  deriving DecidableEq, Repr

/-- The two directions of the socket and of the pipes. -/
inductive Chan where
  | toDaemon
  | toHelper
  | fromHelper
  | toClient
  deriving DecidableEq, Repr

/-- The four bytes of a result. -/
def retBytes (ret : Int) : List UInt8 :=
  le32 (ret % 2 ^ 32).toNat

/-! ### The programs -/

/-- Where `encode` is. -/
inductive ClientPoint where
  | idle
  | sendHeader (pcm : List UInt8)
  | sendPcm (pcm : List UInt8)
  | recvRet
  | recvPayload (ret : Int)
  | returned (payload : Option (List UInt8))
  deriving DecidableEq, Repr

namespace ClientPoint

/-- The point `encode` begins at. -/
def begin (cfg : WireConfig) (pcm : List UInt8) : ClientPoint :=
  if cfg.frames = 0 ∨ cfg.channels = 0 then returned none else sendHeader pcm

/-- The checks of a result. -/
def check (cfg : WireConfig) (ret : Int) : ClientPoint :=
  if ret ≤ 0 ∨ ret > kMaxEncodeBytes then returned none
  else if ret.toNat > cfg.outCap then returned none
  else recvPayload ret

def node (cfg : WireConfig) : ClientPoint → Node Chan ClientPoint
  | idle => .idle
  | sendHeader pcm => .write .toDaemon (le32 cfg.frames) (sendPcm pcm) (returned none)
  | sendPcm pcm =>
      .write .toDaemon (pcm.take (cfg.frames * cfg.channels * 4 % 2 ^ 32)) recvRet (returned none)
  | recvRet => .read .toClient 4 (fun bytes => check cfg (signed32 (ofLe bytes))) (returned none)
  | recvPayload ret => .read .toClient ret.toNat (fun bytes => returned (some bytes)) (returned none)
  | returned _ => .idle

/-- The checks at the beginning of `encode` do not fail. -/
theorem begin_eq (cfg : WireConfig) (pcm : List UInt8) :
  begin cfg pcm = sendHeader pcm
  := by
  have hframes := cfg.frames_pos
  have hchannels := cfg.channels_eq
  rw [begin, if_neg (by omega)]

theorem check_of_nonpos {cfg : WireConfig} {ret : Int} (h : ¬ 0 < ret) :
  check cfg ret = returned none
  := by
  rw [check, if_pos (by omega)]

theorem check_of_pos {cfg : WireConfig} {ret : Int} (h : 0 < ret) (hle : ret ≤ kMaxEncodeBytes) :
  check cfg ret = recvPayload ret
  := by
  have hcap := cfg.outCap_ge
  rw [check, if_neg (by omega), if_neg (by omega)]

/-- The bytes `encode` sends are those of the frame. -/
theorem take_pcm {cfg : WireConfig} {pcm : List UInt8} (hpcm : pcm.length = cfg.pcmBytes) :
  pcm.take (cfg.frames * cfg.channels * 4 % 2 ^ 32) = pcm
  := by
  have hlt := cfg.pcmBytes_le
  rw [← WireConfig.pcmBytes, Nat.mod_eq_of_lt (by omega), ← hpcm, List.take_length]

end ClientPoint

/-- Where `service_client` is. -/
inductive DaemonPoint where
  | readHeader
  | readPcm (frames : Nat)
  | forwardHeader (frames : Nat) (pcm : List UInt8)
  | forwardPcm (pcm : List UInt8)
  | readRet
  | readFrame (ret : Int)
  | writeRet (ret : Int) (frame : List UInt8)
  | writeFrame (frame : List UInt8)
  | left
  deriving DecidableEq, Repr

namespace DaemonPoint

/-- The checks of a header. -/
def accept (frames : Nat) : DaemonPoint :=
  if frames = cmdShutdown then left
  else if frames = 0 ∨ frames > maxFrameSamples then left
  else readPcm frames

/-- The result of the helper is limited, and its frame read. -/
def fetch (ret : Int) : DaemonPoint :=
  let ret := if ret > maxEncodeBytes then 0 else ret
  if ret > 0 then readFrame ret else writeRet ret []

def node (cfg : WireConfig) : DaemonPoint → Node Chan DaemonPoint
  | readHeader => .read .toDaemon 4 (fun bytes => accept (ofLe bytes)) left
  | readPcm frames =>
      .read .toDaemon (frames * cfg.channels * 4) (fun pcm => forwardHeader frames pcm) left
  | forwardHeader frames pcm => .write .toHelper (le32 frames) (forwardPcm pcm) left
  | forwardPcm pcm => .write .toHelper pcm readRet left
  | readRet => .read .fromHelper 4 (fun bytes => fetch (signed32 (ofLe bytes))) left
  | readFrame ret => .read .fromHelper ret.toNat (fun frame => writeRet ret frame) left
  | writeRet ret frame =>
      .write .toClient (retBytes ret) (if ret > 0 then writeFrame frame else readHeader) left
  | writeFrame frame => .write .toClient frame readHeader left
  | left => .stopped

end DaemonPoint

/-- Where the loop of the helper is, with the frames its encoder has been given. -/
inductive HelperPoint where
  | readHeader (served : List (List UInt8))
  | readPcm (served : List (List UInt8)) (frames : Nat)
  | writeRet (served : List (List UInt8)) (answer : Answer)
  | writeFrame (served : List (List UInt8)) (answer : Answer)
  | exited

namespace HelperPoint

/-- The check of a header. -/
def accept (served : List (List UInt8)) (frames : Nat) : HelperPoint :=
  if frames = 0 ∨ frames > helperMaxFrameSamples then exited else readPcm served frames

/-- The frame follows a positive result, when it is not oversized. -/
def afterRet (served : List (List UInt8)) (answer : Answer) : HelperPoint :=
  if answer.ret > 0 then
    if answer.ret > helperMaxEncodeBytes then exited else writeFrame served answer
  else readHeader served

def node (cfg : WireConfig) (blob : Helper) : HelperPoint → Node Chan HelperPoint
  | readHeader served => .read .toHelper 4 (fun bytes => accept served (ofLe bytes)) exited
  | readPcm served frames =>
      .read .toHelper (frames * cfg.channels * 4)
        (fun pcm => writeRet (served ++ [pcm]) (blob served pcm)) exited
  | writeRet served answer =>
      .write .fromHelper (retBytes answer.ret) (afterRet served answer) exited
  | writeFrame served answer => .write .fromHelper answer.payload (readHeader served) exited
  | exited => .stopped

end HelperPoint

/-- A point of one of the three programs. -/
inductive Point where
  | client (p : ClientPoint)
  | daemon (p : DaemonPoint)
  | helper (p : HelperPoint)

/-- The three programs and the connections between them. -/
def wiring (cfg : WireConfig) (blob : Helper) : Wiring Party Chan Point where
  node
    | .client p => (p.node cfg).map .client
    | .daemon p => (p.node cfg).map .daemon
    | .helper p => (p.node cfg blob).map .helper
  writer
    | .toDaemon => .client
    | .toHelper => .daemon
    | .fromHelper => .helper
    | .toClient => .daemon
  reader
    | .toDaemon => .daemon
    | .toHelper => .helper
    | .fromHelper => .daemon
    | .toClient => .client
  rank
    | .toDaemon => 0
    | .toHelper => 1
    | .fromHelper => 2
    | .toClient => 3
  whole i := i == .client

/-! ### The client on its own -/

namespace ClientPoint

variable {σ : Type*} {cfg : WireConfig} {net : Net σ} {sock : Nat}

/-- The program of the client over a network whose answers are known at once. -/
def perform (cfg : WireConfig) (net : Net σ) (sock : Nat) :
    Nat → ClientPoint → σ → Option (List UInt8) × σ
  | 0, _, w => (none, w)
  | _, returned payload, w => (payload, w)
  | steps + 1, p, w =>
      match p.node cfg with
      | .read _ need resume fail =>
          let answer := readFull (fun w need => net.recv w sock need) need w
          match answer.bytes with
          | some bytes => perform cfg net sock steps (resume bytes) answer.world
          | none => perform cfg net sock steps fail answer.world
      | .write _ bytes resume fail =>
          let taken := net.send w sock bytes
          if taken.1 = bytes.length then perform cfg net sock steps resume taken.2
          else perform cfg net sock steps fail taken.2
      | _ => (none, w)

/-- The end of the program is the end of the exchange. -/
theorem perform_check {events : List SocketEvent} {ret : Int} {w : σ} {steps : Nat} :
  perform cfg net sock (steps + 2) (check cfg ret) w
    = ((DaemonSscBackend.receivePayload net sock cfg.outCap events ret w).payload,
        (DaemonSscBackend.receivePayload net sock cfg.outCap events ret w).world)
  := by
  rw [check, DaemonSscBackend.receivePayload]
  split
  · rfl
  · split
    · rfl
    · rw [perform]
      · simp only [node]
        split
        · rename_i bytes hbytes
          rw [hbytes]
          rfl
        · rename_i hbytes
          rw [hbytes]
          rfl
      · intro result h
        contradiction

theorem perform_sendHeader {pcm : List UInt8} {w : σ} {steps : Nat} :
  perform cfg net sock (steps + 2) (sendHeader pcm) w
    = if (net.send w sock (le32 cfg.frames)).1 = 4 then
        perform cfg net sock (steps + 1) (sendPcm pcm) (net.send w sock (le32 cfg.frames)).2
      else (none, (net.send w sock (le32 cfg.frames)).2)
  := rfl

theorem perform_sendPcm {pcm : List UInt8} {w : σ} {steps : Nat}
    (hpcm : pcm.length = cfg.pcmBytes) :
  perform cfg net sock (steps + 2) (sendPcm pcm) w
    = if (net.send w sock pcm).1 = pcm.length then
        perform cfg net sock (steps + 1) recvRet (net.send w sock pcm).2
      else (none, (net.send w sock pcm).2)
  := by
  rw [perform]
  · simp only [node, take_pcm hpcm]
    rfl
  · nofun

theorem perform_recvRet {events : List SocketEvent} {w : σ} {steps : Nat} :
  perform cfg net sock (steps + 3) recvRet w
    = ((DaemonSscBackend.receiveResult net sock cfg.outCap events w).payload,
        (DaemonSscBackend.receiveResult net sock cfg.outCap events w).world)
  := by
  rw [perform]
  · simp only [node]
    split
    · rename_i bytes hbytes
      rw [DaemonSscBackend.receiveResult_of_some hbytes]
      apply perform_check
    · rename_i hbytes
      rw [DaemonSscBackend.receiveResult_of_none hbytes]
      rfl
  · nofun

/-- The program of the client makes the exchange of the backend. -/
theorem perform_begin {pcm : List UInt8} {w : σ} (hpcm : pcm.length = cfg.pcmBytes) :
  perform cfg net sock 5 (begin cfg pcm) w
    = ((DaemonSscBackend.exchange net sock cfg.frames cfg.pcmBytes cfg.outCap pcm w).payload,
        (DaemonSscBackend.exchange net sock cfg.frames cfg.pcmBytes cfg.outCap pcm w).world)
  := by
  have hsigned : signed32 cfg.pcmBytes = pcm.length := by
    have hle := cfg.pcmBytes_le
    rw [signed32, if_pos (by omega), hpcm]
  rw [begin_eq, perform_sendHeader, DaemonSscBackend.exchange]
  dsimp only
  rw [← hpcm, List.take_length, hpcm, hsigned]
  split
  · rename_i hheader
    rw [if_neg (not_not_intro hheader), perform_sendPcm hpcm]
    split
    · rename_i hbody
      rw [if_neg (not_not_intro hbody)]
      apply perform_recvRet
    · rfl
  · rfl

end ClientPoint

/-! ### The calls -/

/-- The three processes, the calls that are still to be made, and what the calls before
have returned. -/
structure Wire where
  net : Network Party Chan Point
  pending : List (List UInt8)
  results : List (Option (List UInt8)) := []

/-- Something happens: `encode` is called, returns, or a process makes a call of its own. -/
inductive WireEvent where
  | call
  | finish
  | net (a : Act Party)
  deriving DecidableEq, Repr

namespace Wire

/-- The client is at `p`. -/
def setClient (net : Network Party Chan Point) (p : ClientPoint) : Network Party Chan Point :=
  { net with proc := Function.update net.proc .client { point := .client p } }

@[simp] theorem setClient_client (net : Network Party Chan Point) (p : ClientPoint) :
  (setClient net p).proc .client = { point := .client p }
  := rfl

@[simp] theorem setClient_daemon (net : Network Party Chan Point) (p : ClientPoint) :
  (setClient net p).proc .daemon = net.proc .daemon
  := rfl

@[simp] theorem setClient_helper (net : Network Party Chan Point) (p : ClientPoint) :
  (setClient net p).proc .helper = net.proc .helper
  := rfl

@[simp] theorem setClient_content (net : Network Party Chan Point) (p : ClientPoint) :
  (setClient net p).content = net.content
  := rfl

def next (cfg : WireConfig) (blob : Helper) (s : Wire) : WireEvent → Option Wire
  | .call =>
      match (s.net.proc .client).point, s.pending with
      | .client .idle, pcm :: rest =>
          some { s with net := setClient s.net (.begin cfg pcm), pending := rest }
      | _, _ => none
  | .finish =>
      match (s.net.proc .client).point with
      | .client (.returned payload) =>
          some { s with net := setClient s.net .idle, results := s.results ++ [payload] }
      | _ => none
  | .net a => (ByteNetwork.next (wiring cfg blob) s.net a).map (fun net => { s with net })

/-- Where the three processes are between two calls. -/
def home (served : List (List UInt8)) : Party → Point
  | .client => .client .idle
  | .daemon => .daemon .readHeader
  | .helper => .helper (.readHeader served)

/-- The three processes are between two calls, and nothing is on the way. -/
def AtBoundary (served : List (List UInt8)) (net : Network Party Chan Point) : Prop :=
  (∀ i, net.proc i = { point := home served i }) ∧ ∀ c, net.content c = []

/-- The three processes are started and connected. -/
def start (calls : List (List UInt8)) : Wire where
  net := { proc := fun i => { point := home [] i }, content := fun _ => [] }
  pending := calls

/-- The step is not an interrupted call. -/
def Uninterrupted (_ : Wire) : WireEvent → Prop
  | .net (.interrupt _) => False
  | _ => True

instance (s : Wire) (e : WireEvent) : Decidable (Uninterrupted s e) :=
  match e with
  | .call => isTrue trivial
  | .finish => isTrue trivial
  | .net (.io _ _) => isTrue trivial
  | .net (.hangup _) => isTrue trivial
  | .net (.interrupt _) => isFalse id

end Wire

/-- What `encode` is to return for an answer. -/
def Answer.result (a : Answer) : Option (List UInt8) :=
  if 1 ≤ a.ret ∧ a.ret ≤ kMaxEncodeBytes then some a.payload else none

/-- What the calls are to return, given the frames before them. -/
def answers (blob : Helper) : List (List UInt8) → List (List UInt8) → List (Option (List UInt8))
  | _, [] => []
  | served, pcm :: calls => (blob served pcm).result :: answers blob (served ++ [pcm]) calls

namespace Wire

variable {cfg : WireConfig} {blob : Helper} {served : List (List UInt8)} {pcm : List UInt8}

/-! ### A call -/

/-- The two parts of a request. -/
def request (cfg : WireConfig) (pcm : List UInt8) : List (List UInt8) :=
  [le32 cfg.frames, pcm]

/-- The parts of an answer. -/
def reply (a : Answer) : List (List UInt8) :=
  retBytes a.ret :: if 0 < a.ret then [a.payload] else []

/-- What the three programs send and receive for a call. -/
def script (cfg : WireConfig) (pcm : List UInt8) (a : Answer) : Party → List (Op Chan)
  | .client => (request cfg pcm).map (.send .toDaemon) ++ (reply a).map (.recv .toClient)
  | .daemon =>
      (request cfg pcm).map (.recv .toDaemon) ++ (request cfg pcm).map (.send .toHelper)
        ++ (reply a).map (.recv .fromHelper) ++ (reply a).map (.send .toClient)
  | .helper => (request cfg pcm).map (.recv .toHelper) ++ (reply a).map (.send .fromHelper)

/-- Where the three programs are when the call is over. -/
def goal (blob : Helper) (served : List (List UInt8)) (pcm : List UInt8) : Party → Point
  | .client => .client (.returned (blob served pcm).result)
  | .daemon => .daemon .readHeader
  | .helper => .helper (.readHeader (served ++ [pcm]))

theorem ofLe_frames (cfg : WireConfig) :
  ofLe (le32 cfg.frames) = cfg.frames
  := by
  have hframes : cfg.frames ≤ 8192 := cfg.frames_le
  rw [ofLe_le32]
  omega

/-- A result is read as it was written. -/
theorem signed32_retBytes (a : Answer) :
  signed32 (ofLe (retBytes a.ret)) = a.ret
  := signed32_ofLe_le32 a.ret_ge a.ret_lt

theorem length_retBytes (ret : Int) :
  (retBytes ret).length = 4
  := rfl

/-- An answer without a frame makes `encode` fail. -/
theorem result_of_nonpos {a : Answer} (h : ¬ 0 < a.ret) :
  a.result = none
  := by
  rw [Answer.result, if_neg (by omega)]

theorem result_of_pos {a : Answer} (h : 0 < a.ret) (hle : a.ret ≤ kMaxEncodeBytes) :
  a.result = some a.payload
  := by
  rw [Answer.result, if_pos ⟨by omega, hle⟩]

/-- The client does what the script says, and returns what the answer says. -/
theorem client_follows (hpcm : pcm.length = cfg.pcmBytes) {a : Answer}
    (hle : a.ret ≤ kMaxEncodeBytes) :
  Follows (wiring cfg blob).node (.client (.returned a.result))
    { point := .client (.begin cfg pcm) } (script cfg pcm a .client)
  := by
  have hpayload : Follows (wiring cfg blob).node (.client (.returned a.result))
      { point := .client (.check cfg a.ret) }
      ((if 0 < a.ret then [a.payload] else []).map (.recv .toClient)) := by
    by_cases hpos : 0 < a.ret
    · rw [if_pos hpos, ClientPoint.check_of_pos hpos hle, result_of_pos hpos hle]
      refine follows_read (by rfl) (a.payload_length hpos) ?_
      rfl
    · rw [if_neg hpos, ClientPoint.check_of_nonpos hpos, result_of_nonpos hpos]
      rfl
  rw [ClientPoint.begin_eq]
  refine follows_write (by rfl) ?_
  apply follows_write (by rw [wiring]; simp only [ClientPoint.node, ClientPoint.take_pcm hpcm]; rfl)
  refine follows_read (by rfl) (length_retBytes _) ?_
  dsimp only
  rw [signed32_retBytes]
  apply hpayload

/-- A frame is accepted by the daemon. -/
theorem daemon_accept (cfg : WireConfig) :
  DaemonPoint.accept cfg.frames = .readPcm cfg.frames
  := by
  have hpos := cfg.frames_pos
  have hle : cfg.frames ≤ 8192 := cfg.frames_le
  rw [DaemonPoint.accept, if_neg (by rw [cmdShutdown]; omega),
    if_neg (by rw [maxFrameSamples]; omega)]

theorem fetch_of_nonpos {ret : Int} (h : ¬ 0 < ret) :
  DaemonPoint.fetch ret = .writeRet ret []
  := by
  have hlimit : ¬ ret > maxEncodeBytes := by
    rw [maxEncodeBytes]
    omega
  rw [DaemonPoint.fetch, if_neg hlimit]
  apply if_neg h

theorem fetch_of_pos {ret : Int} (h : 0 < ret) (hle : ret ≤ kMaxEncodeBytes) :
  DaemonPoint.fetch ret = .readFrame ret
  := by
  have hlimit : ¬ ret > maxEncodeBytes := by
    rw [kMaxEncodeBytes] at hle
    rw [maxEncodeBytes]
    omega
  rw [DaemonPoint.fetch, if_neg hlimit]
  apply if_pos h

/-- The daemon does what the script says, and is ready for the next request. -/
theorem daemon_follows (hpcm : pcm.length = cfg.pcmBytes) {a : Answer}
    (hle : a.ret ≤ kMaxEncodeBytes) :
  Follows (wiring cfg blob).node (.daemon .readHeader) { point := .daemon .readHeader }
    (script cfg pcm a .daemon)
  := by
  have hreply : Follows (wiring cfg blob).node (.daemon .readHeader)
      { point := .daemon (.fetch a.ret) }
      ((if 0 < a.ret then [a.payload] else []).map (.recv .fromHelper)
        ++ (reply a).map (.send .toClient)) := by
    rw [reply]
    by_cases hpos : 0 < a.ret
    · rw [if_pos hpos, fetch_of_pos hpos hle]
      refine follows_read (by rfl) (a.payload_length hpos) ?_
      refine follows_write (by rfl) ?_
      rw [if_pos hpos]
      refine follows_write (by rfl) ?_
      rfl
    · rw [if_neg hpos, fetch_of_nonpos hpos]
      refine follows_write (by rfl) ?_
      rw [if_neg hpos]
      rfl
  refine follows_read (by rfl) (length_le32 _) ?_
  dsimp only
  rw [ofLe_frames, daemon_accept]
  refine follows_read (by rfl) hpcm ?_
  refine follows_write (by rfl) ?_
  refine follows_write (by rfl) ?_
  refine follows_read (by rfl) (length_retBytes _) ?_
  dsimp only
  rw [signed32_retBytes]
  apply hreply

/-- A frame is accepted by the helper. -/
theorem helper_accept (cfg : WireConfig) (served : List (List UInt8)) :
  HelperPoint.accept served cfg.frames = .readPcm served cfg.frames
  := by
  have hpos := cfg.frames_pos
  have hle := cfg.frames_le
  rw [HelperPoint.accept, if_neg (by omega)]

/-- The helper does what the script says, and is ready for the next request. -/
theorem helper_follows (hpcm : pcm.length = cfg.pcmBytes)
    (hle : (blob served pcm).ret ≤ kMaxEncodeBytes) :
  Follows (wiring cfg blob).node (.helper (.readHeader (served ++ [pcm])))
    { point := .helper (.readHeader served) } (script cfg pcm (blob served pcm) .helper)
  := by
  have hframe : Follows (wiring cfg blob).node (.helper (.readHeader (served ++ [pcm])))
      { point := .helper (.afterRet (served ++ [pcm]) (blob served pcm)) }
      ((if 0 < (blob served pcm).ret then [(blob served pcm).payload] else []).map
        (.send .fromHelper)) := by
    rw [HelperPoint.afterRet]
    by_cases hpos : 0 < (blob served pcm).ret
    · rw [if_pos hpos, if_pos hpos, if_neg]
      · refine follows_write (by rfl) ?_
        rfl
      · apply not_lt_of_ge hle
    · rw [if_neg hpos, if_neg hpos]
      rfl
  refine follows_read (by rfl) (length_le32 _) ?_
  dsimp only
  rw [ofLe_frames, helper_accept]
  refine follows_read (by rfl) hpcm ?_
  refine follows_write (by rfl) ?_
  apply hframe

variable {net : Network Party Chan Point} {calls : List (List UInt8)}
  {remaining : Party → List (Op Chan)}

/-- Each program sends and receives over its own connections. -/
theorem script_wired (a : Answer) (i : Party) :
  ∀ op ∈ script cfg pcm a i, Wired (wiring cfg blob) i op
  := by
  intro op hop
  cases i with
  | client =>
      rw [script, List.mem_append, List.mem_map, List.mem_map] at hop
      rcases hop with ⟨bytes, -, rfl⟩ | ⟨bytes, -, rfl⟩ <;> rfl
  | daemon =>
      simp only [script, List.mem_append, List.mem_map] at hop
      rcases hop with ((⟨bytes, -, rfl⟩ | ⟨bytes, -, rfl⟩) | ⟨bytes, -, rfl⟩) | ⟨bytes, -, rfl⟩ <;> rfl
  | helper =>
      rw [script, List.mem_append, List.mem_map, List.mem_map] at hop
      rcases hop with ⟨bytes, -, rfl⟩ | ⟨bytes, -, rfl⟩ <;> rfl

/-- The request comes before the answer, and each goes through the daemon. -/
theorem script_ordered (a : Answer) (i : Party) :
  Ordered (wiring cfg blob).rank (script cfg pcm a i)
  := by
  by_cases hpos : 0 < a.ret
  · cases i <;> simp [Ordered, script, request, reply, hpos, wiring, Op.chan]
  · cases i <;> simp [Ordered, script, request, reply, hpos, wiring, Op.chan]

/-- What is sent to a channel is what is received from it. -/
theorem script_agrees (a : Answer) (c : Chan) :
  sent c (script cfg pcm a ((wiring cfg blob).writer c))
    = received c (script cfg pcm a ((wiring cfg blob).reader c))
  := by
  cases c <;> simp [wiring, script, sent_append, received_append, sent_map_send, sent_map_recv,
    received_map_send, received_map_recv, -List.map_append]

theorem reply_ends (a : Answer) (c : Chan) :
  EndsSending c ((reply a).map (.send c))
  := by
  rw [reply]
  by_cases hpos : 0 < a.ret
  · rw [if_pos hpos]
    use a.payload
    constructor
    · rfl
    · have hlength := a.payload_length hpos
      rintro hnil
      rw [hnil, List.length_nil] at hlength
      omega
  · rw [if_neg hpos]
    use retBytes a.ret
    constructor
    · rfl
    · apply List.cons_ne_nil

theorem daemon_rests :
  Rests (wiring cfg blob) .daemon (.daemon .readHeader)
  := Or.inl ⟨.toDaemon, 4, _, _, rfl, by decide, rfl⟩

theorem helper_rests :
  Rests (wiring cfg blob) .helper (.helper (.readHeader served))
  := Or.inl ⟨.toHelper, 4, _, _, rfl, by decide, rfl⟩

/-- A call begins a session. -/
theorem session_of_call (h : AtBoundary served net) (hpcm : pcm.length = cfg.pcmBytes)
    (hle : (blob served pcm).ret ≤ kMaxEncodeBytes) :
  ByteNetwork.Session (wiring cfg blob) (goal blob served pcm) (script cfg pcm (blob served pcm))
    (setClient net (.begin cfg pcm))
  := by
  obtain ⟨hproc, hcontent⟩ := h
  constructor
  · intro i
    cases i with
    | client =>
        rw [setClient_client]
        apply client_follows hpcm hle
    | daemon =>
        rw [setClient_daemon, hproc]
        apply daemon_follows hpcm hle
    | helper =>
        rw [setClient_helper, hproc]
        apply helper_follows hpcm hle
  · intro i
    cases i with
    | client => exact Or.inr rfl
    | daemon => apply daemon_rests
    | helper => apply helper_rests
  · apply script_wired
  · apply script_ordered
  · intro c
    rw [setClient_content, hcontent, List.nil_append]
    apply script_agrees

/-- A call is being served: the three programs are in a session, at the end of which the
daemon sends to the client and the helper to the daemon. -/
structure InCall (cfg : WireConfig) (blob : Helper) (served : List (List UInt8))
    (pcm : List UInt8) (remaining : Party → List (Op Chan)) (net : Network Party Chan Point) :
    Prop where
  session : ByteNetwork.Session (wiring cfg blob) (goal blob served pcm) remaining net
  daemon_ends : EndsSending .toClient (remaining .daemon)
  helper_ends : EndsSending .fromHelper (remaining .helper)

theorem inCall_of_call (h : AtBoundary served net) (hpcm : pcm.length = cfg.pcmBytes)
    (hle : (blob served pcm).ret ≤ kMaxEncodeBytes) :
  InCall cfg blob served pcm (script cfg pcm (blob served pcm)) (setClient net (.begin cfg pcm))
  := by
  have hne (c : Chan) : (reply (blob served pcm)).map (Op.send c) ≠ [] := List.cons_ne_nil _ _
  constructor
  · apply session_of_call h hpcm hle
  · apply (reply_ends _ _).append_left (hne _)
  · apply (reply_ends _ _).append_left (hne _)

namespace InCall

/-- When the client has its answer, the daemon has sent it whole and the helper has, too. -/
theorem remaining_eq_nil (h : InCall cfg blob served pcm remaining net)
    (hclient : remaining .client = []) :
  ∀ i, remaining i = []
  := by
  have hdaemon : remaining .daemon = [] :=
    h.daemon_ends.eq_nil (h.session.content_eq_nil (c := .toClient) hclient).2
  have hhelper : remaining .helper = [] :=
    h.helper_ends.eq_nil (h.session.content_eq_nil (c := .fromHelper) hdaemon).2
  intro i
  cases i with
  | client => exact hclient
  | daemon => exact hdaemon
  | helper => exact hhelper

/-- The client is back at a boundary only when all are. -/
theorem finish (h : InCall cfg blob served pcm remaining net) (hclient : remaining .client = []) :
  net.proc .client = { point := .client (.returned (blob served pcm).result) }
    ∧ AtBoundary (served ++ [pcm]) (setClient net .idle)
  := by
  have hnil := h.remaining_eq_nil hclient
  have hproc : ∀ i, net.proc i = { point := goal blob served pcm i } := by
    intro i
    have hfollows := h.session.follows i
    rw [hnil i] at hfollows
    apply hfollows
  constructor
  · apply hproc
  · constructor
    · intro i
      cases i with
      | client => rfl
      | daemon =>
          rw [setClient_daemon, hproc]
          rfl
      | helper =>
          rw [setClient_helper, hproc]
          rfl
    · intro c
      apply (h.session.content_eq_nil (hnil _)).1

/-- As long as the client has something left to do it has not returned. -/
theorem not_returned (h : InCall cfg blob served pcm remaining net)
    (hclient : remaining .client ≠ []) :
  (wiring cfg blob).node (net.proc .client).point ≠ .idle
  := by
  intro hidle
  have hfollows := h.session.follows .client
  cases hrest : remaining .client with
  | nil => exact hclient hrest
  | cons op rest =>
      rw [hrest] at hfollows
      cases op with
      | send c bytes =>
          obtain ⟨resume, fail, hnode, -⟩ := hfollows
          rw [hidle] at hnode
          contradiction
      | recv c bytes =>
          obtain ⟨resume, fail, hnode, -⟩ := hfollows
          rw [hidle] at hnode
          contradiction

end InCall

/-! ### All calls -/

theorem answers_append (served served' calls : List (List UInt8)) :
  answers blob served (served' ++ calls)
    = answers blob served served' ++ answers blob (served ++ served') calls
  := by
  induction served' generalizing served with
  | nil => rw [List.nil_append, List.append_nil, answers, List.nil_append]
  | cons pcm served' ih =>
      rw [List.cons_append, answers, answers, ih, List.cons_append, List.append_assoc,
        List.singleton_append]

theorem length_answers (served calls : List (List UInt8)) :
  (answers blob served calls).length = calls.length
  := by
  induction calls generalizing served with
  | nil => rfl
  | cons pcm calls ih => rw [answers, List.length_cons, List.length_cons, ih]

/-- The calls the scripts still take at most. -/
def total (remaining : Party → List (Op Chan)) : Nat :=
  size (remaining .client) + size (remaining .daemon) + size (remaining .helper)

/-- A shorter script makes the total smaller. -/
theorem total_update {i : Party} {script : List (Op Chan)} (h : size script < size (remaining i)) :
  total (Function.update remaining i script) < total remaining
  := by
  cases i with
  | client =>
      simp only [total, Function.update_self, ne_eq, reduceCtorEq, not_false_eq_true,
        Function.update_of_ne]
      omega
  | daemon =>
      simp only [total, Function.update_self, ne_eq, reduceCtorEq, not_false_eq_true,
        Function.update_of_ne]
      omega
  | helper =>
      simp only [total, Function.update_self, ne_eq, reduceCtorEq, not_false_eq_true,
        Function.update_of_ne]
      omega

/-- The calls before have returned what they are to return, and the programs are between two
calls or in one.  The rank says how much there is still to be done. -/
inductive Progress (cfg : WireConfig) (blob : Helper) (calls : List (List UInt8)) :
    Nat × Nat → Wire → Prop
  | between {s : Wire} {served : List (List UInt8)} (hresults : s.results = answers blob [] served)
      (hcalls : calls = served ++ s.pending) (hboundary : AtBoundary served s.net) :
      Progress cfg blob calls (2 * s.pending.length, 0) s
  | during {s : Wire} {served : List (List UInt8)} {pcm : List UInt8}
      {remaining : Party → List (Op Chan)} (hresults : s.results = answers blob [] served)
      (hcalls : calls = served ++ pcm :: s.pending)
      (hcall : InCall cfg blob served pcm remaining s.net) :
      Progress cfg blob calls (2 * s.pending.length + 1, total remaining) s

/-- The order of the ranks. -/
def Below : Nat × Nat → Nat × Nat → Prop :=
  Prod.Lex (· < ·) (· < ·)

/-- What a step of the network can be while a call is served. -/
theorem InCall.step (h : InCall cfg blob served pcm remaining net) {a : Act Party}
    {net' : Network Party Chan Point} (hstep : ByteNetwork.next (wiring cfg blob) net a = some net') :
  (net' = net ∧ ∃ i, a = .interrupt i)
    ∨ ∃ remaining', InCall cfg blob served pcm remaining' net' ∧ total remaining' < total remaining
  := by
  cases a with
  | io i count =>
      right
      obtain ⟨hsession, hsize, hhead⟩ := h.session.io hstep
      use Function.update remaining i (advance count (remaining i))
      constructor
      · constructor
        · apply hsession
        · by_cases hi : i = .daemon
          · subst hi
            rw [Function.update_self]
            apply h.daemon_ends.advance hhead
          · rw [Function.update_of_ne (Ne.symm hi)]
            apply h.daemon_ends
        · by_cases hi : i = .helper
          · subst hi
            rw [Function.update_self]
            apply h.helper_ends.advance hhead
          · rw [Function.update_of_ne (Ne.symm hi)]
            apply h.helper_ends
      · apply total_update hsize
  | interrupt i =>
      left
      obtain ⟨-, hnet⟩ := Option.ite_none_left_eq_some.mp hstep
      exact ⟨(Option.some.inj hnet).symm, i, rfl⟩
  | hangup i =>
      rw [ByteNetwork.next, h.session.failure_eq_none] at hstep
      contradiction

/-- Between two calls a process only waits. -/
theorem AtBoundary.step (h : AtBoundary served net) {a : Act Party}
    {net' : Network Party Chan Point} (hstep : ByteNetwork.next (wiring cfg blob) net a = some net') :
  net' = net ∧ ∃ i, a = .interrupt i
  := by
  obtain ⟨hproc, hcontent⟩ := h
  have hsession :
      ByteNetwork.Session (wiring cfg blob) (home served) (fun _ => []) net := by
    constructor
    · apply hproc
    · intro i
      cases i with
      | client => exact Or.inr rfl
      | daemon => apply daemon_rests
      | helper => apply helper_rests
    · intro i op hop
      contradiction
    · intro i
      apply List.Pairwise.nil
    · intro c
      rw [hcontent]
      rfl
  cases a with
  | io i count =>
      rw [ByteNetwork.next, hsession.io_of_nil rfl] at hstep
      contradiction
  | interrupt i =>
      obtain ⟨-, hnet⟩ := Option.ite_none_left_eq_some.mp hstep
      exact ⟨(Option.some.inj hnet).symm, i, rfl⟩
  | hangup i =>
      rw [ByteNetwork.next, hsession.failure_eq_none] at hstep
      contradiction

/-- What a call of `encode` does. -/
theorem call_eq {s t : Wire} (h : next cfg blob s .call = some t) :
  (s.net.proc .client).point = .client .idle ∧ ∃ pcm rest, s.pending = pcm :: rest
    ∧ t = { s with net := setClient s.net (.begin cfg pcm), pending := rest }
  := by
  rw [next] at h
  split at h
  · rename_i pcm rest hpoint hpending
    exact ⟨hpoint, pcm, rest, hpending, (Option.some.inj h).symm⟩
  · contradiction

/-- What a return of `encode` does. -/
theorem finish_eq {s t : Wire} (h : next cfg blob s .finish = some t) :
  ∃ payload, (s.net.proc .client).point = .client (.returned payload)
    ∧ t = { s with net := setClient s.net .idle, results := s.results ++ [payload] }
  := by
  rw [next] at h
  split at h
  · rename_i payload hpoint
    exact ⟨payload, hpoint, (Option.some.inj h).symm⟩
  · contradiction

theorem net_eq {s t : Wire} {a : Act Party} (h : next cfg blob s (.net a) = some t) :
  ∃ net, ByteNetwork.next (wiring cfg blob) s.net a = some net ∧ t = { s with net := net }
  := by
  obtain ⟨net, hnet, ht⟩ := Option.map_eq_some_iff.mp h
  exact ⟨net, hnet, ht.symm⟩

/-- While a call is served the client is not between two calls. -/
theorem InCall.not_idle (h : InCall cfg blob served pcm remaining net) :
  (net.proc .client).point ≠ .client .idle
  := by
  intro hidle
  by_cases hclient : remaining .client = []
  · rw [(h.finish hclient).1] at hidle
    cases hidle
  · apply h.not_returned hclient
    rw [hidle]
    rfl

/-- A call returns what it is to return. -/
theorem InCall.returned (h : InCall cfg blob served pcm remaining net)
    {payload : Option (List UInt8)}
    (hpoint : (net.proc .client).point = .client (.returned payload)) :
  payload = (blob served pcm).result ∧ AtBoundary (served ++ [pcm]) (setClient net .idle)
  := by
  have hclient : remaining .client = [] := by
    by_contra hclient
    apply h.not_returned hclient
    rw [hpoint]
    rfl
  obtain ⟨hproc, hboundary⟩ := h.finish hclient
  rw [hproc] at hpoint
  injection hpoint with hpoint
  injection hpoint with hpoint
  exact ⟨hpoint.symm, hboundary⟩

/-- A step of a call goes on with what is to be done, unless it is interrupted. -/
theorem Progress.step (hblob : ∀ served pcm, (blob served pcm).ret ≤ kMaxEncodeBytes)
    (hsize : ∀ pcm ∈ calls, pcm.length = cfg.pcmBytes) {n : Nat × Nat} {s t : Wire}
    {e : WireEvent} (h : Progress cfg blob calls n s) (hstep : next cfg blob s e = some t) :
  (t = s ∧ ∃ i, e = .net (.interrupt i)) ∨ ∃ m, Below m n ∧ Progress cfg blob calls m t
  := by
  cases h with
  | @between _ served hresults hcalls hboundary =>
      cases e with
      | call =>
          right
          obtain ⟨-, pcm, rest, hpending, rfl⟩ := call_eq hstep
          rw [hpending] at hcalls ⊢
          have hpcm : pcm.length = cfg.pcmBytes := by
            apply hsize
            rw [hcalls]
            apply List.mem_append_right _ List.mem_cons_self
          use (2 * rest.length + 1, total (script cfg pcm (blob served pcm)))
          constructor
          · apply Prod.Lex.left
            rw [List.length_cons]
            omega
          · apply Progress.during (s := { s with net := setClient s.net (.begin cfg pcm), pending := rest })
              hresults hcalls
            apply inCall_of_call hboundary hpcm (hblob served pcm)
      | finish =>
          obtain ⟨payload, hpoint, -⟩ := finish_eq hstep
          rw [hboundary.1] at hpoint
          cases hpoint
      | net a =>
          left
          obtain ⟨net, hnet, rfl⟩ := net_eq hstep
          obtain ⟨rfl, i, rfl⟩ := hboundary.step hnet
          exact ⟨rfl, i, rfl⟩
  | @during _ served pcm remaining hresults hcalls hcall =>
      cases e with
      | call =>
          obtain ⟨hidle, -⟩ := call_eq hstep
          exact absurd hidle hcall.not_idle
      | finish =>
          right
          obtain ⟨payload, hpoint, rfl⟩ := finish_eq hstep
          obtain ⟨rfl, hboundary⟩ := hcall.returned hpoint
          use (2 * s.pending.length, 0)
          constructor
          · apply Prod.Lex.left
            omega
          · have hresults' : s.results ++ [(blob served pcm).result]
                = answers blob [] (served ++ [pcm]) := by
              rw [hresults, answers_append, List.nil_append]
              rfl
            have hcalls' : calls = (served ++ [pcm]) ++ s.pending := by
              rw [hcalls, List.append_assoc, List.singleton_append]
            apply Progress.between (s := { s with
              net := setClient s.net .idle
              results := s.results ++ [(blob served pcm).result] }) hresults' hcalls' hboundary
      | net a =>
          obtain ⟨net, hnet, rfl⟩ := net_eq hstep
          cases hcall.step hnet with
          | inl hinterrupt =>
              left
              obtain ⟨rfl, i, rfl⟩ := hinterrupt
              exact ⟨rfl, i, rfl⟩
          | inr hmore =>
              right
              obtain ⟨remaining', hcall', hless⟩ := hmore
              use (2 * s.pending.length + 1, total remaining')
              constructor
              · apply Prod.Lex.right _ hless
              · apply Progress.during (s := { s with net := net }) hresults hcalls hcall'

/-- As long as calls are to be made or to be answered, there is a step that is not an
interrupted call. -/
theorem Progress.exists_step {n : Nat × Nat} {s : Wire} (h : Progress cfg blob calls n s)
    (hmore : ¬ (s.results = answers blob [] calls ∧ AtBoundary calls s.net)) :
  ∃ e t, Uninterrupted s e ∧ next cfg blob s e = some t
  := by
  cases h with
  | @between _ served hresults hcalls hboundary =>
      cases hpending : s.pending with
      | nil =>
          rw [hpending, List.append_nil] at hcalls
          subst hcalls
          exact absurd ⟨hresults, hboundary⟩ hmore
      | cons pcm rest =>
          use .call, { s with net := setClient s.net (.begin cfg pcm), pending := rest }
          constructor
          · trivial
          · rw [next, hboundary.1, hpending]
            rfl
  | @during _ served pcm remaining hresults hcalls hcall =>
      by_cases hclient : remaining .client = []
      · use .finish, { s with
          net := setClient s.net .idle
          results := s.results ++ [(blob served pcm).result] }
        constructor
        · trivial
        · rw [next, (hcall.finish hclient).1]
      · have hrank : Function.Injective (wiring cfg blob).rank := by
          intro c d hcd
          cases c <;> cases d <;> first | rfl | cases hcd
        have hends : ∀ c, (wiring cfg blob).writer c ≠ (wiring cfg blob).reader c := by
          intro c
          cases c <;> nofun
        obtain ⟨i, count, net', hio⟩ := hcall.session.exists_io hrank hends hclient
        use .net (.io i count), { s with net := net' }
        constructor
        · trivial
        · rw [next, ByteNetwork.next, hio]
          rfl

theorem start_progress (calls : List (List UInt8)) :
  Progress cfg blob calls (2 * calls.length, 0) (start calls)
  := by
  have hresults : (start calls).results = answers blob [] [] := rfl
  apply Progress.between hresults
  · rfl
  · exact ⟨fun _ => rfl, fun _ => rfl⟩

/-- In every run the calls return what the encoder has answered to their frames, in their
order: the frame when there is one, and a failure otherwise.  Between two calls the three
programs are at a boundary and nothing is on the way, and all calls are going to return
unless a signal interrupts the programs again and again. -/
theorem lockstep (cfg : WireConfig) (blob : Helper)
    (hblob : ∀ served pcm, (blob served pcm).ret ≤ kMaxEncodeBytes) (calls : List (List UInt8))
    (hsize : ∀ pcm ∈ calls, pcm.length = cfg.pcmBytes) {s : Wire}
    (h : Machine.Reachable (next cfg blob) (start calls) s) :
  s.results <+: answers blob [] calls
    ∧ ((s.net.proc .client).point = .client .idle →
        AtBoundary (calls.take s.results.length) s.net ∧ s.pending = calls.drop s.results.length)
    ∧ Machine.Inevitable (Machine.guarded (next cfg blob) Uninterrupted)
        (fun t => t.results = answers blob [] calls ∧ AtBoundary calls t.net) s
  := by
  have hprogress : ∃ n, Progress cfg blob calls n s := by
    apply h.invariant ⟨_, start_progress calls⟩
    rintro s e t ⟨n, hs⟩ hstep
    cases hs.step hblob hsize hstep with
    | inl hsame => exact ⟨n, hsame.1 ▸ hs⟩
    | inr hless =>
        obtain ⟨m, -, ht⟩ := hless
        exact ⟨m, ht⟩
  obtain ⟨n, hs⟩ := hprogress
  constructor
  · cases hs with
    | between hresults hcalls _ =>
        rw [hresults, hcalls, answers_append]
        apply List.prefix_append
    | during hresults hcalls _ =>
        rw [hresults, hcalls, answers_append]
        apply List.prefix_append
  · constructor
    · intro hidle
      cases hs with
      | between hresults hcalls hboundary =>
          rw [hresults, length_answers, hcalls, List.take_left, List.drop_left]
          exact ⟨hboundary, rfl⟩
      | during hresults hcalls hcall => exact absurd hidle hcall.not_idle
    · refine Machine.inevitable_of_rank (R := Progress cfg blob calls) (r := Below)
        (WellFounded.prod_lex Nat.lt_wfRel.wf Nat.lt_wfRel.wf) ?_ ?_ n s hs
      · intro n s hs hmore
        obtain ⟨e, t, he, hstep⟩ := hs.exists_step hmore
        use e, t
        rw [Machine.guarded, if_pos he]
        apply hstep
      · intro n s e t hs hmore hstep
        obtain ⟨he, hstep⟩ := Option.ite_none_right_eq_some.mp hstep
        cases hs.step hblob hsize hstep with
        | inl hsame =>
            obtain ⟨-, i, rfl⟩ := hsame
            contradiction
        | inr hless => exact hless

/-- The smallest frames. -/
def tinyWire : WireConfig where
  channels := 1
  frames := 1
  outCap := kMaxEncodeBytes
  channels_eq := Or.inl rfl
  frames_pos := by decide
  frames_le := by decide
  outCap_ge := le_rfl

/-- An encoder that fails at first and then answers with two bytes. -/
def tinyBlob : Helper
  | [], _ => { ret := 0, payload := [], ret_ge := by decide, ret_lt := by decide,
               payload_length := by decide }
  | _, _ => { ret := 2, payload := [7, 9], ret_ge := by decide, ret_lt := by decide,
              payload_length := by decide }

/-- Two calls, the first of which gets no frame. -/
theorem lockstep_twoCalls :
  Machine.Inevitable (Machine.guarded (next tinyWire tinyBlob) Uninterrupted)
    (fun t => t.results = [none, some [7, 9]] ∧ AtBoundary [[1, 2, 3, 4], [5, 6, 7, 8]] t.net)
    (start [[1, 2, 3, 4], [5, 6, 7, 8]])
  := by
  apply (lockstep tinyWire tinyBlob _ [[1, 2, 3, 4], [5, 6, 7, 8]] _ ⟨[], .nil _⟩).2.2
  · intro served pcm
    cases served with
    | nil => exact Int.zero_le_ofNat _
    | cons _ _ =>
        change (2 : Int) ≤ 4096
        decide
  · decide

end Wire

end Ssc
