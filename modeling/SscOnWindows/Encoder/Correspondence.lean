import SscOnWindows.Encoder.Daemon
import SscOnWindows.Lib.Machine

/-!
# Requests and answers

The client of the daemon pairs its requests with the answers by their order alone.  An
exchange that is given up before its answer is read leaves the rest of the answer in the
stream, and the next exchange reads it as its own.  As long as every exchange is carried to
its end, the connection is at the beginning of a request whenever a call begins.
-/

namespace Ssc

open Machine ByteStream

variable {helper : Helper} {schedule : Schedule}

/-! ### One exchange -/

/-- The exchange `x` has read the answer `a` and nothing else of the world `w`; a payload
above the limit of the client is left unread. -/
structure Finished (a : Answer) (w : DaemonWorld) (x : Exchange DaemonWorld) : Prop where
  payload_eq : x.payload
    = if a.sentRet ≤ 0 ∨ a.sentRet > kMaxEncodeBytes then none else some a.payload
  inbound_eq : a.sentRet ≤ kMaxEncodeBytes → x.world.inbound = []
  client_eq : x.world.client = w.client
  channels_eq : x.world.channels = w.channels

/-- Reads leave the daemon alone. -/
theorem DaemonWorld.readFull_client (schedule : Schedule) (need : Nat) (w : DaemonWorld) :
  (readFull (DaemonWorld.recv schedule) need w).world.client = w.client
    ∧ (readFull (DaemonWorld.recv schedule) need w).world.channels = w.channels
  := by
  apply readFull_preserves
    (I := fun v : DaemonWorld => v.client = w.client ∧ v.channels = w.channels)
  · intro v need hv
    apply hv
  · exact ⟨rfl, rfl⟩

namespace DaemonSscBackend

theorem receivePayload_finished {sock : Nat} {events : List SocketEvent} {a : Answer}
    {w : DaemonWorld} (hinbound : w.inbound = if a.sentRet > 0 then a.payload else [])
    (hsound : ∀ e ∈ (receivePayload (daemonNet helper schedule) sock kMaxEncodeBytes events
      a.sentRet w).events, e.sound = true) :
  Finished a w
    (receivePayload (daemonNet helper schedule) sock kMaxEncodeBytes events a.sentRet w)
  := by
  rw [receivePayload] at hsound ⊢
  split at hsound
  · rename_i hnone
    rw [if_pos hnone]
    constructor
    · rw [if_pos hnone]
    · intro hret
      have hpos : ¬ a.sentRet > 0 := by omega
      rw [if_neg hpos] at hinbound
      apply hinbound
    · rfl
    · rfl
  · rename_i hsome
    have hpos : a.sentRet > 0 := by omega
    rw [if_pos hpos] at hinbound
    rw [if_neg hsome]
    split at hsound
    · omega
    · rename_i hcap
      rw [if_neg hcap]
      obtain ⟨bytes, hbytes⟩ := readFull_bytes_of_sound
        (fun e he => hsound e (List.mem_append_right events he))
      obtain ⟨hlength, hpending⟩ := readFull_bytes (DaemonWorld.recv_delivers schedule) hbytes
      rw [hinbound] at hpending
      have hsize : bytes.length = a.payload.length := by
        rw [hlength, Answer.payload_length_sent hpos]
      obtain ⟨hpayload, hrest⟩ := List.append_inj (hpending.symm.trans (List.append_nil _).symm) hsize
      obtain ⟨hclient, hchannels⟩ := DaemonWorld.readFull_client schedule a.sentRet.toNat w
      constructor
      · rw [if_neg hsome, ← hpayload]
        apply hbytes
      · intro _
        apply hrest
      · apply hclient
      · apply hchannels

theorem receiveResult_finished {sock : Nat} {events : List SocketEvent} {a : Answer}
    {w : DaemonWorld} (hinbound : w.inbound = a.bytes)
    (hsound : ∀ e ∈ (receiveResult (daemonNet helper schedule) sock kMaxEncodeBytes events
      w).events, e.sound = true) :
  Finished a w (receiveResult (daemonNet helper schedule) sock kMaxEncodeBytes events w)
  := by
  cases hbytes : (readFull (DaemonWorld.recv schedule) 4 w).bytes with
  | none =>
      rw [receiveResult_of_none hbytes] at hsound
      have hzero := readFull_eq_none_iff.mp hbytes
      have hfell := hsound (.received sock 0)
        (List.mem_append_right events (List.mem_map.mpr ⟨0, hzero, rfl⟩))
      contradiction
  | some bytes =>
      obtain ⟨hlength, hpending⟩ := readFull_bytes (DaemonWorld.recv_delivers schedule) hbytes
      rw [hinbound, Answer.bytes] at hpending
      obtain ⟨hhead, hrest⟩ := List.append_inj hpending (by rw [length_le32, hlength])
      obtain ⟨hclient, hchannels⟩ := DaemonWorld.readFull_client schedule 4 w
      have hresult : signed32 (ofLe bytes) = a.sentRet := by
        rw [← hhead, a.signed32_sentRet]
      rw [receiveResult_of_some hbytes, hresult] at hsound ⊢
      have hfinished := receivePayload_finished hrest.symm hsound
      exact { hfinished with
        client_eq := hfinished.client_eq.trans hclient
        channels_eq := hfinished.channels_eq.trans hchannels }

/-- An exchange on an idle connection in which no call falls short serves the frame and reads
its answer. -/
theorem exchange_finished {sock channels : Nat} {pcm : List UInt8} {w : DaemonWorld}
    (hidle : w.Idle channels) (hpos : 0 < channels) (hle : channels ≤ 2)
    (hpcm : kFrameSamples * channels * 4 ≤ pcm.length)
    (hsound : ∀ e ∈ (exchange (daemonNet helper schedule) sock kFrameSamples
      (kFrameSamples * channels * 4 % 2 ^ 32) kMaxEncodeBytes pcm w).events, e.sound = true) :
  ∃ w' : DaemonWorld,
    w'.Requested channels (helper w.client.served (pcm.take (kFrameSamples * channels * 4)))
        (w.client.served ++ [pcm.take (kFrameSamples * channels * 4)])
      ∧ Finished (helper w.client.served (pcm.take (kFrameSamples * channels * 4))) w'
          (exchange (daemonNet helper schedule) sock kFrameSamples
            (kFrameSamples * channels * 4 % 2 ^ 32) kMaxEncodeBytes pcm w)
  := by
  have hmod : kFrameSamples * channels * 4 % 2 ^ 32 = kFrameSamples * channels * 4 := by
    rw [kFrameSamples]
    omega
  have hsigned : signed32 (kFrameSamples * channels * 4)
      = ((kFrameSamples * channels * 4 : Nat) : Int) := by
    rw [signed32, kFrameSamples, if_pos (by omega)]
  rw [hmod] at hsound ⊢
  rw [exchange] at hsound ⊢
  generalize hframe : pcm.take (kFrameSamples * channels * 4) = frame at *
  have hlength : frame.length = kFrameSamples * channels * 4 := by
    rw [← hframe]
    apply List.length_take_of_le hpcm
  dsimp only at hsound ⊢
  split at hsound
  · rename_i hheader
    have hfell := hsound _ (List.mem_singleton.mpr rfl)
    simp only [SocketEvent.sound, beq_iff_eq] at hfell
    contradiction
  · rename_i hheader
    rw [if_neg hheader]
    rw [not_not] at hheader
    have hheaderSent := hidle.deliver_header helper kFrameSamples_pos hpos kFrameSamples_le
    rw [← DaemonWorld.send_eq_deliver schedule w hheader] at hheaderSent
    split at hsound
    · rename_i hbody
      have hfell := hsound _ (List.mem_append_right _ (List.mem_singleton.mpr rfl))
      simp only [SocketEvent.sound, beq_iff_eq] at hfell
      contradiction
    · rename_i hbody
      rw [if_neg hbody]
      rw [not_not, hsigned, ← hlength] at hbody
      have hrequested := hheaderSent.deliver_pcm helper kFrameSamples_pos kFrameSamples_le hlength
      rw [← DaemonWorld.send_eq_deliver schedule
        (w.send helper schedule (le32 kFrameSamples)).2 hbody] at hrequested
      use ((daemonNet helper schedule).send
        ((daemonNet helper schedule).send w sock (le32 kFrameSamples)).2 sock frame).2
      constructor
      · apply hrequested
      · apply receiveResult_finished hrequested.inbound_eq hsound

end DaemonSscBackend

/-! ### Sessions -/

/-- An encoder with the daemon it talks to. -/
structure Session where
  encoder : SscEncoder
  world : DaemonWorld

namespace Session

/-- The outcome of a call. -/
def encode (helper : Helper) (schedule : Schedule) (s : Session) (call : EncodeCall) :
    Encoded DaemonWorld :=
  s.encoder.encode (daemonNet helper schedule) s.world call

/-- One call. -/
def next (helper : Helper) (schedule : Schedule) (s : Session) (call : EncodeCall) :
    Option Session :=
  some ⟨(s.encode helper schedule call).encoder, (s.encode helper schedule call).world⟩

/-- The encoder behind its initialisation. -/
def start (helper : Helper) (schedule : Schedule) (native : Bool) (overrideKbps : Nat)
    (quality : EncoderQuality) (sampleRate channels : Nat) : Session :=
  let r := ({} : SscEncoder).init (daemonNet helper schedule) {} native overrideKbps quality
    sampleRate channels
  ⟨r.2.1, r.2.2⟩

/-- The PCM a call sends. -/
def frame (s : Session) (call : EncodeCall) : List UInt8 :=
  (call.pcm.getD []).take (kFrameSamples * s.encoder.channels * 4)

/-- The frames the daemon has served before the call: none when the call restarts it. -/
def history (s : Session) : List (List UInt8) :=
  if s.encoder.isConnected then s.world.client.served else []

/-- A call that returns a payload returns the one of the answer to its own frame. -/
def Corresponds (helper : Helper) (schedule : Schedule) (s : Session) (call : EncodeCall) :
    Prop :=
  (s.encode helper schedule call).reply.payload ≠ [] →
    (s.encode helper schedule call).world.client.served = s.history ++ [s.frame call]
      ∧ (s.encode helper schedule call).reply.payload
          = (helper s.history (s.frame call)).payload

/-- The exchange of the call is carried to its end: no call on the socket falls short, and
the answer has a result that the client takes. -/
def Carried (helper : Helper) (schedule : Schedule) (s : Session) (call : EncodeCall) : Prop :=
  (∀ event ∈ (s.encode helper schedule call).reply.events, event.sound = true)
    ∧ ((s.encode helper schedule call).reply.events ≠ [] →
        (helper s.history (s.frame call)).sentRet ≤ kMaxEncodeBytes)

instance (s : Session) (call : EncodeCall) : Decidable (s.Carried helper schedule call) :=
  inferInstanceAs (Decidable ((∀ event ∈ _, _) ∧ (_ → _)))

/-- The encoder, its backend and the daemon agree on the channels, and the connection is at
the beginning of a request. -/
structure InStep (s : Session) : Prop where
  channels_pos : 0 < s.encoder.channels
  channels_le : s.encoder.channels ≤ 2
  backend_channels : ∀ b, s.encoder.backend = some b → b.channels = s.encoder.channels
  idle : s.encoder.isConnected = true → s.world.Idle s.encoder.channels

/-- An encoder installed with a backend for its channels is in step. -/
theorem install_inStep {e : SscEncoder} {started : Started DaemonWorld} (hpos : 0 < e.channels)
    (hle : e.channels ≤ 2) (hchannels : started.backend.channels = e.channels)
    (hfresh : started.ok = true → started.world.Fresh e.channels) :
  InStep ⟨(e.install started).2.1, (e.install started).2.2⟩
  := by
  rw [SscEncoder.install]
  split
  · rename_i hok
    constructor
    · apply hpos
    · apply hle
    · intro b hb
      obtain rfl := Option.some.inj hb
      apply hchannels
    · intro _
      apply (hfresh hok).toIdle
  · constructor
    · apply hpos
    · apply hle
    · intro b hb
      cases hb
    · intro hconnected
      cases hconnected

theorem start_inStep (native : Bool) (overrideKbps : Nat) (quality : EncoderQuality)
    (sampleRate channels : Nat) :
  (start helper schedule native overrideKbps quality sampleRate channels).InStep
  := by
  apply install_inStep
  · dsimp only
    split <;> decide
  · dsimp only
    split <;> decide
  · apply DaemonSscBackend.startDaemon_channels
  · apply startDaemon_fresh

/-- A payload in the outcome `r` of a call is the one of the answer to `frame` behind the
frames `served`, and the session stays in step when the client takes the result. -/
structure Answered (helper : Helper) (served : List (List UInt8)) (frame : List UInt8)
    (r : Encoded DaemonWorld) : Prop where
  answers : r.reply.payload ≠ [] → r.world.client.served = served ++ [frame]
    ∧ r.reply.payload = (helper served frame).payload
  inStep : (r.reply.events ≠ [] → (helper served frame).sentRet ≤ kMaxEncodeBytes) →
    InStep ⟨r.encoder, r.world⟩

/-- A call without an exchange. -/
theorem InStep.answered {s : Session} (h : s.InStep) (served : List (List UInt8))
    (frame : List UInt8) (ok recovered : Bool) :
  Answered helper served frame ⟨{ ok := ok, recovered := recovered }, s.encoder, s.world⟩
  := ⟨absurd rfl, fun _ => h⟩

/-- The call of a connected encoder. -/
theorem InStep.encodeConnected {s : Session} (h : s.InStep) {call : EncodeCall} {recovered : Bool}
    (hconnected : s.encoder.isConnected = true)
    (hsound : ∀ event ∈ (s.encoder.encodeConnected (daemonNet helper schedule) s.world call
      recovered).reply.events, event.sound = true) :
  Answered helper s.world.client.served (s.frame call)
    (s.encoder.encodeConnected (daemonNet helper schedule) s.world call recovered)
  := by
  rcases SscEncoder.encodeConnected_cases (daemonNet helper schedule) s.encoder s.world call
    recovered with ⟨ok, hr⟩ | ⟨b, hbackend, hbytes, hr⟩
  · rw [hr]
    apply h.answered
  · rw [hr, SscEncoder.finish_events] at hsound
    rw [hr]
    have hb : b.isConnected = true := by
      rw [SscEncoder.isConnected, hbackend] at hconnected
      apply hconnected
    cases hpcm : call.pcm with
    | none =>
        rw [DaemonSscBackend.encode_none]
        apply h.answered
    | some pcm =>
        obtain ⟨sock, hx⟩ := DaemonSscBackend.encode_of_isConnected
          (daemonNet helper schedule) pcm kMaxEncodeBytes s.world hb kFrameSamples_pos
          h.channels_pos
        rw [hpcm, hx] at hsound
        rw [hx]
        have hlength := call.pcm_length pcm hpcm
        have hle := h.channels_le
        have henough : kFrameSamples * s.encoder.channels * 4 ≤ pcm.length := by
          rw [kFrameSamples] at hbytes ⊢
          omega
        have hframe : s.frame call = pcm.take (kFrameSamples * s.encoder.channels * 4) := by
          rw [frame, hpcm, Option.getD_some]
        rw [hframe]
        obtain ⟨w, hrequested, hfinished⟩ := DaemonSscBackend.exchange_finished
          (h.idle hconnected) h.channels_pos hle henough hsound
        have hclient := hfinished.client_eq.trans hrequested.client_eq
        constructor
        · simp only [SscEncoder.finish_payload, SscEncoder.finish_world, hfinished.payload_eq]
          intro hne
          constructor
          · rw [hclient]
          · split
            · rename_i hnone
              rw [if_pos hnone] at hne
              contradiction
            · rfl
        · simp only [SscEncoder.finish_encoder, SscEncoder.finish_world, SscEncoder.finish_events]
          intro hret
          exact { h with
            idle := fun _ =>
              { channels_eq := hfinished.channels_eq.trans hrequested.channels_eq
                input_eq := by rw [hclient]
                opened := by rw [hclient]
                inbound_eq := hfinished.inbound_eq
                  (hret DaemonSscBackend.exchange_events_ne_nil) } }

/-- A recovery keeps the session in step, and when it succeeds it does so on a new
connection. -/
theorem InStep.recover {s : Session} (h : s.InStep) (hdown : s.encoder.isConnected = false)
    (now : Nat) :
  InStep ⟨(s.encoder.recover (daemonNet helper schedule) s.world now).encoder,
      (s.encoder.recover (daemonNet helper schedule) s.world now).world⟩
    ∧ (s.encoder.recover (daemonNet helper schedule) s.world now).encoder.channels
        = s.encoder.channels
    ∧ ((s.encoder.recover (daemonNet helper schedule) s.world now).ok = true →
        (s.encoder.recover (daemonNet helper schedule) s.world now).encoder.isConnected = true
          ∧ (s.encoder.recover (daemonNet helper schedule) s.world now).world.client.served = [])
  := by
  rw [SscEncoder.recover]
  split
  · refine ⟨h, rfl, ?_⟩
    intro hok
    rw [hdown] at hok
    contradiction
  · dsimp only
    cases hbackend : s.encoder.backend with
    | none =>
        refine ⟨{ h with backend_channels := ?_, idle := ?_ }, rfl, ?_⟩
        · intro b hb
          cases hb
        · intro hup
          cases hup
        · intro hok
          contradiction
    | some b =>
        have hchannels : (b.recover (daemonNet helper schedule) s.world).backend.channels
            = s.encoder.channels := by
          rw [← h.backend_channels b hbackend]
          apply DaemonSscBackend.startDaemon_channels
        have hfresh : (b.recover (daemonNet helper schedule) s.world).ok = true →
            (b.recover (daemonNet helper schedule) s.world).world.Fresh s.encoder.channels := by
          intro hok
          rw [← h.backend_channels b hbackend]
          apply startDaemon_fresh hok
        refine ⟨{ h with backend_channels := ?_, idle := ?_ }, rfl, ?_⟩
        · intro b' hb'
          obtain rfl := Option.some.inj hb'
          apply hchannels
        · intro hup
          cases hok : (b.recover (daemonNet helper schedule) s.world).ok with
          | false =>
              have hstill := DaemonSscBackend.recover_not_isConnected hok
              simp only [SscEncoder.isConnected] at hup
              rw [hstill] at hup
              contradiction
          | true => apply (hfresh hok).toIdle
        · intro hok
          constructor
          · apply DaemonSscBackend.startDaemon_isConnected hok
          · apply (hfresh hok).served_eq

/-- A call in which no call on the socket falls short returns the answer to its own
frame. -/
theorem InStep.encode {s : Session} (h : s.InStep) {call : EncodeCall}
    (hsound : ∀ event ∈ (s.encode helper schedule call).reply.events, event.sound = true) :
  Answered helper s.history (s.frame call) (s.encode helper schedule call)
  := by
  rw [Session.encode] at hsound ⊢
  rcases SscEncoder.encode_cases (daemonNet helper schedule) s.encoder s.world call with
    hr | ⟨hup, hr⟩ | ⟨hdown, hok, hr⟩ | ⟨hdown, hr⟩
  · rw [hr]
    apply h.answered
  · rw [hr] at hsound ⊢
    have hhistory : s.history = s.world.client.served := by
      rw [history, if_pos hup]
    rw [hhistory]
    apply h.encodeConnected hup hsound
  · rw [hr] at hsound ⊢
    obtain ⟨hinStep, hchannels, hup⟩ := @InStep.recover helper schedule s h hdown call.now
    obtain ⟨hconnected, hserved⟩ := hup hok
    have hhistory : s.history = [] := by
      rw [history, hdown, if_neg Bool.false_ne_true]
    have hframe : s.frame call = frame ⟨(s.encoder.recover (daemonNet helper schedule)
        s.world call.now).encoder, (s.encoder.recover (daemonNet helper schedule)
        s.world call.now).world⟩ call := by
      simp only [frame, hchannels]
    rw [hhistory, ← hserved, hframe]
    apply hinStep.encodeConnected hconnected hsound
  · rw [hr]
    apply (h.recover hdown call.now).1.answered

/-- On a connection at the beginning of a request, no call returns anything but the answer
to its own frame. -/
theorem InStep.corresponds {s : Session} (h : s.InStep) (call : EncodeCall) :
  s.Corresponds helper schedule call
  := by
  intro hpayload
  apply (h.encode _).answers hpayload
  apply SscEncoder.encode_sound
  by_contra hok
  apply hpayload
  apply SscEncoder.encode_payload_eq_nil (Bool.eq_false_of_not_eq_true hok)

theorem InStep.next {s t : Session} (h : s.InStep) {call : EncodeCall}
    (hcarried : s.Carried helper schedule call) (hnext : s.next helper schedule call = some t) :
  t.InStep
  := by
  obtain rfl := Option.some.inj hnext
  apply (h.encode hcarried.1).inStep hcarried.2

/-- In a run whose exchanges are carried to their end, every call that returns a payload
returns the one of the answer to its own frame, and so does every call behind the run. -/
theorem corresponds_of_carried {native : Bool} {overrideKbps : Nat} {quality : EncoderQuality}
    {sampleRate channels : Nat} {calls : List EncodeCall} {s : Session}
    (h : Run (next helper schedule) (Carried helper schedule)
      (start helper schedule native overrideKbps quality sampleRate channels) calls s) :
  (∀ t call u, Takes (next helper schedule)
      (start helper schedule native overrideKbps quality sampleRate channels) calls t call u →
    t.Corresponds helper schedule call)
    ∧ ∀ call, s.Corresponds helper schedule call
  := by
  have hinStep : ∀ {before t}, Run (next helper schedule) (Carried helper schedule)
      (start helper schedule native overrideKbps quality sampleRate channels) before t →
      t.InStep := by
    intro before t ht
    apply ht.invariant (I := InStep)
    · apply start_inStep
    · intro s call t hs hcarried hnext
      apply hs.next hcarried hnext
  constructor
  · intro t call u htakes
    obtain ⟨⟨before, hbefore⟩, -, -⟩ := h.of_takes htakes
    apply (hinStep hbefore).corresponds call
  · intro call
    apply (hinStep h).corresponds call

/-- An encoder process that answers every frame with one byte, its number. -/
def countingHelper : Helper :=
  fun served _ => ⟨1, [UInt8.ofNat (served.length + 1)], by decide, by decide, fun _ => rfl⟩

/-- A schedule in which everything succeeds, but nothing has arrived at the call number
`late`. -/
def lateSchedule (late : Nat) : Schedule where
  works _ := true
  taken _ := 4096
  arrived i := if i = late then 0 else 4096

/-- The answer to the first frame has not arrived when its result is read; the next call
reads it. -/
theorem lateSchedule_stale :
  (exec (next countingHelper (lateSchedule 7))
      (start countingHelper (lateSchedule 7) false 0 .high 48000 1) [silentFrame 6000]).map
      (fun t => (t.history.length,
        (t.encode countingHelper (lateSchedule 7) (silentFrame 11018)).reply.payload))
    = some (1, [1])
  := by
  decide +kernel

/-- A late answer is returned as the one to the next frame. -/
theorem not_corresponds_late :
  ¬ ∀ (helper : Helper) (schedule : Schedule) (native : Bool) (overrideKbps : Nat)
    (quality : EncoderQuality) (sampleRate channels : Nat) (calls : List EncodeCall) (s : Session),
    Run (next helper schedule) always
        (start helper schedule native overrideKbps quality sampleRate channels) calls s →
      ∀ t call u, Takes (next helper schedule)
          (start helper schedule native overrideKbps quality sampleRate channels) calls t call u →
        t.Corresponds helper schedule call
  := by
  intro hall
  obtain ⟨t, ht, hstale⟩ := Option.map_eq_some_iff.mp lateSchedule_stale
  obtain ⟨hhistory, hpayload⟩ := Prod.mk.inj hstale
  have hrun := run_of_exec ht
  obtain ⟨u, hu⟩ : ∃ u, t.next countingHelper (lateSchedule 7) (silentFrame 11018) = some u :=
    ⟨_, rfl⟩
  have hcorresponds := hall countingHelper (lateSchedule 7) false 0 .high 48000 1 _ u
    (hrun.snoc trivial hu) t (silentFrame 11018) u ⟨_, [], rfl, hrun, hu⟩
  obtain ⟨-, hown⟩ := hcorresponds (by rw [hpayload]; decide)
  rw [hpayload] at hown
  simp [countingHelper, hhistory] at hown

/-- Two frames whose answers arrive in time are both answered with their own payload. -/
theorem corresponds_inTime :
  ∃ s, exec (next countingHelper (lateSchedule 0))
      (start countingHelper (lateSchedule 0) false 0 .high 48000 1)
      [silentFrame 6000, silentFrame 6018] = some s
    ∧ (∀ t call u, Takes (next countingHelper (lateSchedule 0))
        (start countingHelper (lateSchedule 0) false 0 .high 48000 1)
        [silentFrame 6000, silentFrame 6018] t call u →
      t.Corresponds countingHelper (lateSchedule 0) call)
    ∧ ∀ call, s.Corresponds countingHelper (lateSchedule 0) call
  := by
  have hsome : (exec (guarded (next countingHelper (lateSchedule 0))
      (Carried countingHelper (lateSchedule 0)))
      (start countingHelper (lateSchedule 0) false 0 .high 48000 1)
      [silentFrame 6000, silentFrame 6018]).isSome := by
    decide +kernel
  obtain ⟨s, hs⟩ := Option.isSome_iff_exists.mp hsome
  have hrun := run_of_exec_guarded hs
  use s, hrun.exec_eq
  apply corresponds_of_carried hrun

end Session

end Ssc
