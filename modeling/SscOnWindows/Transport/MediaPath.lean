import SscOnWindows.Lib.Machine
import SscOnWindows.Transport.Pieces

/-!
# The media path step by step

Any number of threads may be in `send_media`, and the BTstack thread may be anywhere
between two accesses to the shared fields: in the callback of the media trigger, in the
handler of a can-send event, of a started stream or of a lost connection.  The calls of
the worker are taken from the transport, one piece at a time.

A can-send request that BTstack accepts is outstanding until its event comes; it may be
lost while no stream is started.

The callback of the media trigger asks for the identifier of the connection and the handler of
a started stream does not.  `disconnect` clears the identifier when its wait is over, with or
without the event it waits for; a stream that starts behind that is taken as started, and no
packet of it ever leaves the queue.
-/

namespace Ssc

open Machine

namespace Transport

/-! ### The accesses of a handler one by one -/

/-- `send_media` under `send_mutex_`, and whether the packet is in the queue. -/
def enqueueLocked (t : Transport) (data : List UInt8) (timestamp : Nat) (frames : UInt8)
    (codec : AudioCodec) : Transport × Bool :=
  if t.mediaQueue.count ≥ mediaQueueCapacity then (t.sendFailed, false)
  else
    match buildPacket data timestamp frames codec with
    | none => (t.sendFailed, false)
    | some packet =>
        match t.mediaQueue.push mediaQueueCapacity packet with
        | none => (t.sendFailed, false)
        | some queue => ({ t with mediaQueue := queue }, true)

/-- The handler of a can-send event up to its last look at the queue. -/
def dequeuePacket (t : Transport) (maxPayload : Int) (status : Nat) : Transport :=
  match t.mediaQueue.pop mediaQueueCapacity with
  | none => t
  | some (packet, queue) =>
      let sent := maxPayload > 0 ∧ (packet.size : Int) ≤ maxPayload ∧ status = 0
      let t := if sent then t else t.sendFailed
      { t with mediaQueue := queue }

/-- The handler of a lost connection behind its store to `streaming_`; `released` is true
for the signaling connection. -/
def connectionLost (t : Transport) (released : Bool) : Transport :=
  if released then
    { t with
      connected := false
      mediaQueue := t.mediaQueue.forget
      a2dpCid := 0
      avrcpCid := 0
      disconnectOccurred := true
      disconnectEvent := true }
  else
    { t with
      connected := false
      mediaQueue := t.mediaQueue.forget
      disconnectOccurred := true }

/-- The locked part and the check before it are the first half of `send_media`. -/
theorem enqueueMedia_eq (t : Transport) (data : List UInt8) (timestamp : Nat) (frames : UInt8)
    (codec : AudioCodec) :
  (t.enqueueMedia data timestamp frames codec).1
    = if t.streaming = false then t
      else
        { (t.enqueueLocked data timestamp frames codec).1 with
          sending := (t.enqueueLocked data timestamp frames codec).2 || t.sending }
  := by
  rw [enqueueMedia, enqueueLocked]
  by_cases hstreaming : t.streaming = false
  · rw [if_pos hstreaming, if_pos hstreaming]
  · rw [if_neg hstreaming, if_neg hstreaming]
    by_cases hfull : t.mediaQueue.count ≥ mediaQueueCapacity
    · rw [if_pos hfull, if_pos hfull]
      rfl
    · rw [if_neg hfull, if_neg hfull]
      cases buildPacket data timestamp frames codec with
      | none => rfl
      | some packet =>
          dsimp only
          cases t.mediaQueue.push mediaQueueCapacity packet with
          | none => rfl
          | some queue => rfl

/-- The dequeue and the request that follows when the queue is not empty are the handler of
a can-send event. -/
theorem canSendNow_eq (t : Transport) (maxPayload : Int) (status : Nat) :
  (t.canSendNow maxPayload status).1 = t.dequeuePacket maxPayload status
    ∧ (.canSendRequested ∈ (t.canSendNow maxPayload status).2
        ↔ (t.dequeuePacket maxPayload status).mediaQueue.count > 0)
  := by
  rw [canSendNow, dequeuePacket]
  cases hpop : t.mediaQueue.pop mediaQueueCapacity with
  | none =>
      rw [CircularQueue.pop] at hpop
      split at hpop
      · contradiction
      · rename_i hempty
        simpa using hempty
  | some item =>
      constructor
      · rfl
      · dsimp only
        by_cases hmore : item.2.count > 0
        · simp [hmore]
        · simp [hmore]

/-- The two halves of the handler of a lost connection. -/
theorem signalingConnectionReleased_eq (t : Transport) :
  t.signalingConnectionReleased.1
    = { t with connected := false, streaming := false }.connectionLost true
  := rfl

theorem hciDisconnectionComplete_eq (t : Transport) (h : t.connected = true ∨ t.streaming = true) :
  t.hciDisconnectionComplete.1 = { t with streaming := false }.connectionLost false
  := by
  rw [hciDisconnectionComplete, if_pos h]
  rfl

end Transport

/-! ### The machine -/

/-- Where the BTstack thread is: between two callbacks, in the callback of the media trigger
before and behind its first store, in the handler of a can-send event before and behind the
dequeue, in the handler of a started stream behind its store to `streaming_`, or in that of
a lost connection behind it. -/
inductive RunLoopPoint where
  | idle
  | trigger
  | triggerCleared
  | canSend
  | dequeued
  | started
  | lost (released : Bool)
  deriving DecidableEq, Repr

/-- The transport, the numbers of threads in `send_media` that have seen it streaming, that
have enqueued a packet and that have set `media_trigger_pending_`, the point the BTstack
thread is at, and the number of can-send requests BTstack has accepted and not answered. -/
structure MediaPath where
  transport : Transport
  checked : Nat := 0
  enqueued : Nat := 0
  claimed : Nat := 0
  thread : RunLoopPoint := .idle
  outstanding : Nat := 0

/-- A step of one of the threads; `accepted` is BTstack's answer to a can-send request. -/
inductive MediaAction where
  | sendCheck
  | sendEnqueue (data : List UInt8) (timestamp : Nat) (frames : UInt8) (codec : AudioCodec)
  | sendClaim
  | sendQueue
  | popTrigger
  | clearPending
  | checkTrigger (accepted : Bool)
  | canSendEvent
  | dequeue (maxPayload : Int) (status : Nat)
  | chain (accepted : Bool)
  | streamStarted
  | requestFirst (accepted : Bool)
  | connectionLost (released : Bool)
  | clearQueue
  | event (e : Transport.Event)
  | runRequest (status : Nat) (cid : Option Nat)
  | caller (a : Action)
  | requestsLost

namespace MediaPath

/-- `a2dp_source_stream_endpoint_request_can_send_now`. -/
def request (m : MediaPath) (accepted : Bool) : MediaPath :=
  { m with outstanding := m.outstanding + if accepted then 1 else 0 }

/-- The transport behind the registration of its stream endpoints, with no thread in the media
path. -/
def start (sbcSeid aacSeid sscSeid : Nat) : MediaPath where
  transport := { sbcLocalSeid := sbcSeid, aacLocalSeid := aacSeid, sscLocalSeid := sscSeid }

/-- The event has a handler whose accesses are steps of their own. -/
def splitEvent : Transport.Event → Bool
  | .canSendMediaPacketNow _ _ | .streamStarted | .hciDisconnectionComplete
  | .signalingConnectionReleased => true
  | _ => false

/-- One step of the media path. -/
def next (m : MediaPath) : MediaAction → Option MediaPath
  | .sendCheck =>
      if m.transport.streaming then some { m with checked := m.checked + 1 } else some m
  | .sendEnqueue data timestamp frames codec =>
      if m.checked > 0 then
        let r := m.transport.enqueueLocked data timestamp frames codec
        some { m with
          transport := r.1
          checked := m.checked - 1
          enqueued := m.enqueued + if r.2 then 1 else 0 }
      else none
  | .sendClaim =>
      if m.enqueued > 0 then
        if m.transport.mediaTriggerPending then some { m with enqueued := m.enqueued - 1 }
        else
          some { m with
            transport := { m.transport with mediaTriggerPending := true }
            enqueued := m.enqueued - 1
            claimed := m.claimed + 1 }
      else none
  | .sendQueue =>
      if m.claimed > 0 then
        some { m with
          transport := { m.transport with runLoop := m.transport.runLoop ++ [.mediaTrigger] }
          claimed := m.claimed - 1 }
      else none
  | .popTrigger =>
      match m.thread, m.transport.runLoop with
      | .idle, .mediaTrigger :: rest =>
          some { m with transport := { m.transport with runLoop := rest }, thread := .trigger }
      | _, _ => none
  | .clearPending =>
      if m.thread = .trigger then
        some { m with
          transport := { m.transport with mediaTriggerPending := false }
          thread := .triggerCleared }
      else none
  | .checkTrigger accepted =>
      if m.thread = .triggerCleared then
        if m.transport.streaming = true ∧ m.transport.a2dpCid ≠ 0 then
          some { m.request accepted with thread := .idle }
        else some { m with thread := .idle }
      else none
  | .canSendEvent =>
      if m.thread = .idle ∧ m.outstanding > 0 then
        some { m with outstanding := m.outstanding - 1, thread := .canSend }
      else none
  | .dequeue maxPayload status =>
      if m.thread = .canSend then
        some { m with
          transport := m.transport.dequeuePacket maxPayload status
          thread := .dequeued }
      else none
  | .chain accepted =>
      if m.thread = .dequeued then
        if m.transport.mediaQueue.count > 0 then some { m.request accepted with thread := .idle }
        else some { m with thread := .idle }
      else none
  | .streamStarted =>
      if m.thread = .idle then
        some { m with
          transport :=
            { m.transport with streaming := true, startResult := true, startEvent := true }
          thread := .started }
      else none
  | .requestFirst accepted =>
      if m.thread = .started then some { m.request accepted with thread := .idle } else none
  | .connectionLost released =>
      if m.thread = .idle then
        if released then
          some { m with
            transport := { m.transport with connected := false, streaming := false }
            thread := .lost true }
        else if m.transport.connected = true ∨ m.transport.streaming = true then
          some { m with
            transport := { m.transport with streaming := false }
            thread := .lost false }
        else some m
      else none
  | .clearQueue =>
      match m.thread with
      | .lost released =>
          some { m with transport := m.transport.connectionLost released, thread := .idle }
      | _ => none
  | .event e =>
      if m.thread = .idle ∧ splitEvent e = false then
        some { m with transport := (m.transport.handleEvent e).1 }
      else none
  | .runRequest status cid =>
      match m.thread, m.transport.runLoop with
      | .idle, .request _ _ :: _ =>
          (m.transport.runCallback status cid).map (fun r => { m with transport := r.1 })
      | _, _ => none
  | .caller a =>
      if a.ofCaller then (m.transport.step a).map (fun r => { m with transport := r.1 }) else none
  | .requestsLost =>
      if m.transport.streaming = false then some { m with outstanding := 0 } else none

/-- The connection identifier BTstack gives in the step. -/
def givenCid : MediaAction → Option Nat
  | .event (.signalingConnectionEstablished _ cid) => some cid
  | .runRequest _ cid => cid
  | _ => none

/-- BTstack's answer to the can-send request of the step. -/
def answer? : MediaAction → Option Bool
  | .checkTrigger accepted | .chain accepted | .requestFirst accepted => some accepted
  | _ => none

/-- What BTstack is documented to do: connection identifiers are not zero, and a can-send request
that names the connection of a started stream is accepted. -/
structure Documented (m : MediaPath) (a : MediaAction) : Prop where
  cid_ne : givenCid a ≠ some 0
  accepts : m.transport.streaming = true → m.transport.a2dpCid ≠ 0 → answer? a ≠ some false

instance (m : MediaPath) (a : MediaAction) : Decidable (m.Documented a) :=
  decidable_of_iff (givenCid a ≠ some 0
      ∧ (m.transport.streaming = true → m.transport.a2dpCid ≠ 0 → answer? a ≠ some false))
    ⟨fun h => ⟨h.1, h.2⟩, fun h => ⟨h.cid_ne, h.accepts⟩⟩

/-- The step is the start of a stream only while the transport holds the identifier of a
connection. -/
def Identified (m : MediaPath) : MediaAction → Prop
  | .streamStarted => m.transport.a2dpCid ≠ 0
  | _ => True

instance (m : MediaPath) : ∀ a, Decidable (m.Identified a)
  | .streamStarted => inferInstanceAs (Decidable (_ ≠ _))
  | .sendCheck | .sendEnqueue _ _ _ _ | .sendClaim | .sendQueue | .popTrigger | .clearPending
  | .checkTrigger _ | .canSendEvent | .dequeue _ _ | .chain _ | .requestFirst _
  | .connectionLost _ | .clearQueue | .event _ | .runRequest _ _ | .caller _ | .requestsLost =>
      inferInstanceAs (Decidable True)

/-- BTstack does as it is documented, and every stream that starts has its connection. -/
def Sound (m : MediaPath) (a : MediaAction) : Prop :=
  m.Documented a ∧ m.Identified a

instance (m : MediaPath) (a : MediaAction) : Decidable (m.Sound a) :=
  inferInstanceAs (Decidable (_ ∧ _))

/-- No thread is in the second half of `send_media`, and the BTstack thread is between two
callbacks. -/
def Quiescent (m : MediaPath) : Prop :=
  m.enqueued = 0 ∧ m.claimed = 0 ∧ m.thread = .idle

/-- No packet waits in the queue of a started stream without a trigger in the list of the run
loop or a can-send request that is outstanding. -/
def Served (m : MediaPath) : Prop :=
  m.Quiescent → m.transport.streaming = true → m.transport.mediaQueue.count > 0 →
    .mediaTrigger ∈ m.transport.runLoop ∨ m.outstanding > 0

/-! ### The registration of the trigger -/

/-- The registration is in the list of the run loop, or a sender is about to put it there,
or the callback runs and has not cleared the flag yet: one of these, and once, when
`media_trigger_pending_` is set, and none when it is not. -/
def Registered (m : MediaPath) : Prop :=
  m.transport.runLoop.count .mediaTrigger + m.claimed + (if m.thread = .trigger then 1 else 0)
    = if m.transport.mediaTriggerPending then 1 else 0

theorem Registered.of_eq {m m' : MediaPath} (h : m.Registered)
    (hcount : m'.transport.runLoop.count .mediaTrigger = m.transport.runLoop.count .mediaTrigger)
    (hpending : m'.transport.mediaTriggerPending = m.transport.mediaTriggerPending)
    (hclaimed : m'.claimed = m.claimed) (hthread : m'.thread = .trigger ↔ m.thread = .trigger) :
  m'.Registered
  := by
  rw [Registered, hcount, hpending, hclaimed, if_congr hthread rfl rfl]
  apply h

end MediaPath

theorem Piece.media {t : Transport} {r : Transport × List Obs} (h : Piece t r) :
  r.1.runLoop.count .mediaTrigger = t.runLoop.count .mediaTrigger
    ∧ r.1.mediaTriggerPending = t.mediaTriggerPending
    ∧ (r.1.streaming = true →
        t.streaming = true ∧ r.1.a2dpCid = t.a2dpCid ∧ r.1.mediaQueue = t.mediaQueue)
  := by
  refine ⟨?_, h.pending_eq, ?_⟩
  · obtain heq | ⟨number, kind, heq⟩ := h.runLoop_eq
    · rw [heq]
    · rw [heq, List.count_append]
      rfl
  · intro hr
    obtain ⟨hstreaming, hcid⟩ := h.streaming_of hr
    exact ⟨hstreaming, hcid, h.mediaQueue_eq⟩

namespace Transport

/-- What the calls leave of the media path. -/
theorem caller_media {t : Transport} {a : Action} {r : Transport × List Obs}
    (hcaller : a.ofCaller = true) (hstep : t.step a = some r) :
  r.1.runLoop.count .mediaTrigger = t.runLoop.count .mediaTrigger
    ∧ r.1.mediaTriggerPending = t.mediaTriggerPending
    ∧ (r.1.streaming = true →
        t.streaming = true ∧ r.1.a2dpCid = t.a2dpCid ∧ r.1.mediaQueue = t.mediaQueue)
  := by
  by_cases hreconnect : a = .reconnect
  · obtain rfl := hreconnect
    cases step_inv hstep with
    | reconnect =>
        obtain h | ⟨hstreaming, hpending, number, kind, hloop⟩ := reconnect_piece t
        · apply h.media
        · refine ⟨?_, hpending, ?_⟩
          · rw [hloop, List.count_append]
            rfl
          · intro hr
            rw [hstreaming] at hr
            contradiction
  · apply (step_piece hcaller hreconnect hstep).media

/-- What a handler without steps of its own leaves of the media path. -/
theorem handleEvent_media {t : Transport} {e : Event} (h : MediaPath.splitEvent e = false) :
  (t.handleEvent e).1.mediaQueue = t.mediaQueue
    ∧ (t.handleEvent e).1.runLoop = t.runLoop
    ∧ (t.handleEvent e).1.mediaTriggerPending = t.mediaTriggerPending
    ∧ ((t.handleEvent e).1.streaming = true → t.streaming = true)
    ∧ ((t.handleEvent e).1.a2dpCid = t.a2dpCid
        ∨ ∃ status cid, e = .signalingConnectionEstablished status cid
          ∧ (t.handleEvent e).1.a2dpCid = cid)
  := by
  cases e with
  | canSendMediaPacketNow | streamStarted | hciDisconnectionComplete
  | signalingConnectionReleased =>
      contradiction
  | signalingConnectionEstablished status cid =>
      rw [handleEvent, signalingConnectionEstablished]
      split
      · exact ⟨rfl, rfl, rfl, id, Or.inr ⟨status, cid, rfl, rfl⟩⟩
      · exact ⟨rfl, rfl, rfl, id, Or.inr ⟨status, cid, rfl, rfl⟩⟩
  | inquiryResult device =>
      rw [handleEvent, inquiryResult]
      split
      · exact ⟨rfl, rfl, rfl, id, Or.inl rfl⟩
      · exact ⟨rfl, rfl, rfl, id, Or.inl rfl⟩
  | streamEstablished status localSeid remoteSeid maxPayload =>
      rw [handleEvent, streamEstablished]
      split
      · exact ⟨rfl, rfl, rfl, id, Or.inl rfl⟩
      · exact ⟨rfl, rfl, rfl, id, Or.inl rfl⟩
  | avrcpConnectionEstablished status cid =>
      rw [handleEvent]
      split
      · exact ⟨rfl, rfl, rfl, id, Or.inl rfl⟩
      · exact ⟨rfl, rfl, rfl, id, Or.inl rfl⟩
  | streamSuspended | streamReleased => exact ⟨rfl, rfl, rfl, nofun, Or.inl rfl⟩
  | hciWorking | hciOff | inquiryComplete | otherCapability | sbcCapability | aacCapability
  | capabilitiesComplete | avrcpConnectionReleased => exact ⟨rfl, rfl, rfl, id, Or.inl rfl⟩

theorem answer_media (t : Transport) (number status : Nat) :
  (t.answer number status).1.mediaQueue = t.mediaQueue
    ∧ (t.answer number status).1.runLoop = t.runLoop
    ∧ (t.answer number status).1.mediaTriggerPending = t.mediaTriggerPending
    ∧ (t.answer number status).1.streaming = t.streaming
    ∧ (t.answer number status).1.a2dpCid = t.a2dpCid
  := by
  rw [answer.eq_def]
  split
  · split
    · exact ⟨rfl, rfl, rfl, rfl, rfl⟩
    · exact ⟨rfl, rfl, rfl, rfl, rfl⟩
  · exact ⟨rfl, rfl, rfl, rfl, rfl⟩

/-- What the callback of a request leaves of the media path. -/
theorem runRequest_media {t : Transport} {number : Nat} {kind : RequestKind}
    {rest : List RunLoopCallback} {status : Nat} {cid : Option Nat} {r : Transport × List Obs}
    (hloop : t.runLoop = .request number kind :: rest) (hrun : t.runCallback status cid = some r) :
  r.1.mediaQueue = t.mediaQueue ∧ r.1.runLoop = rest
    ∧ r.1.mediaTriggerPending = t.mediaTriggerPending ∧ r.1.streaming = t.streaming
    ∧ (r.1.a2dpCid = t.a2dpCid ∨ cid = some r.1.a2dpCid)
  := by
  rw [runCallback, hloop] at hrun
  dsimp only at hrun
  split at hrun
  · obtain rfl := Option.some.inj hrun
    obtain ⟨hqueue, hrest, hpending, hstreaming, hcid⟩ := answer_media
      { t with runLoop := rest, a2dpCid := cid.getD t.a2dpCid } number status
    refine ⟨hqueue, hrest, hpending, hstreaming, ?_⟩
    rw [hcid]
    cases cid with
    | none => exact Or.inl rfl
    | some cid => exact Or.inr rfl
  · obtain rfl := Option.some.inj hrun
    obtain ⟨hqueue, hrest, hpending, hstreaming, hcid⟩ := answer_media
      { t with runLoop := rest } number (storedStatus kind status)
    exact ⟨hqueue, hrest, hpending, hstreaming, Or.inl hcid⟩

end Transport

namespace MediaPath

theorem enqueueLocked_media (t : Transport) (data : List UInt8) (timestamp : Nat) (frames : UInt8)
    (codec : AudioCodec) :
  (t.enqueueLocked data timestamp frames codec).1.runLoop = t.runLoop
    ∧ (t.enqueueLocked data timestamp frames codec).1.mediaTriggerPending = t.mediaTriggerPending
    ∧ (t.enqueueLocked data timestamp frames codec).1.streaming = t.streaming
    ∧ (t.enqueueLocked data timestamp frames codec).1.a2dpCid = t.a2dpCid
    ∧ ((t.enqueueLocked data timestamp frames codec).2 = true
      ∨ (t.enqueueLocked data timestamp frames codec).1.mediaQueue = t.mediaQueue)
  := by
  rw [Transport.enqueueLocked]
  split
  · exact ⟨rfl, rfl, rfl, rfl, Or.inr rfl⟩
  · split
    · exact ⟨rfl, rfl, rfl, rfl, Or.inr rfl⟩
    · split
      · exact ⟨rfl, rfl, rfl, rfl, Or.inr rfl⟩
      · exact ⟨rfl, rfl, rfl, rfl, Or.inl rfl⟩

theorem dequeuePacket_media (t : Transport) (maxPayload : Int) (status : Nat) :
  (t.dequeuePacket maxPayload status).runLoop = t.runLoop
    ∧ (t.dequeuePacket maxPayload status).mediaTriggerPending = t.mediaTriggerPending
    ∧ (t.dequeuePacket maxPayload status).streaming = t.streaming
    ∧ (t.dequeuePacket maxPayload status).a2dpCid = t.a2dpCid
  := by
  rw [Transport.dequeuePacket]
  split
  · exact ⟨rfl, rfl, rfl, rfl⟩
  · dsimp only
    split
    · exact ⟨rfl, rfl, rfl, rfl⟩
    · exact ⟨rfl, rfl, rfl, rfl⟩

theorem connectionLost_media (t : Transport) (released : Bool) :
  (t.connectionLost released).runLoop = t.runLoop
    ∧ (t.connectionLost released).mediaTriggerPending = t.mediaTriggerPending
    ∧ (t.connectionLost released).streaming = t.streaming
  := by
  cases released with
  | false => exact ⟨rfl, rfl, rfl⟩
  | true => exact ⟨rfl, rfl, rfl⟩

/-- Every step keeps the registration in one place. -/
theorem registered_next {m m' : MediaPath} {a : MediaAction} (h : m.Registered)
    (hnext : m.next a = some m') :
  m'.Registered
  := by
  cases a with
  | sendCheck =>
      rw [next] at hnext
      split at hnext
      · obtain rfl := Option.some.inj hnext
        apply h.of_eq rfl rfl rfl Iff.rfl
      · obtain rfl := Option.some.inj hnext
        apply h
  | sendEnqueue data timestamp frames codec =>
      obtain ⟨-, hm⟩ := Option.ite_none_right_eq_some.mp hnext
      obtain rfl := Option.some.inj hm
      obtain ⟨hloop, hpending, -⟩ := enqueueLocked_media m.transport data timestamp frames codec
      exact h.of_eq (congrArg _ hloop) hpending rfl Iff.rfl
  | sendClaim =>
      obtain ⟨-, hm⟩ := Option.ite_none_right_eq_some.mp hnext
      split at hm
      · obtain rfl := Option.some.inj hm
        apply h.of_eq rfl rfl rfl Iff.rfl
      · rename_i hpending
        obtain rfl := Option.some.inj hm
        rw [Registered, if_neg hpending] at h
        rw [Registered, if_pos rfl]
        dsimp only
        omega
  | sendQueue =>
      obtain ⟨hclaimed, hm⟩ := Option.ite_none_right_eq_some.mp hnext
      obtain rfl := Option.some.inj hm
      rw [Registered] at h ⊢
      dsimp only
      rw [List.count_append, List.count_singleton_self]
      omega
  | popTrigger =>
      rw [next] at hnext
      split at hnext
      · rename_i rest hthread hloop
        obtain rfl := Option.some.inj hnext
        rw [Registered, hthread, hloop, List.count_cons_self, if_neg nofun] at h
        rw [Registered, if_pos rfl]
        dsimp only
        omega
      · contradiction
  | clearPending =>
      obtain ⟨hthread, hm⟩ := Option.ite_none_right_eq_some.mp hnext
      obtain rfl := Option.some.inj hm
      rw [Registered, if_pos hthread] at h
      rw [Registered, if_neg nofun, if_neg nofun]
      dsimp only
      split at h <;> omega
  | checkTrigger accepted =>
      obtain ⟨hthread, hm⟩ := Option.ite_none_right_eq_some.mp hnext
      split at hm
      · obtain rfl := Option.some.inj hm
        refine h.of_eq rfl rfl rfl ?_
        simp [hthread]
      · obtain rfl := Option.some.inj hm
        refine h.of_eq rfl rfl rfl ?_
        simp [hthread]
  | canSendEvent =>
      obtain ⟨⟨hthread, -⟩, hm⟩ := Option.ite_none_right_eq_some.mp hnext
      obtain rfl := Option.some.inj hm
      refine h.of_eq rfl rfl rfl ?_
      simp [hthread]
  | dequeue maxPayload status =>
      obtain ⟨hthread, hm⟩ := Option.ite_none_right_eq_some.mp hnext
      obtain rfl := Option.some.inj hm
      obtain ⟨hloop, hpending, -⟩ := dequeuePacket_media m.transport maxPayload status
      refine h.of_eq (congrArg _ hloop) hpending rfl ?_
      simp [hthread]
  | chain accepted =>
      obtain ⟨hthread, hm⟩ := Option.ite_none_right_eq_some.mp hnext
      split at hm
      · obtain rfl := Option.some.inj hm
        refine h.of_eq rfl rfl rfl ?_
        simp [hthread]
      · obtain rfl := Option.some.inj hm
        refine h.of_eq rfl rfl rfl ?_
        simp [hthread]
  | streamStarted | requestFirst =>
      obtain ⟨hthread, hm⟩ := Option.ite_none_right_eq_some.mp hnext
      obtain rfl := Option.some.inj hm
      refine h.of_eq rfl rfl rfl ?_
      simp [hthread]
  | connectionLost released =>
      obtain ⟨hthread, hm⟩ := Option.ite_none_right_eq_some.mp hnext
      split at hm
      · obtain rfl := Option.some.inj hm
        refine h.of_eq rfl rfl rfl ?_
        simp [hthread]
      · split at hm
        · obtain rfl := Option.some.inj hm
          refine h.of_eq rfl rfl rfl ?_
          simp [hthread]
        · obtain rfl := Option.some.inj hm
          apply h
  | clearQueue =>
      rw [next] at hnext
      split at hnext
      · rename_i released hthread
        obtain rfl := Option.some.inj hnext
        obtain ⟨hloop, hpending, -⟩ := connectionLost_media m.transport released
        refine h.of_eq (congrArg _ hloop) hpending rfl ?_
        simp [hthread]
      · contradiction
  | event e =>
      obtain ⟨⟨-, hsplit⟩, hm⟩ := Option.ite_none_right_eq_some.mp hnext
      obtain rfl := Option.some.inj hm
      obtain ⟨-, hloop, hpending, -⟩ := Transport.handleEvent_media (t := m.transport) hsplit
      exact h.of_eq (congrArg _ hloop) hpending rfl Iff.rfl
  | runRequest status cid =>
      rw [next] at hnext
      split at hnext
      · rename_i number kind rest hthread hloop
        obtain ⟨r, hrun, rfl⟩ := Option.map_eq_some_iff.mp hnext
        obtain ⟨-, hrest, hpending, -⟩ := Transport.runRequest_media hloop hrun
        refine h.of_eq ?_ hpending rfl Iff.rfl
        rw [hrest, hloop]
        rfl
      · contradiction
  | caller a =>
      obtain ⟨hcaller, hm⟩ := Option.ite_none_right_eq_some.mp hnext
      obtain ⟨r, hstep, rfl⟩ := Option.map_eq_some_iff.mp hm
      obtain ⟨hcount, hpending, -⟩ := Transport.caller_media hcaller hstep
      exact h.of_eq hcount hpending rfl Iff.rfl
  | requestsLost =>
      obtain ⟨-, hm⟩ := Option.ite_none_right_eq_some.mp hnext
      obtain rfl := Option.some.inj hm
      apply h.of_eq rfl rfl rfl Iff.rfl

/-! ### Nothing is forgotten -/

/-- Something is going to look at the queue: a sender that has enqueued a packet, the
registered trigger, a can-send event that is to come, or the thread itself. -/
def Works (m : MediaPath) : Prop :=
  m.enqueued > 0 ∨ m.transport.mediaTriggerPending = true ∨ m.outstanding > 0
    ∨ m.thread ∈ [.triggerCleared, .canSend, .dequeued, .started]

/-- While a stream is started, its connection is there, and something is going to look at a
queue that is not empty. -/
structure Awake (m : MediaPath) : Prop where
  cid_ne : m.transport.streaming = true → m.transport.a2dpCid ≠ 0
  lost : ∀ released, m.thread = .lost released → m.transport.streaming = false
  works : m.transport.streaming = true → m.transport.mediaQueue.count > 0 → m.Works

/-- A request on a started stream is outstanding. -/
theorem Awake.request {m : MediaPath} (h : m.Awake) {accepted : Bool}
    (hdoc : m.transport.streaming = true → m.transport.a2dpCid ≠ 0 → accepted = true) :
  Awake { m.request accepted with thread := .idle }
  where
  cid_ne := h.cid_ne
  lost := nofun
  works hstreaming _ := by
    have haccepted := hdoc hstreaming (h.cid_ne hstreaming)
    right
    right
    left
    simp [MediaPath.request, haccepted]

/-- Every sound step keeps the media path awake. -/
theorem awake_next {m m' : MediaPath} {a : MediaAction} (h : m.Awake) (hsound : m.Sound a)
    (hnext : m.next a = some m') :
  m'.Awake
  := by
  have haccepts {accepted : Bool} (ha : answer? a = some accepted)
      (hstreaming : m.transport.streaming = true) (hcid : m.transport.a2dpCid ≠ 0) :
      accepted = true := by
    have hno := hsound.1.accepts hstreaming hcid
    rw [ha] at hno
    simpa using hno
  cases a with
  | sendCheck =>
      rw [next] at hnext
      split at hnext
      · obtain rfl := Option.some.inj hnext
        exact ⟨h.cid_ne, h.lost, h.works⟩
      · obtain rfl := Option.some.inj hnext
        apply h
  | sendEnqueue data timestamp frames codec =>
      obtain ⟨-, hm⟩ := Option.ite_none_right_eq_some.mp hnext
      obtain rfl := Option.some.inj hm
      obtain ⟨hloop, hpending, hstreaming, hcid, hqueue⟩ :=
        enqueueLocked_media m.transport data timestamp frames codec
      refine ⟨?_, ?_, ?_⟩
      · dsimp only
        rw [hstreaming, hcid]
        apply h.cid_ne
      · intro released hthread
        dsimp only
        rw [hstreaming]
        apply h.lost released hthread
      · dsimp only
        rw [hstreaming]
        intro hs hcount
        rw [Works]
        dsimp only
        obtain hadded | hsame := hqueue
        · left
          rw [if_pos hadded]
          omega
        · rw [hsame] at hcount
          rw [hpending]
          obtain hw | hw := h.works hs hcount
          · left
            omega
          · right
            apply hw
  | sendClaim =>
      obtain ⟨-, hm⟩ := Option.ite_none_right_eq_some.mp hnext
      split at hm
      · rename_i hpending
        obtain rfl := Option.some.inj hm
        exact ⟨h.cid_ne, h.lost, fun _ _ => Or.inr (Or.inl hpending)⟩
      · obtain rfl := Option.some.inj hm
        exact ⟨h.cid_ne, h.lost, fun _ _ => Or.inr (Or.inl rfl)⟩
  | sendQueue =>
      obtain ⟨-, hm⟩ := Option.ite_none_right_eq_some.mp hnext
      obtain rfl := Option.some.inj hm
      exact ⟨h.cid_ne, h.lost, h.works⟩
  | popTrigger =>
      rw [next] at hnext
      split at hnext
      · rename_i rest hthread hloop
        obtain rfl := Option.some.inj hnext
        refine ⟨h.cid_ne, nofun, ?_⟩
        intro hs hcount
        obtain hw | hw | hw | hw := h.works hs hcount
        · exact Or.inl hw
        · exact Or.inr (Or.inl hw)
        · exact Or.inr (Or.inr (Or.inl hw))
        · rw [hthread] at hw
          simp at hw
      · contradiction
  | clearPending =>
      obtain ⟨-, hm⟩ := Option.ite_none_right_eq_some.mp hnext
      obtain rfl := Option.some.inj hm
      refine ⟨h.cid_ne, nofun, fun _ _ => ?_⟩
      simp [Works]
  | checkTrigger accepted =>
      obtain ⟨-, hm⟩ := Option.ite_none_right_eq_some.mp hnext
      split at hm
      · obtain rfl := Option.some.inj hm
        apply h.request (haccepts rfl)
      · rename_i hno
        obtain rfl := Option.some.inj hm
        refine ⟨h.cid_ne, nofun, ?_⟩
        intro hs
        exact absurd ⟨hs, h.cid_ne hs⟩ hno
  | canSendEvent =>
      obtain ⟨-, hm⟩ := Option.ite_none_right_eq_some.mp hnext
      obtain rfl := Option.some.inj hm
      refine ⟨h.cid_ne, nofun, fun _ _ => ?_⟩
      simp [Works]
  | dequeue maxPayload status =>
      obtain ⟨-, hm⟩ := Option.ite_none_right_eq_some.mp hnext
      obtain rfl := Option.some.inj hm
      obtain ⟨-, -, hstreaming, hcid⟩ := dequeuePacket_media m.transport maxPayload status
      refine ⟨?_, nofun, fun _ _ => ?_⟩
      · dsimp only
        rw [hstreaming, hcid]
        apply h.cid_ne
      · simp [Works]
  | chain accepted =>
      obtain ⟨-, hm⟩ := Option.ite_none_right_eq_some.mp hnext
      split at hm
      · obtain rfl := Option.some.inj hm
        apply h.request (haccepts rfl)
      · rename_i hempty
        obtain rfl := Option.some.inj hm
        exact ⟨h.cid_ne, nofun, fun _ hcount => absurd hcount hempty⟩
  | streamStarted =>
      obtain ⟨-, hm⟩ := Option.ite_none_right_eq_some.mp hnext
      obtain rfl := Option.some.inj hm
      refine ⟨fun _ => hsound.2, nofun, fun _ _ => ?_⟩
      simp [Works]
  | requestFirst accepted =>
      obtain ⟨-, hm⟩ := Option.ite_none_right_eq_some.mp hnext
      obtain rfl := Option.some.inj hm
      apply h.request (haccepts rfl)
  | connectionLost released =>
      obtain ⟨-, hm⟩ := Option.ite_none_right_eq_some.mp hnext
      split at hm
      · obtain rfl := Option.some.inj hm
        exact ⟨nofun, fun _ _ => rfl, nofun⟩
      · split at hm
        · obtain rfl := Option.some.inj hm
          exact ⟨nofun, fun _ _ => rfl, nofun⟩
        · obtain rfl := Option.some.inj hm
          apply h
  | clearQueue =>
      rw [next] at hnext
      split at hnext
      · rename_i released hthread
        obtain rfl := Option.some.inj hnext
        obtain ⟨-, -, hstreaming⟩ := connectionLost_media m.transport released
        have hno : (m.transport.connectionLost released).streaming = false :=
          hstreaming.trans (h.lost released hthread)
        refine ⟨?_, nofun, ?_⟩
        · intro hs
          exact absurd (hno.symm.trans hs) nofun
        · intro hs
          exact absurd (hno.symm.trans hs) nofun
      · contradiction
  | event e =>
      obtain ⟨⟨hthread, hsplit⟩, hm⟩ := Option.ite_none_right_eq_some.mp hnext
      obtain rfl := Option.some.inj hm
      obtain ⟨hqueue, -, hpending, hstreaming, hcid⟩ :=
        Transport.handleEvent_media (t := m.transport) hsplit
      refine ⟨?_, ?_, ?_⟩
      · intro hs
        dsimp only
        obtain hcid | ⟨status, cid, rfl, hcid⟩ := hcid
        · rw [hcid]
          apply h.cid_ne (hstreaming hs)
        · rw [hcid]
          rintro rfl
          apply hsound.1.cid_ne rfl
      · intro released hlost
        rw [hthread] at hlost
        contradiction
      · intro hs hcount
        dsimp only at hs hcount
        rw [hqueue] at hcount
        rw [Works]
        dsimp only
        rw [hpending]
        apply h.works (hstreaming hs) hcount
  | runRequest status cid =>
      rw [next] at hnext
      split at hnext
      · rename_i number kind rest hthread hloop
        obtain ⟨r, hrun, rfl⟩ := Option.map_eq_some_iff.mp hnext
        obtain ⟨hqueue, -, hpending, hstreaming, hcid⟩ := Transport.runRequest_media hloop hrun
        refine ⟨?_, ?_, ?_⟩
        · intro hs
          dsimp only
          obtain hcid | hcid := hcid
          · rw [hcid]
            apply h.cid_ne (hstreaming ▸ hs)
          · intro hzero
            apply hsound.1.cid_ne
            rw [← hzero]
            apply hcid
        · intro released hlost
          rw [hthread] at hlost
          contradiction
        · intro hs hcount
          dsimp only at hs hcount
          rw [hqueue] at hcount
          rw [Works]
          dsimp only
          rw [hpending]
          apply h.works (hstreaming ▸ hs) hcount
      · contradiction
  | caller a =>
      obtain ⟨hcaller, hm⟩ := Option.ite_none_right_eq_some.mp hnext
      obtain ⟨r, hstep, rfl⟩ := Option.map_eq_some_iff.mp hm
      obtain ⟨-, hpending, hstreaming⟩ := Transport.caller_media hcaller hstep
      refine ⟨?_, ?_, ?_⟩
      · intro hs
        obtain ⟨hs', hcid, -⟩ := hstreaming hs
        dsimp only
        rw [hcid]
        apply h.cid_ne hs'
      · intro released hlost
        by_contra hs
        have hs' := (hstreaming (by simpa using hs)).1
        rw [h.lost released hlost] at hs'
        contradiction
      · intro hs hcount
        obtain ⟨hs', -, hqueue⟩ := hstreaming hs
        dsimp only at hcount
        rw [hqueue] at hcount
        rw [Works]
        dsimp only
        rw [hpending]
        apply h.works hs' hcount
  | requestsLost =>
      obtain ⟨hno, hm⟩ := Option.ite_none_right_eq_some.mp hnext
      obtain rfl := Option.some.inj hm
      refine ⟨h.cid_ne, h.lost, ?_⟩
      intro hs
      exact absurd (hno.symm.trans hs) nofun

/-! ### Runs -/

/-- In every run the registration of the media trigger is in the list of the run loop at
most once, and no packet is left waiting when BTstack does as it is documented to do and every
stream that starts has its connection. -/
theorem noLostWakeup {sbcSeid aacSeid sscSeid : Nat} {as : List MediaAction} {m : MediaPath}
    (h : Run next always (start sbcSeid aacSeid sscSeid) as m) :
  m.transport.runLoop.count .mediaTrigger ≤ 1
    ∧ (Run next Sound (start sbcSeid aacSeid sscSeid) as m → m.Served)
  := by
  have hregistered : m.Registered := by
    apply h.invariant (I := Registered)
    · rfl
    · intro s a t hs _ hstep
      apply registered_next hs hstep
  rw [Registered] at hregistered
  constructor
  · split at hregistered <;> split at hregistered <;> omega
  · rintro hrun ⟨henqueued, hclaimed, hthread⟩ hstreaming hcount
    have hawake : m.Awake := by
      apply hrun.invariant (I := Awake)
      · exact ⟨nofun, nofun, nofun⟩
      · intro s a t hs hsound hstep
        apply awake_next hs hsound hstep
    obtain hw | hw | hw | hw := hawake.works hstreaming hcount
    · omega
    · left
      rw [hclaimed, hthread, if_neg nofun, if_pos hw] at hregistered
      apply List.count_pos_iff.mp
      omega
    · right
      apply hw
    · rw [hthread] at hw
      simp at hw

/-! ### Sessions -/

/-- The steps of the media path for a step of the transport. -/
def stepsOf : Action → List MediaAction
  | .event _ .streamStarted => [.streamStarted, .requestFirst true]
  | .event _ e => [.event e]
  | .runCallback status cid => [.runRequest status cid]
  | a => [.caller a]

/-- `send_media` with one packet, whose sender finds no trigger pending. -/
def sendFirst (data : List UInt8) : List MediaAction :=
  [.sendCheck, .sendEnqueue data 0 1 .ssc, .sendClaim, .sendQueue]

/-- A session whose first can-send event finds no packet. -/
def startedSession : List MediaAction :=
  (.event 0 .hciWorking :: sessionSetup 1 5).flatMap stepsOf
    ++ [.canSendEvent, .dequeue 672 0, .chain true]

/-- A `reconnect` that gives up on the start of the stream and on the disconnection. -/
def givenUpReconnect : List Action :=
  (sessionReconnect 2 6).take 15
    ++ [.waitTimeout, .resume, .runCallback 0 none, .doneWake, .waitTimeout, .resume]

/-- A stream that is lost and not set up again by `reconnect`; then it starts all the same, and a
packet is sent. -/
def lateStart : List MediaAction :=
  List.flatten [startedSession, [.connectionLost false, .clearQueue],
    givenUpReconnect.flatMap stepsOf, [.streamStarted, .requestFirst false], sendFirst [1, 2, 3],
    [.popTrigger, .clearPending, .checkTrigger false]]

/-- The packet waits and nothing is going to send it, though BTstack has done as it is documented
to do. -/
theorem not_served_lateStart :
  ¬ ∀ (sbcSeid aacSeid sscSeid : Nat) (as : List MediaAction) (m : MediaPath),
    Run next Documented (start sbcSeid aacSeid sscSeid) as m → m.Served
  := by
  intro hall
  have hend : (exec (guarded next Documented) (start 1 2 3) lateStart).map
      (fun m => ((m.enqueued, m.claimed, m.thread), m.transport.streaming,
        m.transport.mediaQueue.count, m.transport.runLoop, m.outstanding))
      = some ((0, 0, .idle), true, 1, [], 0) := by
    decide +kernel
  obtain ⟨m, hm, heq⟩ := Option.map_eq_some_iff.mp hend
  simp only [Prod.mk.injEq] at heq
  obtain ⟨hquiescent, hstreaming, hcount, hloop, houtstanding⟩ := heq
  have hwaits : m.transport.mediaQueue.count > 0 := by
    rw [hcount]
    decide
  have hserved := hall 1 2 3 lateStart m (run_of_exec_guarded hm) hquiescent hstreaming hwaits
  simp [hloop, houtstanding] at hserved

/-- Two packets that are sent in a session. -/
def twoPackets : List MediaAction :=
  List.flatten [startedSession, sendFirst [1, 2, 3],
    [.sendCheck, .sendEnqueue [4, 5, 6] 1 1 .ssc, .sendClaim]]

/-- The two packets are waiting for the trigger. -/
theorem noLostWakeup_twoPackets :
  ∃ m, Run next Sound (start 1 2 3) twoPackets m ∧ m.Quiescent ∧ m.transport.streaming = true
    ∧ m.transport.mediaQueue.count = 2
    ∧ (.mediaTrigger ∈ m.transport.runLoop ∨ m.outstanding > 0)
  := by
  have hend : (exec (guarded next Sound) (start 1 2 3) twoPackets).map
      (fun m => ((m.enqueued, m.claimed, m.thread), m.transport.streaming,
        m.transport.mediaQueue.count))
      = some ((0, 0, .idle), true, 2) := by
    decide +kernel
  obtain ⟨m, hm, heq⟩ := Option.map_eq_some_iff.mp hend
  simp only [Prod.mk.injEq] at heq
  obtain ⟨hquiescent, hstreaming, hcount⟩ := heq
  have hrun := run_of_exec_guarded hm
  use m, hrun, hquiescent, hstreaming, hcount
  apply (noLostWakeup hrun.toAlways).2 hrun hquiescent hstreaming
  omega

end MediaPath

end Ssc
