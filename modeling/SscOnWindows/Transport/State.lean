import SscOnWindows.Codec.Negotiation
import SscOnWindows.Lib.CircularQueue

/-!
# The state of the transport

The fields of `BtStackTransport`, the handlers that the BTstack thread runs on them, and
the enqueueing half of `send_media`.  `registered` says that `instance_` is set.  A Windows
event object is the flag of its signal:
`SetEvent` sets it, `ResetEvent` clears it, and a wait that an auto-reset event satisfies
clears it too.

What a handler does besides changing the state is returned as a list of observations.
-/

namespace Ssc

/-- `MediaPacket`: one slot of the media queue. -/
structure MediaPacket where
  data : List UInt8 := []
  size : Nat := 0
  timestamp : Nat := 0
  frames : UInt8 := 0
  deriving DecidableEq, Repr

/-- `BtStackTransport::RemoteCodecCaps`. -/
structure RemoteCodecCaps where
  sbc : Bool := false
  aac : Bool := false
  ssc : Bool := false
  sbcSeid : Nat := 0
  aacSeid : Nat := 0
  sscSeid : Nat := 0
  sscCap : UInt8 := 0
  sscUhq : Bool := false
  deriving DecidableEq, Repr

/-- `BtStackTransport::DiscoveredDevice`. -/
structure DiscoveredDevice where
  address : List UInt8
  name : List UInt8
  cod : Nat
  rssi : Int
  deriving DecidableEq, Repr

/-- `MEDIA_QUEUE_CAPACITY`. -/
def mediaQueueCapacity : Nat := 64

/-- `sizeof(MediaPacket::data)`. -/
def mediaSlotSize : Nat := 1024

/-- The public calls that wait for the BTstack thread. -/
inductive ApiFn where
  | init
  | scanDevices
  | connectA2dp
  | configureCodec
  | startStream
  | stopStream
  | disconnect
  | reconnect
  | shutdown
  deriving DecidableEq, Repr

/-- The BTstack function a `RunLoopRequest` runs on the BTstack thread; `powerOn` is the
one the thread itself runs when `init` creates it. -/
inductive RequestKind where
  | powerOn
  | inquiryStart (duration : Nat)
  | inquiryStop
  | establishStream
  | setConfig (codec : AudioCodec) (info : List UInt8)
  | startStream
  | pauseStream
  | disconnect
  | powerOff
  deriving DecidableEq, Repr

/-- Where the worker is in a call: waiting for `done_event` of a request, whose
`u8_result` is there once its callback has run, in `wait_for_event`, or behind it with
its result. -/
inductive Phase where
  | dispatched (result : Option Nat)
  | waiting
  | woken (signalled : Bool)
  deriving DecidableEq, Repr

/-- A call in progress: the public function, the request it is at, the number of that
request, and the phase. -/
structure Call where
  fn : ApiFn
  kind : RequestKind
  request : Nat
  phase : Phase
  deriving DecidableEq, Repr

/-- A callback in the list of the run loop. -/
inductive RunLoopCallback where
  | request (number : Nat) (kind : RequestKind)
  | mediaTrigger
  deriving DecidableEq, Repr

/-- The fields of `BtStackTransport`, the callbacks queued in its run loop, whether the
encode thread is between the two halves of `send_media`, and the call the worker thread
is in. -/
structure Transport where
  registered : Bool := false
  running : Bool := false
  hciReady : Bool := false
  connected : Bool := false
  streaming : Bool := false
  disconnectOccurred : Bool := false
  initEvent : Bool := false
  connectEvent : Bool := false
  streamEvent : Bool := false
  startEvent : Bool := false
  disconnectEvent : Bool := false
  inquiryEvent : Bool := false
  cancelEvent : Bool := false
  initResult : Bool := false
  connectResult : Bool := false
  streamResult : Bool := false
  startResult : Bool := false
  a2dpCid : Nat := 0
  avrcpCid : Nat := 0
  localSeid : Nat := 0
  remoteSeid : Nat := 0
  mediaMtu : Nat := 0
  sbcLocalSeid : Nat := 0
  aacLocalSeid : Nat := 0
  sscLocalSeid : Nat := 0
  remoteCaps : RemoteCodecCaps := {}
  selectedCodec : AudioCodec := .ssc
  sampleRate : Nat := 48000
  channels : Nat := 2
  remoteAddrBe : List UInt8 := []
  hasRemoteAddr : Bool := false
  inquiryActive : Bool := false
  inquiryFoundCount : Nat := 0
  discoveredDevices : List DiscoveredDevice := []
  sendFailureCount : Nat := 0
  mediaQueue : CircularQueue MediaPacket := CircularQueue.empty {}
  mediaTriggerPending : Bool := false
  runLoop : List RunLoopCallback := []
  requests : Nat := 0
  sending : Bool := false
  call : Option Call := none

/-- What a step of the transport shows outside. -/
inductive Obs where
  | accepted (packet : MediaPacket)
  | rejected
  | dequeued (packet : MediaPacket)
  | cleared
  | canSendRequested
  | returned (fn : ApiFn) (ok : Bool)
  | orphaned (number : Nat)
  deriving DecidableEq, Repr

namespace Transport

/-! ### Media -/

/-- The payload `send_media` builds in a slot: for SBC a header byte with the frame count
in its low four bits before the data, for the other codecs the data alone.  `none` when
it does not fit in the slot. -/
def buildPacket (data : List UInt8) (timestamp : Nat) (frames : UInt8) (codec : AudioCodec) :
    Option MediaPacket :=
  match codec with
  | .sbc =>
      if (data.length + 1) % 2 ^ 32 > mediaSlotSize then none
      else some ⟨(frames &&& 0x0F) :: data, (data.length + 1) % 2 ^ 32, timestamp, frames⟩
  | _ =>
      if data.length > mediaSlotSize then none
      else some ⟨data, data.length, timestamp, frames⟩

/-- `send_failure_count_.fetch_add(1)`. -/
def sendFailed (t : Transport) : Transport :=
  { t with sendFailureCount := t.sendFailureCount + 1 }

/-- `send_media` up to the release of `send_mutex_`: the result is `false` when the call
returns `false`, and else the call goes on to the trigger. -/
def enqueueMedia (t : Transport) (data : List UInt8) (timestamp : Nat) (frames : UInt8)
    (codec : AudioCodec) : Transport × List Obs :=
  if t.streaming = false then (t, [.rejected])
  else if t.mediaQueue.count ≥ mediaQueueCapacity then (t.sendFailed, [.rejected])
  else
    match buildPacket data timestamp frames codec with
    | none => (t.sendFailed, [.rejected])
    | some packet =>
        match t.mediaQueue.push mediaQueueCapacity packet with
        | none => (t.sendFailed, [.rejected])
        | some queue => ({ t with mediaQueue := queue, sending := true }, [.accepted packet])

/-- The trigger at the end of `send_media`: the callback is queued unless one is. -/
def triggerMedia (t : Transport) : Transport :=
  if t.mediaTriggerPending then { t with sending := false }
  else
    { t with
      sending := false
      mediaTriggerPending := true
      runLoop := t.runLoop ++ [.mediaTrigger] }

/-- The callback `send_media` queues. -/
def mediaTrigger (t : Transport) : Transport × List Obs :=
  ({ t with mediaTriggerPending := false },
    if t.streaming = true ∧ t.a2dpCid ≠ 0 then [.canSendRequested] else [])

/-- `A2DP_SUBEVENT_STREAMING_CAN_SEND_MEDIA_PACKET_NOW`, with what
`a2dp_max_media_payload_size` and the send return: one packet is dequeued and sent, and
the next can-send event is requested when more packets are there. -/
def canSendNow (t : Transport) (maxPayload : Int) (status : Nat) : Transport × List Obs :=
  match t.mediaQueue.pop mediaQueueCapacity with
  | none => (t, [])
  | some (packet, queue) =>
      let sent := maxPayload > 0 ∧ (packet.size : Int) ≤ maxPayload ∧ status = 0
      let t := if sent then t else t.sendFailed
      ({ t with mediaQueue := queue },
        .dequeued packet :: if queue.count > 0 then [.canSendRequested] else [])

/-! ### Events -/

/-- `read_vendor_id`. -/
def readVendorId (info : List UInt8) : UInt32 :=
  (info.getD 0 0).toUInt32 ||| ((info.getD 1 0).toUInt32 <<< 8)
    ||| ((info.getD 2 0).toUInt32 <<< 16) ||| ((info.getD 3 0).toUInt32 <<< 24)

/-- `read_codec_id`. -/
def readCodecId (info : List UInt8) : UInt16 :=
  (info.getD 4 0).toUInt16 ||| ((info.getD 5 0).toUInt16 <<< 8)

/-- `A2DP_SUBEVENT_SIGNALING_MEDIA_CODEC_OTHER_CAPABILITY`. -/
def otherCapability (caps : RemoteCodecCaps) (seid : Nat) (info : List UInt8) : RemoteCodecCaps :=
  if info.length ≥ 6 then
    if readVendorId info = sscVendorId ∧ readCodecId info = sscCodecId then
      if info.length ≥ 7 then
        { caps with
          ssc := true
          sscSeid := seid
          sscCap := info.getD 6 0
          sscUhq := (info.getD 6 0) &&& 0x02 != 0 }
      else { caps with ssc := true, sscSeid := seid }
    else caps
  else caps

/-- The events of BTstack that change the state of the transport, with the fields the
handlers read and what the BTstack functions they call return. -/
inductive Event where
  | hciWorking
  | hciOff
  | inquiryResult (device : DiscoveredDevice)
  | inquiryComplete
  | hciDisconnectionComplete
  | signalingConnectionEstablished (status cid : Nat)
  | otherCapability (seid : Nat) (info : List UInt8)
  | sbcCapability (seid : Nat)
  | aacCapability (seid : Nat)
  | capabilitiesComplete
  | streamEstablished (status localSeid remoteSeid : Nat) (maxPayload : Int)
  | streamStarted
  | canSendMediaPacketNow (maxPayload : Int) (status : Nat)
  | streamSuspended
  | streamReleased
  | signalingConnectionReleased
  | avrcpConnectionEstablished (status cid : Nat)
  | avrcpConnectionReleased
  deriving DecidableEq, Repr

/-- `GAP_EVENT_INQUIRY_RESULT`. -/
def inquiryResult (t : Transport) (device : DiscoveredDevice) : Transport :=
  if t.inquiryActive then
    { t with
      inquiryFoundCount := t.inquiryFoundCount + 1
      discoveredDevices := t.discoveredDevices ++ [device] }
  else t

/-- `HCI_EVENT_DISCONNECTION_COMPLETE`. -/
def hciDisconnectionComplete (t : Transport) : Transport × List Obs :=
  if t.connected = true ∨ t.streaming = true then
    ({ t with
        streaming := false
        connected := false
        mediaQueue := t.mediaQueue.forget
        disconnectOccurred := true }, [.cleared])
  else (t, [])

/-- `A2DP_SUBEVENT_SIGNALING_CONNECTION_ESTABLISHED`. -/
def signalingConnectionEstablished (t : Transport) (status cid : Nat) : Transport :=
  if status ≠ 0 then { t with a2dpCid := cid, connectResult := false, connectEvent := true }
  else { t with a2dpCid := cid }

/-- `A2DP_SUBEVENT_STREAM_ESTABLISHED`. -/
def streamEstablished (t : Transport) (status localSeid remoteSeid : Nat) (maxPayload : Int) :
    Transport :=
  if status ≠ 0 then { t with streamResult := false, streamEvent := true }
  else
    { t with
      localSeid := localSeid
      remoteSeid := remoteSeid
      mediaMtu := if maxPayload > 0 then maxPayload.toNat % 2 ^ 16 else 679
      streamResult := true
      streamEvent := true }

/-- `A2DP_SUBEVENT_SIGNALING_CONNECTION_RELEASED`. -/
def signalingConnectionReleased (t : Transport) : Transport × List Obs :=
  ({ t with
      connected := false
      streaming := false
      mediaQueue := t.mediaQueue.forget
      a2dpCid := 0
      avrcpCid := 0
      disconnectOccurred := true
      disconnectEvent := true }, [.cleared])

/-- `handle_packet`, `handle_a2dp_event` and `handle_avrcp_event`. -/
def handleEvent (t : Transport) : Event → Transport × List Obs
  | .hciWorking => ({ t with hciReady := true, initResult := true, initEvent := true }, [])
  | .hciOff => ({ t with hciReady := false, initEvent := true }, [])
  | .inquiryResult device => (t.inquiryResult device, [])
  | .inquiryComplete => ({ t with inquiryActive := false, inquiryEvent := true }, [])
  | .hciDisconnectionComplete => t.hciDisconnectionComplete
  | .signalingConnectionEstablished status cid => (t.signalingConnectionEstablished status cid, [])
  | .otherCapability seid info =>
      ({ t with remoteCaps := otherCapability t.remoteCaps seid info }, [])
  | .sbcCapability seid =>
      ({ t with remoteCaps := { t.remoteCaps with sbc := true, sbcSeid := seid } }, [])
  | .aacCapability seid =>
      ({ t with remoteCaps := { t.remoteCaps with aac := true, aacSeid := seid } }, [])
  | .capabilitiesComplete =>
      ({ t with connected := true, connectResult := true, connectEvent := true }, [])
  | .streamEstablished status localSeid remoteSeid maxPayload =>
      (t.streamEstablished status localSeid remoteSeid maxPayload, [])
  | .streamStarted =>
      ({ t with
          streaming := true
          startResult := true
          startEvent := true }, [.canSendRequested])
  | .canSendMediaPacketNow maxPayload status => t.canSendNow maxPayload status
  | .streamSuspended => ({ t with streaming := false }, [])
  | .streamReleased => ({ t with streaming := false }, [])
  | .signalingConnectionReleased => t.signalingConnectionReleased
  | .avrcpConnectionEstablished status cid =>
      (if status ≠ 0 then t else { t with avrcpCid := cid }, [])
  | .avrcpConnectionReleased => ({ t with avrcpCid := 0 }, [])

end Transport

end Ssc
