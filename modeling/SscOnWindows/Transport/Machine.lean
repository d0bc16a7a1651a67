import SscOnWindows.Transport.State

/-!
# The steps of the transport

The public calls are made one after the other.  A call queues a request in the run loop
of BTstack, waits for it, and may then wait for an event that a handler signals; between
two of its steps the BTstack thread runs callbacks and handlers, the encode thread sends
media, and the thread of the user interface may cancel the waits.  What BTstack answers
is part of the step.  Everything a call does between two waits is one step.
-/

namespace Ssc

/-- A step of one of the parties. -/
inductive Action where
  | init
  | scanDevices (durationSeconds : UInt8)
  | connectA2dp (remoteAddr : List UInt8)
  | configureCodec (codec : AudioCodec) (sampleRate channels : Nat)
  | startStream
  | stopStream
  | disconnect
  | reconnect
  | shutdown
  | runCallback (status : Nat) (cid : Option Nat)
  | doneWake
  | doneTimeout
  | eventWake
  | waitCancelled
  | waitTimeout
  | resume
  | cancelPendingWaits
  | checkDisconnected
  | event (attempt : Nat) (e : Transport.Event)
  | sendEnqueue (data : List UInt8) (timestamp : Nat) (frames : UInt8) (codec : AudioCodec)
  | sendTrigger
  deriving DecidableEq, Repr

namespace Transport

/-! ### The beginnings of the calls -/

/-- The worker thread returns from the call. -/
def returns (t : Transport) (fn : ApiFn) (ok : Bool) : Transport × List Obs :=
  ({ t with call := none }, [.returned fn ok])

/-- `btstack_run_loop_execute_on_main_thread`, and the wait for `done_event`. -/
def dispatch (t : Transport) (fn : ApiFn) (kind : RequestKind) : Transport × List Obs :=
  ({ t with
      requests := t.requests + 1
      runLoop := t.runLoop ++ [.request t.requests kind]
      call := some ⟨fn, kind, t.requests, .dispatched none⟩ }, [])

/-- `init` up to its first poll of `init_result_`. -/
def initCall (t : Transport) : Transport × List Obs :=
  if t.registered then t.returns .init false
  else
    ({ t with
        registered := true
        running := true
        call := some ⟨.init, .powerOn, t.requests, .waiting⟩ }, [])

/-- The value `init` returns when it shuts down what it has started; `shutdown` returns
none. -/
def shutdownResult (fn : ApiFn) : Bool :=
  match fn with
  | .init => false
  | _ => true

/-- `shutdown` behind its waits. -/
def shutdownEnd (t : Transport) (fn : ApiFn) : Transport × List Obs :=
  { t with
    running := false
    streaming := false
    connected := false
    hciReady := false
    registered := false }.returns fn (shutdownResult fn)

/-- `shutdown` up to its first wait, called by the user or by `init`. -/
def shutdownCall (t : Transport) (fn : ApiFn) : Transport × List Obs :=
  if t.running = false then t.returns fn (shutdownResult fn)
  else if t.hciReady then t.dispatch fn .powerOff
  else t.shutdownEnd fn

/-- The length of an inquiry in units of 1.28 seconds. -/
def durationUnits (durationSeconds : UInt8) : Nat :=
  min (max ((durationSeconds.toNat * 10 + 12) / 13 % 2 ^ 8) 3) 30

/-- `scan_devices` up to its first wait. -/
def scanCall (t : Transport) (durationSeconds : UInt8) : Transport × List Obs :=
  if t.hciReady = false then t.returns .scanDevices false
  else
    { t with
      discoveredDevices := []
      inquiryFoundCount := 0
      inquiryActive := true }.dispatch .scanDevices (.inquiryStart (durationUnits durationSeconds))

/-- `connect_a2dp` up to its first wait. -/
def connectA2dp (t : Transport) (remoteAddr : List UInt8) : Transport × List Obs :=
  if t.hciReady = false then t.returns .connectA2dp false
  else
    { t with
      remoteAddrBe := remoteAddr.reverse
      hasRemoteAddr := true
      remoteCaps := {}
      disconnectOccurred := false
      cancelEvent := false
      connectEvent := false
      connectResult := false
      streamEvent := false
      streamResult := false }.dispatch .connectA2dp .establishStream

/-- `stop_stream` up to its first wait. -/
def stopStream (t : Transport) : Transport × List Obs :=
  if t.streaming = false then t.returns .stopStream true
  else t.dispatch .stopStream .pauseStream

/-- The value `disconnect` and `reconnect` return when the disconnection is over:
`reconnect` disconnects when it has failed. -/
def disconnectResult (fn : ApiFn) : Bool :=
  match fn with
  | .disconnect => true
  | _ => false

/-- `disconnect` up to its first wait, called by the user or by `reconnect`. -/
def disconnectCall (t : Transport) (fn : ApiFn) : Transport × List Obs :=
  if t.a2dpCid = 0 then t.returns fn (disconnectResult fn)
  else if t.streaming then t.dispatch fn .pauseStream
  else t.dispatch fn .disconnect

/-- What follows a failure of `configure_codec` or `start_stream`: they return `false`,
and `reconnect`, when it has called them, disconnects first. -/
def stageFailed (t : Transport) (fn : ApiFn) : Transport × List Obs :=
  match fn with
  | .reconnect => t.disconnectCall .reconnect
  | _ => t.returns fn false

/-- The local and the remote stream endpoint for a codec the remote advertises. -/
def seids (t : Transport) (codec : AudioCodec) : Option (Nat × Nat) :=
  match codec with
  | .sbc => if t.remoteCaps.sbc then some (t.sbcLocalSeid, t.remoteCaps.sbcSeid) else none
  | .aac => if t.remoteCaps.aac then some (t.aacLocalSeid, t.remoteCaps.aacSeid) else none
  | .ssc => if t.remoteCaps.ssc then some (t.sscLocalSeid, t.remoteCaps.sscSeid) else none

/-- `configure_codec` up to its first wait. -/
def configureCall (t : Transport) (fn : ApiFn) (codec : AudioCodec) (sampleRate channels : Nat) :
    Transport × List Obs :=
  if t.connected = false then t.stageFailed fn
  else
    let t :=
      { t with
        streamEvent := false
        streamResult := false
        selectedCodec := codec
        sampleRate := sampleRate
        channels := channels }
    match t.seids codec with
    | none => t.stageFailed fn
    | some (lseid, rseid) =>
        if lseid = 0 ∨ rseid = 0 then t.stageFailed fn
        else
          { t with localSeid := lseid, remoteSeid := rseid }.dispatch fn
            (.setConfig codec (configInfo codec sampleRate))

/-- `start_stream` up to its first wait. -/
def startCall (t : Transport) (fn : ApiFn) : Transport × List Obs :=
  if t.connected = false ∨ t.localSeid = 0 then t.stageFailed fn
  else { t with startEvent := false, startResult := false }.dispatch fn .startStream

/-- The state `reconnect` starts over from: the connection, the media queue and the
capabilities are cleared, and so are the results and the cancel event. -/
def reconnectReset (t : Transport) : Transport :=
  { t with
    connected := false
    streaming := false
    mediaQueue := t.mediaQueue.reset
    a2dpCid := 0
    localSeid := 0
    remoteSeid := 0
    mediaMtu := 0
    remoteCaps := {}
    disconnectOccurred := false
    cancelEvent := false
    connectResult := false
    streamResult := false
    startResult := false }

/-- `reconnect` up to its first wait. -/
def reconnect (t : Transport) : Transport × List Obs :=
  if t.hciReady = false ∨ t.hasRemoteAddr = false then t.returns .reconnect false
  else
    let (t, obs) := t.reconnectReset.dispatch .reconnect .establishStream
    (t, .cleared :: obs)

/-! ### The continuations of the calls -/

/-- What the call does when `done_event` is set or its wait has timed out: `result` is
`u8_result`, which is zero before the callback has stored one. -/
def afterDone (t : Transport) (fn : ApiFn) (kind : RequestKind) (number result : Nat) :
    Transport × List Obs :=
  match kind with
  | .powerOn => (t, [])
  | .inquiryStart _ =>
      if result ≠ 0 then { t with inquiryActive := false }.returns fn false
      else ({ t with call := some ⟨fn, kind, number, .waiting⟩ }, [])
  | .inquiryStop => { t with inquiryActive := false }.returns fn false
  | .establishStream =>
      if result ≠ 0 then t.returns fn false
      else ({ t with call := some ⟨fn, kind, number, .waiting⟩ }, [])
  | .setConfig _ _ | .startStream =>
      if result ≠ 0 then t.stageFailed fn
      else ({ t with call := some ⟨fn, kind, number, .waiting⟩ }, [])
  | .pauseStream =>
      match fn with
      | .stopStream => { t with streaming := false }.returns .stopStream true
      | _ => { t with streaming := false }.dispatch fn .disconnect
  | .disconnect | .powerOff => ({ t with call := some ⟨fn, kind, number, .waiting⟩ }, [])

/-- The event the call waits for is signalled; `init` polls `init_result_`. -/
def awaited (t : Transport) (kind : RequestKind) : Bool :=
  match kind with
  | .powerOn => t.initResult
  | .inquiryStart _ => t.inquiryEvent
  | .powerOff => t.initEvent
  | .establishStream => t.connectEvent
  | .setConfig _ _ => t.streamEvent
  | .startStream => t.startEvent
  | .disconnect => t.disconnectEvent
  | .pauseStream | .inquiryStop => false

/-- The wait is one of `wait_for_event` and the cancel event is signalled. -/
def cancelled (t : Transport) (kind : RequestKind) : Bool :=
  match kind with
  | .powerOn | .powerOff => false
  | _ => t.cancelEvent

/-- A satisfied wait clears the event it was for. -/
def consumeAwaited (t : Transport) (kind : RequestKind) : Transport :=
  match kind with
  | .inquiryStart _ => { t with inquiryEvent := false }
  | .powerOff => { t with initEvent := false }
  | .establishStream => { t with connectEvent := false }
  | .setConfig _ _ => { t with streamEvent := false }
  | .startStream => { t with startEvent := false }
  | .disconnect => { t with disconnectEvent := false }
  | .powerOn | .pauseStream | .inquiryStop => t

/-- What the call does behind its wait, which is over because of the event when `signalled`
is true. -/
def afterWait (t : Transport) (fn : ApiFn) (kind : RequestKind) (signalled : Bool) :
    Transport × List Obs :=
  match kind with
  | .powerOn => if signalled then t.returns fn true else t.shutdownCall fn
  | .inquiryStart _ =>
      if signalled then t.returns fn (t.inquiryFoundCount > 0) else t.dispatch fn .inquiryStop
  | .powerOff => t.shutdownEnd fn
  | .establishStream =>
      match fn with
      | .reconnect =>
          if signalled && t.connectResult then
            t.configureCall .reconnect t.selectedCodec t.sampleRate t.channels
          else t.returns .reconnect false
      | _ => t.returns fn (signalled && t.connectResult)
  | .setConfig _ _ =>
      match fn with
      | .reconnect =>
          if signalled && t.streamResult then t.startCall .reconnect
          else t.stageFailed .reconnect
      | _ => t.returns fn (signalled && t.streamResult)
  | .startStream =>
      match fn with
      | .reconnect =>
          if signalled && t.startResult then t.returns .reconnect true
          else t.stageFailed .reconnect
      | _ => t.returns fn (signalled && t.startResult)
  | .disconnect =>
      { t with connected := false, streaming := false, a2dpCid := 0 }.returns fn
        (disconnectResult fn)
  | .pauseStream | .inquiryStop => (t, [])

/-! ### The run loop -/

/-- The request that runs stores its status where the call waits for it.  When the call
has given up on it, the store goes to a request that is no longer there. -/
def answer (t : Transport) (number status : Nat) : Transport × List Obs :=
  match t.call with
  | some ⟨fn, kind, n, .dispatched none⟩ =>
      if n = number then
        ({ t with call := some ⟨fn, kind, n, .dispatched (some (status % 2 ^ 8))⟩ }, [])
      else (t, [.orphaned number])
  | _ => (t, [.orphaned number])

/-- The status a request of that kind stores: the callbacks of `stop_stream`, `disconnect`
and `shutdown` store none, nor does the one that stops an inquiry. -/
def storedStatus (kind : RequestKind) (status : Nat) : Nat :=
  match kind with
  | .pauseStream | .disconnect | .inquiryStop | .powerOff => 0
  | _ => status

/-- The BTstack thread runs the first callback of the run loop.  `status` is what the
BTstack function returns and `cid` what `a2dp_source_establish_stream` writes to
`a2dp_cid_`, if it does. -/
def runCallback (t : Transport) (status : Nat) (cid : Option Nat) :
    Option (Transport × List Obs) :=
  match t.runLoop with
  | [] => none
  | .mediaTrigger :: rest => some { t with runLoop := rest }.mediaTrigger
  | .request number kind :: rest =>
      let t := { t with runLoop := rest }
      match kind with
      | .establishStream =>
          some ({ t with a2dpCid := cid.getD t.a2dpCid }.answer number status)
      | _ => some (t.answer number (storedStatus kind status))

/-! ### Steps -/

/-- One step of the transport, with what it shows outside. -/
def step (t : Transport) : Action → Option (Transport × List Obs)
  | .init => if t.call.isNone then some t.initCall else none
  | .scanDevices durationSeconds =>
      if t.call.isNone then some (t.scanCall durationSeconds) else none
  | .connectA2dp remoteAddr => if t.call.isNone then some (t.connectA2dp remoteAddr) else none
  | .configureCodec codec sampleRate channels =>
      if t.call.isNone then some (t.configureCall .configureCodec codec sampleRate channels)
      else none
  | .startStream => if t.call.isNone then some (t.startCall .startStream) else none
  | .stopStream => if t.call.isNone then some t.stopStream else none
  | .disconnect => if t.call.isNone then some (t.disconnectCall .disconnect) else none
  | .reconnect => if t.call.isNone then some t.reconnect else none
  | .shutdown => if t.call.isNone then some (t.shutdownCall .shutdown) else none
  | .runCallback status cid => t.runCallback status cid
  | .doneWake =>
      match t.call with
      | some ⟨fn, kind, n, .dispatched (some result)⟩ => some (t.afterDone fn kind n result)
      | _ => none
  | .doneTimeout =>
      match t.call with
      | some ⟨fn, kind, n, .dispatched none⟩ => some (t.afterDone fn kind n 0)
      | _ => none
  | .eventWake =>
      match t.call with
      | some ⟨fn, kind, n, .waiting⟩ =>
          if t.awaited kind then
            some ({ t.consumeAwaited kind with call := some ⟨fn, kind, n, .woken true⟩ }, [])
          else none
      | _ => none
  | .waitCancelled =>
      match t.call with
      | some ⟨fn, kind, n, .waiting⟩ =>
          if t.awaited kind = false ∧ t.cancelled kind = true then
            some ({ t with call := some ⟨fn, kind, n, .woken false⟩ }, [])
          else none
      | _ => none
  | .waitTimeout =>
      match t.call with
      | some ⟨fn, kind, n, .waiting⟩ =>
          if t.awaited kind = false ∧ t.cancelled kind = false then
            some ({ t with call := some ⟨fn, kind, n, .woken false⟩ }, [])
          else none
      | _ => none
  | .resume =>
      match t.call with
      | some ⟨fn, kind, _, .woken signalled⟩ => some (t.afterWait fn kind signalled)
      | _ => none
  | .cancelPendingWaits => some ({ t with cancelEvent := true }, [])
  | .checkDisconnected => some ({ t with disconnectOccurred := false }, [])
  | .event _ e => some (t.handleEvent e)
  | .sendEnqueue data timestamp frames codec =>
      if t.sending then none else some (t.enqueueMedia data timestamp frames codec)
  | .sendTrigger => if t.sending then some (t.triggerMedia, []) else none

/-- What a step is: a call begins or goes on, or BTstack or the encode thread do something. -/
inductive Stepped (t : Transport) : Action → Transport × List Obs → Prop
  | init (hnone : t.call.isNone = true) :
      Stepped t .init t.initCall
  | scanDevices (durationSeconds : UInt8) (hnone : t.call.isNone = true) :
      Stepped t (.scanDevices durationSeconds) (t.scanCall durationSeconds)
  | connectA2dp (remoteAddr : List UInt8) (hnone : t.call.isNone = true) :
      Stepped t (.connectA2dp remoteAddr) (t.connectA2dp remoteAddr)
  | configureCodec (codec : AudioCodec) (sampleRate channels : Nat)
      (hnone : t.call.isNone = true) :
      Stepped t (.configureCodec codec sampleRate channels)
        (t.configureCall .configureCodec codec sampleRate channels)
  | startStream (hnone : t.call.isNone = true) :
      Stepped t .startStream (t.startCall .startStream)
  | stopStream (hnone : t.call.isNone = true) :
      Stepped t .stopStream t.stopStream
  | disconnect (hnone : t.call.isNone = true) :
      Stepped t .disconnect (t.disconnectCall .disconnect)
  | reconnect (hnone : t.call.isNone = true) :
      Stepped t .reconnect t.reconnect
  | shutdown (hnone : t.call.isNone = true) :
      Stepped t .shutdown (t.shutdownCall .shutdown)
  | runCallback {status : Nat} {cid : Option Nat} {r : Transport × List Obs}
      (hrun : t.runCallback status cid = some r) :
      Stepped t (.runCallback status cid) r
  | doneWake {fn : ApiFn} {kind : RequestKind} {number result : Nat}
      (hcall : t.call = some ⟨fn, kind, number, .dispatched (some result)⟩) :
      Stepped t .doneWake (t.afterDone fn kind number result)
  | doneTimeout {fn : ApiFn} {kind : RequestKind} {number : Nat}
      (hcall : t.call = some ⟨fn, kind, number, .dispatched none⟩) :
      Stepped t .doneTimeout (t.afterDone fn kind number 0)
  | eventWake {fn : ApiFn} {kind : RequestKind} {number : Nat}
      (hcall : t.call = some ⟨fn, kind, number, .waiting⟩) (hset : t.awaited kind = true) :
      Stepped t .eventWake
        ({ t.consumeAwaited kind with call := some ⟨fn, kind, number, .woken true⟩ }, [])
  | waitCancelled {fn : ApiFn} {kind : RequestKind} {number : Nat}
      (hcall : t.call = some ⟨fn, kind, number, .waiting⟩)
      (hset : t.awaited kind = false ∧ t.cancelled kind = true) :
      Stepped t .waitCancelled ({ t with call := some ⟨fn, kind, number, .woken false⟩ }, [])
  | waitTimeout {fn : ApiFn} {kind : RequestKind} {number : Nat}
      (hcall : t.call = some ⟨fn, kind, number, .waiting⟩)
      (hset : t.awaited kind = false ∧ t.cancelled kind = false) :
      Stepped t .waitTimeout ({ t with call := some ⟨fn, kind, number, .woken false⟩ }, [])
  | resume {fn : ApiFn} {kind : RequestKind} {number : Nat} {signalled : Bool}
      (hcall : t.call = some ⟨fn, kind, number, .woken signalled⟩) :
      Stepped t .resume (t.afterWait fn kind signalled)
  | cancelPendingWaits :
      Stepped t .cancelPendingWaits ({ t with cancelEvent := true }, [])
  | checkDisconnected :
      Stepped t .checkDisconnected ({ t with disconnectOccurred := false }, [])
  | event (attempt : Nat) (e : Event) :
      Stepped t (.event attempt e) (t.handleEvent e)
  | sendEnqueue (data : List UInt8) (timestamp : Nat) (frames : UInt8) (codec : AudioCodec)
      (hsending : ¬ t.sending = true) :
      Stepped t (.sendEnqueue data timestamp frames codec)
        (t.enqueueMedia data timestamp frames codec)
  | sendTrigger (hsending : t.sending = true) :
      Stepped t .sendTrigger (t.triggerMedia, [])

/-- A step is one of these. -/
theorem step_inv {t : Transport} {a : Action} {r : Transport × List Obs}
    (hstep : t.step a = some r) :
  Stepped t a r
  := by
  cases a with
  | runCallback => apply Stepped.runCallback hstep
  | init | scanDevices | connectA2dp | configureCodec | startStream | stopStream | disconnect
  | reconnect | shutdown | sendTrigger =>
      obtain ⟨hidle, hr⟩ := Option.ite_none_right_eq_some.mp hstep
      obtain rfl := Option.some.inj hr
      constructor
      apply hidle
  | sendEnqueue =>
      obtain ⟨hidle, hr⟩ := Option.ite_none_left_eq_some.mp hstep
      obtain rfl := Option.some.inj hr
      constructor
      apply hidle
  | doneWake | doneTimeout | resume =>
      rw [step] at hstep
      split at hstep
      next hcall =>
        obtain rfl := Option.some.inj hstep
        constructor
        apply hcall
      next => contradiction
  | eventWake | waitCancelled | waitTimeout =>
      rw [step] at hstep
      split at hstep
      next hcall =>
        obtain ⟨hset, hr⟩ := Option.ite_none_right_eq_some.mp hstep
        obtain rfl := Option.some.inj hr
        constructor
        · apply hcall
        · apply hset
      next => contradiction
  | cancelPendingWaits | checkDisconnected | event =>
      obtain rfl := Option.some.inj hstep
      constructor

end Transport

/-! ### Sessions -/

/-- The steps that set up a stream over SSC: the three calls, with BTstack answering
each of them. -/
def sessionSetup (attempt cid : Nat) : List Action :=
  [.connectA2dp [1, 2, 3, 4, 5, 6], .runCallback 0 (some cid), .doneWake,
    .event attempt (.signalingConnectionEstablished 0 cid),
    .event attempt (.otherCapability 5 [0x75, 0, 0, 0, 3, 1, 0x0E]),
    .event attempt .capabilitiesComplete, .eventWake, .resume,
    .configureCodec .ssc 48000 2, .runCallback 0 none, .doneWake,
    .event attempt (.streamEstablished 0 3 5 672), .eventWake, .resume,
    .startStream, .runCallback 0 none, .doneWake,
    .event attempt .streamStarted, .eventWake, .resume]

/-- The steps that set the stream up again in one call. -/
def sessionReconnect (attempt cid : Nat) : List Action :=
  [.reconnect, .runCallback 0 (some cid), .doneWake,
    .event attempt (.signalingConnectionEstablished 0 cid),
    .event attempt (.otherCapability 5 [0x75, 0, 0, 0, 3, 1, 0x0E]),
    .event attempt .capabilitiesComplete, .eventWake, .resume, .runCallback 0 none, .doneWake,
    .event attempt (.streamEstablished 0 3 5 672), .eventWake, .resume, .runCallback 0 none,
    .doneWake, .event attempt .streamStarted, .eventWake, .resume]

/-- The steps that end a session. -/
def sessionEnd (attempt : Nat) : List Action :=
  [.disconnect, .runCallback 0 none, .doneWake, .runCallback 0 none, .doneWake,
    .event attempt .signalingConnectionReleased, .eventWake, .resume]

end Ssc
