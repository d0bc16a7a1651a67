import SscOnWindows.Transport.Machine

/-!
# The cancel event

`cancel_pending_waits` sets the cancel event, which stays set until it is reset.  A call of
`connect_a2dp` or `reconnect` resets it when it gets past its checks; nothing else that
happens to the transport touches it.
-/

namespace Ssc

/-- The request is followed by a wait of `wait_for_event`, which the cancel event ends. -/
def RequestKind.cancellable : RequestKind → Bool
  | .powerOn | .powerOff => false
  | _ => true

namespace Transport

/-- The call resets the cancel event. -/
def resetsCancel (t : Transport) : Action → Bool
  | .connectA2dp _ => t.hciReady
  | .reconnect => t.hciReady && t.hasRemoteAddr
  | _ => false

/-- Only a cancellable wait is over when the cancel event is set. -/
theorem cancelled_eq (t : Transport) (kind : RequestKind) :
  t.cancelled kind = (kind.cancellable && t.cancelEvent)
  := by
  cases kind <;> rfl

section Pieces

variable (t : Transport) (fn : ApiFn)

@[simp]
theorem initCall_cancelEvent :
  t.initCall.1.cancelEvent = t.cancelEvent
  := by
  rw [initCall]
  split <;> rfl

@[simp]
theorem shutdownCall_cancelEvent :
  (t.shutdownCall fn).1.cancelEvent = t.cancelEvent
  := by
  rw [shutdownCall]
  split
  · rfl
  · split <;> rfl

@[simp]
theorem scanCall_cancelEvent (durationSeconds : UInt8) :
  (t.scanCall durationSeconds).1.cancelEvent = t.cancelEvent
  := by
  rw [scanCall]
  split <;> rfl

@[simp]
theorem stopStream_cancelEvent :
  t.stopStream.1.cancelEvent = t.cancelEvent
  := by
  rw [stopStream]
  split <;> rfl

@[simp]
theorem disconnectCall_cancelEvent :
  (t.disconnectCall fn).1.cancelEvent = t.cancelEvent
  := by
  rw [disconnectCall]
  split
  · rfl
  · split <;> rfl

@[simp]
theorem stageFailed_cancelEvent :
  (t.stageFailed fn).1.cancelEvent = t.cancelEvent
  := by
  rw [stageFailed.eq_def]
  split
  · apply disconnectCall_cancelEvent
  · rfl

@[simp]
theorem configureCall_cancelEvent (codec : AudioCodec) (sampleRate channels : Nat) :
  (t.configureCall fn codec sampleRate channels).1.cancelEvent = t.cancelEvent
  := by
  rw [configureCall]
  split
  · apply stageFailed_cancelEvent
  · dsimp only
    split
    · apply stageFailed_cancelEvent
    · split
      · apply stageFailed_cancelEvent
      · rfl

@[simp]
theorem startCall_cancelEvent :
  (t.startCall fn).1.cancelEvent = t.cancelEvent
  := by
  rw [startCall]
  split
  · apply stageFailed_cancelEvent
  · rfl

@[simp]
theorem afterDone_cancelEvent (kind : RequestKind) (number result : Nat) :
  (t.afterDone fn kind number result).1.cancelEvent = t.cancelEvent
  := by
  rw [afterDone.eq_def]
  split
  · rfl
  · split <;> rfl
  · rfl
  · split <;> rfl
  · split
    · apply stageFailed_cancelEvent
    · rfl
  · split
    · apply stageFailed_cancelEvent
    · rfl
  · split <;> rfl
  · rfl
  · rfl

@[simp]
theorem afterWait_cancelEvent (kind : RequestKind) (signalled : Bool) :
  (t.afterWait fn kind signalled).1.cancelEvent = t.cancelEvent
  := by
  rw [afterWait.eq_def]
  split
  · split
    · rfl
    · apply shutdownCall_cancelEvent
  · split <;> rfl
  · rfl
  · split
    · split
      · apply configureCall_cancelEvent
      · rfl
    · rfl
  · split
    · split
      · apply startCall_cancelEvent
      · apply stageFailed_cancelEvent
    · rfl
  · split
    · split
      · rfl
      · apply stageFailed_cancelEvent
    · rfl
  · rfl
  · rfl
  · rfl

@[simp]
theorem consumeAwaited_cancelEvent (kind : RequestKind) :
  (t.consumeAwaited kind).cancelEvent = t.cancelEvent
  := by
  cases kind <;> rfl

@[simp]
theorem answer_cancelEvent (number status : Nat) :
  (t.answer number status).1.cancelEvent = t.cancelEvent
  := by
  rw [answer]
  split
  · split <;> rfl
  · rfl

@[simp]
theorem handleEvent_cancelEvent (e : Event) :
  (t.handleEvent e).1.cancelEvent = t.cancelEvent
  := by
  cases e with
  | inquiryResult device =>
      rw [handleEvent, inquiryResult]
      split <;> rfl
  | hciDisconnectionComplete =>
      rw [handleEvent, hciDisconnectionComplete]
      split <;> rfl
  | signalingConnectionEstablished status cid =>
      rw [handleEvent, signalingConnectionEstablished]
      split <;> rfl
  | streamEstablished status localSeid remoteSeid maxPayload =>
      rw [handleEvent, streamEstablished]
      split <;> rfl
  | canSendMediaPacketNow maxPayload status =>
      rw [handleEvent, canSendNow]
      split
      · rfl
      · dsimp only
        split <;> rfl
  | avrcpConnectionEstablished status cid =>
      rw [handleEvent]
      split <;> rfl
  | hciWorking | hciOff | inquiryComplete | otherCapability | sbcCapability | aacCapability
  | capabilitiesComplete | streamStarted | streamSuspended | streamReleased
  | signalingConnectionReleased | avrcpConnectionReleased => rfl

@[simp]
theorem enqueueMedia_cancelEvent (data : List UInt8) (timestamp : Nat) (frames : UInt8)
    (codec : AudioCodec) :
  (t.enqueueMedia data timestamp frames codec).1.cancelEvent = t.cancelEvent
  := by
  rw [enqueueMedia]
  split
  · rfl
  · split
    · rfl
    · split
      · rfl
      · split <;> rfl

@[simp]
theorem triggerMedia_cancelEvent :
  t.triggerMedia.cancelEvent = t.cancelEvent
  := by
  rw [triggerMedia]
  split <;> rfl

end Pieces

/-- A callback of the run loop leaves the cancel event alone. -/
theorem runCallback_cancelEvent {t : Transport} {status : Nat} {cid : Option Nat}
    {r : Transport × List Obs} (h : t.runCallback status cid = some r) :
  r.1.cancelEvent = t.cancelEvent
  := by
  rw [runCallback] at h
  split at h
  · contradiction
  · obtain rfl := Option.some.inj h
    rfl
  · dsimp only at h
    split at h
    · obtain rfl := Option.some.inj h
      apply answer_cancelEvent
    · obtain rfl := Option.some.inj h
      apply answer_cancelEvent

/-- A call that does not reset the cancel event leaves it set, and so does everything else. -/
theorem step_cancelEvent {t : Transport} {a : Action} {r : Transport × List Obs}
    (hstep : t.step a = some r) (hresets : t.resetsCancel a = false)
    (hcancel : t.cancelEvent = true) :
  r.1.cancelEvent = true
  := by
  cases step_inv hstep with
  | connectA2dp remoteAddr =>
      rw [resetsCancel] at hresets
      rw [connectA2dp, if_pos hresets]
      apply hcancel
  | reconnect =>
      rw [reconnect, if_pos (Bool.and_eq_false_iff.mp hresets)]
      apply hcancel
  | runCallback hrun =>
      rw [runCallback_cancelEvent hrun]
      apply hcancel
  | init | scanDevices | configureCodec | startStream | stopStream | disconnect | shutdown
  | doneWake | doneTimeout | eventWake | waitCancelled | waitTimeout | resume
  | checkDisconnected | event | sendEnqueue | sendTrigger =>
      simpa using hcancel
  | cancelPendingWaits => rfl

end Transport

end Ssc
