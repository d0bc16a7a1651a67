import SscOnWindows.Transport.Machine

/-!
# What the calls leave alone

Behind a wait, a call runs up to its next wait or to its end.  None of these pieces
touches the media path: it keeps the media queue and the registration of the media
trigger, it queues at most one request, and it never claims that a stream is started.
-/

namespace Ssc

/-- What a piece of a call leaves of the media path. -/
structure Piece (t : Transport) (r : Transport × List Obs) : Prop where
  mediaQueue_eq : r.1.mediaQueue = t.mediaQueue
  pending_eq : r.1.mediaTriggerPending = t.mediaTriggerPending
  runLoop_eq : r.1.runLoop = t.runLoop
    ∨ ∃ number kind, r.1.runLoop = t.runLoop ++ [.request number kind]
  streaming_of : r.1.streaming = true → t.streaming = true ∧ r.1.a2dpCid = t.a2dpCid

namespace Transport

theorem returns_piece (t : Transport) (fn : ApiFn) (ok : Bool) :
  Piece t (t.returns fn ok)
  := ⟨rfl, rfl, Or.inl rfl, fun h => ⟨h, rfl⟩⟩

theorem dispatch_piece (t : Transport) (fn : ApiFn) (kind : RequestKind) :
  Piece t (t.dispatch fn kind)
  := ⟨rfl, rfl, Or.inr ⟨_, _, rfl⟩, fun h => ⟨h, rfl⟩⟩

theorem initCall_piece (t : Transport) :
  Piece t t.initCall
  := by
  rw [initCall]
  split
  · apply returns_piece
  · exact ⟨rfl, rfl, Or.inl rfl, fun h => ⟨h, rfl⟩⟩

theorem shutdownEnd_piece (t : Transport) (fn : ApiFn) :
  Piece t (t.shutdownEnd fn)
  := ⟨rfl, rfl, Or.inl rfl, nofun⟩

theorem shutdownCall_piece (t : Transport) (fn : ApiFn) :
  Piece t (t.shutdownCall fn)
  := by
  rw [shutdownCall]
  split
  · apply returns_piece
  · split
    · apply dispatch_piece
    · apply shutdownEnd_piece

theorem scanCall_piece (t : Transport) (durationSeconds : UInt8) :
  Piece t (t.scanCall durationSeconds)
  := by
  rw [scanCall]
  split
  · apply returns_piece
  · exact ⟨rfl, rfl, Or.inr ⟨_, _, rfl⟩, fun h => ⟨h, rfl⟩⟩

theorem connectA2dp_piece (t : Transport) (remoteAddr : List UInt8) :
  Piece t (t.connectA2dp remoteAddr)
  := by
  rw [connectA2dp]
  split
  · apply returns_piece
  · exact ⟨rfl, rfl, Or.inr ⟨_, _, rfl⟩, fun h => ⟨h, rfl⟩⟩

theorem stopStream_piece (t : Transport) :
  Piece t t.stopStream
  := by
  rw [stopStream]
  split
  · apply returns_piece
  · apply dispatch_piece

theorem disconnectCall_piece (t : Transport) (fn : ApiFn) :
  Piece t (t.disconnectCall fn)
  := by
  rw [disconnectCall]
  split
  · apply returns_piece
  · split
    · apply dispatch_piece
    · apply dispatch_piece

theorem stageFailed_piece (t : Transport) (fn : ApiFn) :
  Piece t (t.stageFailed fn)
  := by
  rw [stageFailed.eq_def]
  split
  · apply disconnectCall_piece
  · apply returns_piece

/-- The two states agree on the media path. -/
structure SameMedia (t t' : Transport) : Prop where
  mediaQueue_eq : t'.mediaQueue = t.mediaQueue
  pending_eq : t'.mediaTriggerPending = t.mediaTriggerPending
  runLoop_eq : t'.runLoop = t.runLoop
  streaming_eq : t'.streaming = t.streaming
  a2dpCid_eq : t'.a2dpCid = t.a2dpCid

/-- A piece behind a change of other fields. -/
theorem SameMedia.piece {t t' : Transport} {r : Transport × List Obs} (hsame : SameMedia t t')
    (h : Piece t' r) :
  Piece t r
  where
  mediaQueue_eq := h.mediaQueue_eq.trans hsame.mediaQueue_eq
  pending_eq := h.pending_eq.trans hsame.pending_eq
  runLoop_eq := hsame.runLoop_eq ▸ h.runLoop_eq
  streaming_of hr := by
    obtain ⟨hstreaming, hcid⟩ := h.streaming_of hr
    rw [← hsame.streaming_eq, ← hsame.a2dpCid_eq]
    exact ⟨hstreaming, hcid⟩

theorem configureCall_piece (t : Transport) (fn : ApiFn) (codec : AudioCodec)
    (sampleRate channels : Nat) :
  Piece t (t.configureCall fn codec sampleRate channels)
  := by
  rw [configureCall]
  split
  · apply stageFailed_piece
  · dsimp only
    split
    · apply SameMedia.piece _ (stageFailed_piece _ fn)
      exact ⟨rfl, rfl, rfl, rfl, rfl⟩
    · split
      · apply SameMedia.piece _ (stageFailed_piece _ fn)
        exact ⟨rfl, rfl, rfl, rfl, rfl⟩
      · apply SameMedia.piece _ (dispatch_piece _ fn _)
        exact ⟨rfl, rfl, rfl, rfl, rfl⟩

theorem startCall_piece (t : Transport) (fn : ApiFn) :
  Piece t (t.startCall fn)
  := by
  rw [startCall]
  split
  · apply stageFailed_piece
  · apply SameMedia.piece _ (dispatch_piece _ fn _)
    exact ⟨rfl, rfl, rfl, rfl, rfl⟩

theorem afterDone_piece (t : Transport) (fn : ApiFn) (kind : RequestKind) (number result : Nat) :
  Piece t (t.afterDone fn kind number result)
  := by
  rw [afterDone.eq_def]
  split
  · exact ⟨rfl, rfl, Or.inl rfl, fun h => ⟨h, rfl⟩⟩
  · split
    · exact ⟨rfl, rfl, Or.inl rfl, fun h => ⟨h, rfl⟩⟩
    · exact ⟨rfl, rfl, Or.inl rfl, fun h => ⟨h, rfl⟩⟩
  · exact ⟨rfl, rfl, Or.inl rfl, fun h => ⟨h, rfl⟩⟩
  · split
    · apply returns_piece
    · exact ⟨rfl, rfl, Or.inl rfl, fun h => ⟨h, rfl⟩⟩
  · split
    · apply stageFailed_piece
    · exact ⟨rfl, rfl, Or.inl rfl, fun h => ⟨h, rfl⟩⟩
  · split
    · apply stageFailed_piece
    · exact ⟨rfl, rfl, Or.inl rfl, fun h => ⟨h, rfl⟩⟩
  · split
    · exact ⟨rfl, rfl, Or.inl rfl, nofun⟩
    · exact ⟨rfl, rfl, Or.inr ⟨_, _, rfl⟩, nofun⟩
  · exact ⟨rfl, rfl, Or.inl rfl, fun h => ⟨h, rfl⟩⟩
  · exact ⟨rfl, rfl, Or.inl rfl, fun h => ⟨h, rfl⟩⟩

theorem afterWait_piece (t : Transport) (fn : ApiFn) (kind : RequestKind) (signalled : Bool) :
  Piece t (t.afterWait fn kind signalled)
  := by
  rw [afterWait.eq_def]
  split
  · split
    · apply returns_piece
    · apply shutdownCall_piece
  · split
    · apply returns_piece
    · apply dispatch_piece
  · apply shutdownEnd_piece
  · split
    · split
      · apply configureCall_piece
      · apply returns_piece
    · apply returns_piece
  · split
    · split
      · apply startCall_piece
      · apply stageFailed_piece
    · apply returns_piece
  · split
    · split
      · apply returns_piece
      · apply stageFailed_piece
    · apply returns_piece
  · exact ⟨rfl, rfl, Or.inl rfl, nofun⟩
  · exact ⟨rfl, rfl, Or.inl rfl, fun h => ⟨h, rfl⟩⟩
  · exact ⟨rfl, rfl, Or.inl rfl, fun h => ⟨h, rfl⟩⟩

end Transport

/-- The step is one of the thread that makes the calls, or of the one that cancels them. -/
def Action.ofCaller : Action → Bool
  | .runCallback _ _ | .event _ _ | .sendEnqueue _ _ _ _ | .sendTrigger => false
  | _ => true

namespace Transport

/-- A step of a caller is a piece of a call. -/
theorem step_piece {t : Transport} {a : Action} {r : Transport × List Obs}
    (hcaller : a.ofCaller = true) (hne : a ≠ .reconnect) (hstep : t.step a = some r) :
  Piece t r
  := by
  cases step_inv hstep with
  | init => apply initCall_piece
  | scanDevices => apply scanCall_piece
  | connectA2dp => apply connectA2dp_piece
  | configureCodec => apply configureCall_piece
  | startStream => apply startCall_piece
  | stopStream => apply stopStream_piece
  | disconnect => apply disconnectCall_piece
  | shutdown => apply shutdownCall_piece
  | doneWake | doneTimeout => apply afterDone_piece
  | @eventWake fn kind =>
      cases kind <;> exact ⟨rfl, rfl, Or.inl rfl, fun h => ⟨h, rfl⟩⟩
  | waitCancelled | waitTimeout | cancelPendingWaits | checkDisconnected =>
      exact ⟨rfl, rfl, Or.inl rfl, fun h => ⟨h, rfl⟩⟩
  | resume => apply afterWait_piece
  | reconnect | runCallback | event | sendEnqueue | sendTrigger => contradiction

/-- `reconnect` is a piece of a call when it refuses, and else it starts over. -/
theorem reconnect_piece (t : Transport) :
  Piece t t.reconnect ∨ (t.reconnect.1.streaming = false
    ∧ t.reconnect.1.mediaTriggerPending = t.mediaTriggerPending
    ∧ ∃ number kind, t.reconnect.1.runLoop = t.runLoop ++ [.request number kind])
  := by
  rw [reconnect]
  split
  · left
    apply returns_piece
  · right
    exact ⟨rfl, rfl, _, _, rfl⟩

end Transport

end Ssc
