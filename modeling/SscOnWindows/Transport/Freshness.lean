import SscOnWindows.Lib.Machine
import SscOnWindows.Transport.Requests

/-!
# The signals of the waits

A call that waits for BTstack waits for the signal of an event object, and a handler of the
BTstack thread raises it.  The signals raised since the call in progress began are recorded
along the run: a wait is to be satisfied by one of them.

`connect_a2dp`, `configure_codec` and `start_stream` reset the event they are going to wait
for.  The other calls take it as they find it, so it has to be unsignalled when they begin.
-/

namespace Ssc

open Machine

/-- The auto-reset event objects of the transport. -/
inductive Signal where
  | init
  | connect
  | stream
  | start
  | disconnect
  | inquiry
  deriving DecidableEq

/-- The event the call waits for behind a request of that kind; `init` polls a flag, and the
requests that pause a stream or stop an inquiry are followed by no wait. -/
def RequestKind.signal : RequestKind → Option Signal
  | .inquiryStart _ => some .inquiry
  | .establishStream => some .connect
  | .setConfig _ _ => some .stream
  | .startStream => some .start
  | .disconnect => some .disconnect
  | .powerOff => some .init
  | .powerOn | .inquiryStop | .pauseStream => none

/-- The event the call is going to wait for: `disconnect` pauses the stream first. -/
def Call.signal (c : Call) : Option Signal :=
  match c.kind with
  | .pauseStream => if c.fn = .stopStream then none else some .disconnect
  | kind => kind.signal

namespace Transport

/-- The event object is signalled. -/
def signalled (t : Transport) : Signal → Bool
  | .init => t.initEvent
  | .connect => t.connectEvent
  | .stream => t.streamEvent
  | .start => t.startEvent
  | .disconnect => t.disconnectEvent
  | .inquiry => t.inquiryEvent

/-- The signal the handler of an event raises. -/
def Event.raises : Event → Option Signal
  | .hciWorking | .hciOff => some .init
  | .inquiryComplete => some .inquiry
  | .signalingConnectionEstablished status _ => if status ≠ 0 then some .connect else none
  | .capabilitiesComplete => some .connect
  | .streamEstablished _ _ _ _ => some .stream
  | .streamStarted => some .start
  | .signalingConnectionReleased => some .disconnect
  | _ => none

theorem awaited_eq_signalled (t : Transport) {kind : RequestKind} {σ : Signal}
    (h : kind.signal = some σ) :
  t.awaited kind = t.signalled σ
  := by
  cases kind with
  | powerOn | inquiryStop | pauseStream => contradiction
  | inquiryStart | establishStream | setConfig | startStream | disconnect | powerOff =>
      obtain rfl := Option.some.inj h
      rfl

/-! ### What a step does to the signals -/

/-- The event is signalled behind a handler when it was before, or when the handler raises
it. -/
theorem handleEvent_signalled (t : Transport) (e : Event) (σ : Signal) :
  (t.handleEvent e).1.signalled σ = (t.signalled σ || e.raises = some σ)
  := by
  cases e with
  | signalingConnectionEstablished status cid =>
      rw [handleEvent, signalingConnectionEstablished, Event.raises]
      split
      · cases σ <;> simp [signalled]
      · cases σ <;> simp [signalled]
  | streamEstablished status localSeid remoteSeid maxPayload =>
      rw [handleEvent, streamEstablished]
      split
      · cases σ <;> simp [signalled, Event.raises]
      · cases σ <;> simp [signalled, Event.raises]
  | hciDisconnectionComplete =>
      rw [handleEvent, hciDisconnectionComplete]
      split
      · cases σ <;> simp [signalled, Event.raises]
      · simp [Event.raises]
  | inquiryResult device =>
      rw [handleEvent, inquiryResult]
      split
      · cases σ <;> simp [signalled, Event.raises]
      · simp [Event.raises]
  | canSendMediaPacketNow maxPayload status =>
      rw [handleEvent, canSendNow]
      split
      · simp [Event.raises]
      · dsimp only
        split
        · cases σ <;> simp [signalled, Event.raises]
        · cases σ <;> simp [signalled, Event.raises, sendFailed]
  | avrcpConnectionEstablished status cid =>
      rw [handleEvent]
      split
      · simp [Event.raises]
      · cases σ <;> simp [signalled, Event.raises]
  | hciWorking | hciOff | inquiryComplete | otherCapability | sbcCapability | aacCapability
  | capabilitiesComplete | streamStarted | streamSuspended | streamReleased
  | signalingConnectionReleased | avrcpConnectionReleased =>
      cases σ <;> simp [handleEvent, signalingConnectionReleased, signalled, Event.raises]

/-- The worker goes on from the pause of a stream to the disconnection. -/
def disconnectsPaused (t t' : Transport) : Bool :=
  t.call.any (fun c => c.kind = .pauseStream) && t'.call.any (fun c => c.kind = .disconnect)

/-- A call begins between the two states: a request is queued that is not the disconnection
behind a pause. -/
def begins (t t' : Transport) : Bool :=
  t'.requests ≠ t.requests && !disconnectsPaused t t'

/-- Between the two states no signal has been raised and no request queued. -/
structure Prepares (t u : Transport) : Prop where
  signals : ∀ σ, u.signalled σ = true → t.signalled σ = true
  requests : u.requests = t.requests

/-- A piece of a step raises no signal, and the call it leaves in progress has just begun or
waits for what the one before waited for. -/
structure Unraised (t t' : Transport) : Prop where
  signals : ∀ σ, t'.signalled σ = true → t.signalled σ = true
  calls : ∀ c ∈ t'.call, begins t t' = true
    ∨ ∀ σ ∈ c.signal, ∃ c₀ ∈ t.call, σ ∈ c₀.signal

/-- The call in progress is not at the pause of a stream. -/
def NotPausing (t : Transport) : Prop :=
  ∀ c ∈ t.call, c.kind ≠ .pauseStream

theorem notPausing_of_none {t : Transport} (h : t.call.isNone = true) :
  t.NotPausing
  := by
  intro c hc
  rw [Option.isNone_iff_eq_none.mp h] at hc
  contradiction

theorem notPausing_of_some {t : Transport} {c : Call} (h : t.call = some c)
    (hkind : c.kind ≠ .pauseStream) :
  t.NotPausing
  := by
  intro c' hc'
  rw [h] at hc'
  obtain rfl := Option.some.inj hc'
  apply hkind

theorem prepares_refl (t : Transport) :
  Prepares t t
  := ⟨fun _ h => h, rfl⟩

/-- The call returns. -/
theorem returns_unraised {t u : Transport} (fn : ApiFn) (ok : Bool) (hu : Prepares t u) :
  Unraised t (u.returns fn ok).1
  where
  signals σ h := by
    apply hu.signals σ
    cases σ <;> apply h
  calls c hc := by contradiction

/-- The call queues a request, which is not the disconnection behind a pause. -/
theorem dispatch_unraised {t u : Transport} (fn : ApiFn) (kind : RequestKind)
    (hu : Prepares t u) (hkind : kind ≠ .disconnect ∨ t.NotPausing) :
  Unraised t (u.dispatch fn kind).1
  where
  signals σ h := by
    apply hu.signals σ
    cases σ <;> apply h
  calls c hc := by
    left
    rw [begins, Bool.and_eq_true, Bool.not_eq_true', decide_eq_true_eq]
    constructor
    · simp [dispatch, hu.requests]
    · rw [disconnectsPaused, Bool.and_eq_false_iff]
      rcases hkind with hkind | hkind
      · right
        simp [dispatch, hkind]
      · left
        rw [Option.any_eq_false]
        intro c₀ hc₀
        simp [hkind c₀ hc₀]

/-- The call goes from one phase to the next. -/
theorem phase_unraised {t u : Transport} {fn : ApiFn} {kind : RequestKind} {number : Nat}
    {phase phase' : Phase} (hcall : t.call = some ⟨fn, kind, number, phase⟩)
    (hsignals : ∀ σ, u.signalled σ = true → t.signalled σ = true) :
  Unraised t { u with call := some ⟨fn, kind, number, phase'⟩ }
  where
  signals σ h := by
    apply hsignals σ
    cases σ <;> apply h
  calls c hc := by
    right
    rintro σ hσ
    obtain rfl := Option.some.inj hc
    exact ⟨_, hcall, hσ⟩

/-- Nothing happens to the call or to a signal. -/
theorem same_unraised {t t' : Transport} (hcall : t'.call = t.call)
    (hsignals : ∀ σ, t'.signalled σ = true → t.signalled σ = true) :
  Unraised t t'
  where
  signals := hsignals
  calls c hc := by
    right
    intro σ hσ
    exact ⟨c, hcall ▸ hc, hσ⟩

theorem initCall_unraised (t : Transport) :
  Unraised t t.initCall.1
  := by
  rw [initCall]
  split
  · apply returns_unraised _ _ t.prepares_refl
  · constructor
    · intro σ h
      cases σ <;> apply h
    · intro c hc
      right
      intro σ hσ
      obtain rfl := Option.some.inj hc
      contradiction

theorem shutdownEnd_unraised {t u : Transport} (fn : ApiFn) (hu : Prepares t u) :
  Unraised t (u.shutdownEnd fn).1
  := by
  rw [shutdownEnd]
  apply returns_unraised
  constructor
  · intro σ h
    apply hu.signals σ
    cases σ <;> apply h
  · apply hu.requests

theorem shutdownCall_unraised {t u : Transport} (fn : ApiFn) (hu : Prepares t u) :
  Unraised t (u.shutdownCall fn).1
  := by
  rw [shutdownCall]
  split
  · apply returns_unraised _ _ hu
  · split
    · apply dispatch_unraised _ _ hu
      left
      intro h
      contradiction
    · apply shutdownEnd_unraised _ hu

theorem scanCall_unraised (t : Transport) (durationSeconds : UInt8) :
  Unraised t (t.scanCall durationSeconds).1
  := by
  rw [scanCall]
  split
  · apply returns_unraised _ _ t.prepares_refl
  · apply dispatch_unraised
    · constructor
      · intro σ h
        cases σ <;> apply h
      · rfl
    · left
      intro h
      contradiction

theorem connectA2dp_unraised (t : Transport) (remoteAddr : List UInt8) :
  Unraised t (t.connectA2dp remoteAddr).1
  := by
  rw [connectA2dp]
  split
  · apply returns_unraised _ _ t.prepares_refl
  · apply dispatch_unraised
    · constructor
      · intro σ h
        cases σ with
        | connect | stream => contradiction
        | _ => apply h
      · rfl
    · left
      intro h
      contradiction

theorem stopStream_unraised (t : Transport) :
  Unraised t t.stopStream.1
  := by
  rw [stopStream]
  split
  · apply returns_unraised _ _ t.prepares_refl
  · apply dispatch_unraised _ _ t.prepares_refl
    left
    intro h
    contradiction

theorem disconnectCall_unraised {t u : Transport} (fn : ApiFn) (hu : Prepares t u)
    (ht : t.NotPausing) :
  Unraised t (u.disconnectCall fn).1
  := by
  rw [disconnectCall]
  split
  · apply returns_unraised _ _ hu
  · split
    · apply dispatch_unraised _ _ hu (Or.inr ht)
    · apply dispatch_unraised _ _ hu (Or.inr ht)

theorem stageFailed_unraised {t u : Transport} (fn : ApiFn) (hu : Prepares t u)
    (ht : t.NotPausing) :
  Unraised t (u.stageFailed fn).1
  := by
  rw [stageFailed.eq_def]
  split
  · apply disconnectCall_unraised _ hu ht
  · apply returns_unraised _ _ hu

theorem configureCall_unraised {t u : Transport} (fn : ApiFn) (codec : AudioCodec)
    (sampleRate channels : Nat) (hu : Prepares t u) (ht : t.NotPausing) :
  Unraised t (u.configureCall fn codec sampleRate channels).1
  := by
  have hreset : Prepares t
      { u with
        streamEvent := false
        streamResult := false
        selectedCodec := codec
        sampleRate := sampleRate
        channels := channels } := by
    constructor
    · intro σ h
      cases σ with
      | stream => contradiction
      | _ => exact hu.signals _ h
    · apply hu.requests
  rw [configureCall]
  split
  · apply stageFailed_unraised _ hu ht
  · simp only
    split
    · apply stageFailed_unraised _ hreset ht
    · split
      · apply stageFailed_unraised _ hreset ht
      · apply dispatch_unraised
        · constructor
          · intro σ h
            apply hreset.signals σ
            cases σ <;> apply h
          · apply hreset.requests
        · right
          apply ht

theorem startCall_unraised {t u : Transport} (fn : ApiFn) (hu : Prepares t u)
    (ht : t.NotPausing) :
  Unraised t (u.startCall fn).1
  := by
  rw [startCall]
  split
  · apply stageFailed_unraised _ hu ht
  · apply dispatch_unraised
    · constructor
      · intro σ h
        cases σ with
        | start => contradiction
        | _ => exact hu.signals _ h
      · apply hu.requests
    · right
      apply ht

theorem reconnect_unraised (t : Transport) :
  Unraised t t.reconnect.1
  := by
  rw [reconnect]
  split
  · apply returns_unraised _ _ t.prepares_refl
  · apply dispatch_unraised
    · constructor
      · intro σ h
        cases σ <;> apply h
      · rfl
    · left
      intro h
      contradiction

theorem afterDone_unraised {t : Transport} {fn : ApiFn} {kind : RequestKind} {number : Nat}
    {phase : Phase} (result : Nat) (hcall : t.call = some ⟨fn, kind, number, phase⟩) :
  Unraised t (t.afterDone fn kind number result).1
  := by
  have hwaits : Unraised t { t with call := some ⟨fn, kind, number, .waiting⟩ } :=
    phase_unraised hcall (fun _ h => h)
  have hinquiry : Prepares t { t with inquiryActive := false } := by
    constructor
    · intro σ h
      cases σ <;> apply h
    · rfl
  have hpaused : Prepares t { t with streaming := false } := by
    constructor
    · intro σ h
      cases σ <;> apply h
    · rfl
  cases kind with
  | powerOn => apply same_unraised rfl (fun _ h => h)
  | inquiryStart duration =>
      rw [afterDone]
      split
      · apply returns_unraised _ _ hinquiry
      · apply hwaits
  | inquiryStop => apply returns_unraised _ _ hinquiry
  | establishStream =>
      rw [afterDone]
      split
      · apply returns_unraised _ _ t.prepares_refl
      · apply hwaits
  | setConfig codec info =>
      rw [afterDone]
      split
      · apply stageFailed_unraised _ t.prepares_refl (notPausing_of_some hcall (by simp))
      · apply hwaits
  | startStream =>
      rw [afterDone]
      split
      · apply stageFailed_unraised _ t.prepares_refl (notPausing_of_some hcall (by simp))
      · apply hwaits
  | pauseStream =>
      rw [afterDone.eq_def]
      dsimp only
      split
      · apply returns_unraised _ _ hpaused
      · rename_i hstop
        constructor
        · intro σ h
          apply hpaused.signals σ
          cases σ <;> apply h
        · rintro c hc
          right
          obtain rfl := Option.some.inj hc
          intro σ hσ
          refine ⟨_, hcall, ?_⟩
          rw [Call.signal, if_neg hstop]
          apply hσ
  | disconnect => apply hwaits
  | powerOff => apply hwaits

theorem afterWait_unraised {t : Transport} {fn : ApiFn} {kind : RequestKind} {number : Nat}
    {phase : Phase} (signalled : Bool) (hcall : t.call = some ⟨fn, kind, number, phase⟩) :
  Unraised t (t.afterWait fn kind signalled).1
  := by
  have hdown : Prepares t { t with connected := false, streaming := false, a2dpCid := 0 } := by
    constructor
    · intro σ h
      cases σ <;> apply h
    · rfl
  cases kind with
  | powerOn =>
      rw [afterWait]
      split
      · apply returns_unraised _ _ t.prepares_refl
      · apply shutdownCall_unraised _ t.prepares_refl
  | inquiryStart duration =>
      rw [afterWait]
      split
      · apply returns_unraised _ _ t.prepares_refl
      · apply dispatch_unraised _ _ t.prepares_refl
        left
        intro h
        contradiction
  | powerOff => apply shutdownEnd_unraised _ t.prepares_refl
  | establishStream =>
      rw [afterWait.eq_def]
      dsimp only
      split
      · split
        · apply configureCall_unraised _ _ _ _ t.prepares_refl (notPausing_of_some hcall (by simp))
        · apply returns_unraised _ _ t.prepares_refl
      · apply returns_unraised _ _ t.prepares_refl
  | setConfig codec info =>
      rw [afterWait.eq_def]
      dsimp only
      split
      · split
        · apply startCall_unraised _ t.prepares_refl (notPausing_of_some hcall (by simp))
        · apply stageFailed_unraised _ t.prepares_refl (notPausing_of_some hcall (by simp))
      · apply returns_unraised _ _ t.prepares_refl
  | startStream =>
      rw [afterWait.eq_def]
      dsimp only
      split
      · split
        · apply returns_unraised _ _ t.prepares_refl
        · apply stageFailed_unraised _ t.prepares_refl (notPausing_of_some hcall (by simp))
      · apply returns_unraised _ _ t.prepares_refl
  | disconnect => apply returns_unraised _ _ hdown
  | pauseStream | inquiryStop => apply same_unraised rfl (fun _ h => h)

/-- A satisfied wait raises no signal. -/
theorem consumeAwaited_signalled {t : Transport} {kind : RequestKind} {σ : Signal}
    (h : (t.consumeAwaited kind).signalled σ = true) :
  t.signalled σ = true
  := by
  cases kind with
  | powerOn | pauseStream | inquiryStop => apply h
  | inquiryStart duration =>
      cases σ with
      | inquiry => contradiction
      | _ => apply h
  | establishStream =>
      cases σ with
      | connect => contradiction
      | _ => apply h
  | setConfig codec info =>
      cases σ with
      | stream => contradiction
      | _ => apply h
  | startStream =>
      cases σ with
      | start => contradiction
      | _ => apply h
  | disconnect =>
      cases σ with
      | disconnect => contradiction
      | _ => apply h
  | powerOff =>
      cases σ with
      | init => contradiction
      | _ => apply h

theorem answer_unraised {t u : Transport} (number status : Nat) (hcall : u.call = t.call)
    (hsignals : ∀ σ, u.signalled σ = true → t.signalled σ = true) :
  Unraised t (u.answer number status).1
  := by
  rw [answer.eq_def]
  split
  · rename_i fn kind n hdispatched
    rw [hcall] at hdispatched
    split
    · apply phase_unraised hdispatched hsignals
    · apply same_unraised hcall hsignals
  · apply same_unraised hcall hsignals

theorem runCallback_unraised {t : Transport} {status : Nat} {cid : Option Nat}
    {r : Transport × List Obs} (hrun : t.runCallback status cid = some r) :
  Unraised t r.1
  := by
  rw [runCallback.eq_def] at hrun
  split at hrun
  · contradiction
  · obtain rfl := Option.some.inj hrun
    apply same_unraised
    · rfl
    · intro σ h
      cases σ <;> apply h
  · split at hrun
    · obtain rfl := Option.some.inj hrun
      apply answer_unraised
      · rfl
      · intro σ h
        cases σ <;> apply h
    · obtain rfl := Option.some.inj hrun
      apply answer_unraised
      · rfl
      · intro σ h
        cases σ <;> apply h

theorem enqueueMedia_unraised (t : Transport) (data : List UInt8) (timestamp : Nat)
    (frames : UInt8) (codec : AudioCodec) :
  Unraised t (t.enqueueMedia data timestamp frames codec).1
  := by
  have hfailed : Unraised t t.sendFailed := by
    apply same_unraised
    · rfl
    · intro σ h
      cases σ <;> apply h
  rw [enqueueMedia]
  split
  · apply same_unraised rfl (fun _ h => h)
  · split
    · apply hfailed
    · split
      · apply hfailed
      · split
        · apply hfailed
        · apply same_unraised
          · rfl
          · intro σ h
            cases σ <;> apply h

theorem triggerMedia_unraised (t : Transport) :
  Unraised t t.triggerMedia
  := by
  rw [triggerMedia]
  split
  · apply same_unraised
    · rfl
    · intro σ h
      cases σ <;> apply h
  · apply same_unraised
    · rfl
    · intro σ h
      cases σ <;> apply h

end Transport

/-- The signal a step raises. -/
def Action.raises : Action → Option Signal
  | .event _ e => e.raises
  | _ => none

namespace Transport

/-- Every step but an event raises no signal. -/
theorem step_unraised {t : Transport} {a : Action} {r : Transport × List Obs}
    (hstep : t.step a = some r) (ha : ∀ attempt e, a ≠ .event attempt e) :
  Unraised t r.1
  := by
  cases step_inv hstep with
  | init => apply initCall_unraised
  | scanDevices durationSeconds => apply scanCall_unraised
  | connectA2dp remoteAddr => apply connectA2dp_unraised
  | configureCodec codec sampleRate channels hnone =>
      apply configureCall_unraised _ _ _ _ t.prepares_refl (notPausing_of_none hnone)
  | startStream hnone =>
      apply startCall_unraised _ t.prepares_refl (notPausing_of_none hnone)
  | stopStream => apply stopStream_unraised
  | disconnect hnone =>
      apply disconnectCall_unraised _ t.prepares_refl (notPausing_of_none hnone)
  | reconnect => apply reconnect_unraised
  | shutdown => apply shutdownCall_unraised _ t.prepares_refl
  | runCallback => apply runCallback_unraised hstep
  | doneWake hcall | doneTimeout hcall => apply afterDone_unraised _ hcall
  | eventWake hcall => apply phase_unraised hcall (fun _ h => consumeAwaited_signalled h)
  | waitCancelled hcall | waitTimeout hcall => apply phase_unraised hcall (fun _ h => h)
  | resume hcall => apply afterWait_unraised _ hcall
  | cancelPendingWaits | checkDisconnected =>
      apply same_unraised
      · rfl
      · intro σ h
        cases σ <;> apply h
  | event attempt e => exact absurd rfl (ha attempt e)
  | sendEnqueue data timestamp frames codec => apply enqueueMedia_unraised
  | sendTrigger => apply triggerMedia_unraised

end Transport

/-! ### The recorded signals -/

/-- A transport with the signals raised since the call in progress began. -/
structure Signals where
  transport : Transport
  raised : List Signal

namespace Signals

/-- One step, with its signal recorded. -/
def next (s : Signals) (a : Action) : Option Signals :=
  (s.transport.step a).map fun r =>
    { transport := r.1
      raised := (if s.transport.begins r.1 then [] else s.raised) ++ a.raises.toList }

/-- The transport behind the registration of its stream endpoints. -/
def start (sbcSeid aacSeid sscSeid : Nat) : Signals where
  transport := { sbcLocalSeid := sbcSeid, aacLocalSeid := aacSeid, sscLocalSeid := sscSeid }
  raised := []

/-- A wait is satisfied by a signal raised since its call began. -/
def WaitsFresh (s : Signals) (a : Action) : Prop :=
  a = .eventWake → ∀ c ∈ s.transport.call, ∀ σ ∈ c.kind.signal, σ ∈ s.raised

/-- A call that begins finds the event it is going to wait for unsignalled, or has reset
it. -/
def BeginsUnsignalled (s : Signals) (a : Action) : Prop :=
  ∀ r ∈ s.transport.step a, s.transport.begins r.1 = true →
    ∀ c ∈ r.1.call, ∀ σ ∈ c.signal, r.1.signalled σ = false

instance (s : Signals) (a : Action) : Decidable (s.BeginsUnsignalled a) :=
  inferInstanceAs (Decidable (∀ r ∈ _, _ → ∀ c ∈ _, ∀ σ ∈ _, _))

/-- A signal of the event the call waits for has been raised since the call began. -/
def Tracked (s : Signals) : Prop :=
  ∀ c ∈ s.transport.call, ∀ σ ∈ c.signal, s.transport.signalled σ = true → σ ∈ s.raised

theorem start_tracked (sbcSeid aacSeid sscSeid : Nat) :
  (start sbcSeid aacSeid sscSeid).Tracked
  := by
  intro c hc
  contradiction

/-- A step keeps the signals tracked when the call it begins finds its event unsignalled. -/
theorem Tracked.next {s s' : Signals} {a : Action} (h : s.Tracked)
    (hbegins : s.BeginsUnsignalled a) (hnext : s.next a = some s') :
  s'.Tracked
  := by
  obtain ⟨r, hstep, rfl⟩ := Option.map_eq_some_iff.mp hnext
  intro c hc σ hσ hsignalled
  by_cases hbegun : s.transport.begins r.1 = true
  · have hdown := hbegins r hstep hbegun c hc σ hσ
    rw [hdown] at hsignalled
    contradiction
  · rw [if_neg hbegun, List.mem_append]
    by_cases hevent : ∃ attempt e, a = .event attempt e
    · obtain ⟨attempt, e, rfl⟩ := hevent
      obtain rfl := Option.some.inj hstep
      rw [(Transport.handleEvent_frame s.transport e).1] at hc
      rw [Transport.handleEvent_signalled, Bool.or_eq_true, decide_eq_true_eq] at hsignalled
      rcases hsignalled with hbefore | hraised
      · left
        apply h c hc σ hσ hbefore
      · right
        rw [Action.raises, hraised]
        apply List.mem_singleton_self
    · left
      have hunraised := Transport.step_unraised hstep (fun attempt e ha => hevent ⟨attempt, e, ha⟩)
      obtain ⟨c₀, hc₀, hσ₀⟩ := (hunraised.calls c hc).resolve_left hbegun σ hσ
      apply h c₀ hc₀ σ hσ₀ (hunraised.signals σ hsignalled)

/-- A tracked signal that satisfies a wait is fresh. -/
theorem Tracked.waitsFresh {s s' : Signals} {a : Action} (h : s.Tracked)
    (hnext : s.next a = some s') :
  s.WaitsFresh a
  := by
  rintro rfl c hc σ hσ
  obtain ⟨r, hstep, -⟩ := Option.map_eq_some_iff.mp hnext
  cases Transport.step_inv hstep with
  | @eventWake fn kind number hcall hawaited =>
      rw [hcall] at hc
      obtain rfl := Option.some.inj hc
      rw [Transport.awaited_eq_signalled _ hσ] at hawaited
      apply h _ hcall σ _ hawaited
      cases kind with
      | pauseStream => contradiction
      | _ => apply hσ

/-- In every run in which the calls that begin find the event they are going to wait for
unsignalled, every wait is satisfied by a signal raised since its call began. -/
theorem waitsFresh_of_beginsUnsignalled {sbcSeid aacSeid sscSeid : Nat} {as : List Action}
    {s : Signals} (h : Run next BeginsUnsignalled (start sbcSeid aacSeid sscSeid) as s) :
  ∀ t a u, Takes next (start sbcSeid aacSeid sscSeid) as t a u → t.WaitsFresh a
  := by
  intro t a u htakes
  obtain ⟨⟨bs, hbs⟩, -, hnext⟩ := h.of_takes htakes
  have htracked : t.Tracked := by
    apply hbs.invariant (start_tracked sbcSeid aacSeid sscSeid)
    intro s a t hs hbegins hstep
    apply hs.next hbegins hstep
  apply htracked.waitsFresh hnext

/-- `init`, and `shutdown` up to its wait for the event. -/
def shutdownWait : List Action :=
  [.init, .event 0 .hciWorking, .eventWake, .resume, .shutdown, .runCallback 0 none, .doneWake]

theorem shutdownWait_stale :
  (exec next (start 1 2 3) shutdownWait).map (fun s => (s.transport.call.map (fun c => c.kind),
      s.raised, (s.next .eventWake).isSome))
    = some (some .powerOff, [], true)
  := by
  rfl

/-- `shutdown` takes the signal `init` was waiting for as the one that the controller is
off. -/
theorem not_waitsFresh_shutdown :
  ¬ ∀ (sbcSeid aacSeid sscSeid : Nat) (as : List Action) (s : Signals),
    Run next always (start sbcSeid aacSeid sscSeid) as s →
      ∀ t a u, Takes next (start sbcSeid aacSeid sscSeid) as t a u → t.WaitsFresh a
  := by
  intro hall
  obtain ⟨t, ht, hstale⟩ := Option.map_eq_some_iff.mp shutdownWait_stale
  obtain ⟨hkind, hraised, hnext⟩ : t.transport.call.map (fun c => c.kind) = some .powerOff
      ∧ t.raised = [] ∧ (t.next .eventWake).isSome = true := by
    simpa using hstale
  obtain ⟨c, hc, hkind⟩ := Option.map_eq_some_iff.mp hkind
  obtain ⟨u, hu⟩ := Option.isSome_iff_exists.mp hnext
  have hrun := (run_of_exec ht).snoc trivial hu
  have htakes : Takes next (start 1 2 3) (shutdownWait ++ [.eventWake]) t .eventWake u :=
    ⟨shutdownWait, [], rfl, run_of_exec ht, hu⟩
  have hfresh := hall 1 2 3 _ u hrun t _ u htakes rfl c hc .init
    (by
      rw [hkind]
      rfl)
  rw [hraised] at hfresh
  contradiction

/-- The law for sessions with a reconnect. -/
theorem waitsFresh_reconnectedSession :
  ∃ s, exec next (start 1 2 3) reconnectedSession = some s
    ∧ ∀ t a u, Takes next (start 1 2 3) reconnectedSession t a u → t.WaitsFresh a
  := by
  have hsome : (exec (guarded next BeginsUnsignalled) (start 1 2 3) reconnectedSession).isSome := by
    decide +kernel
  obtain ⟨s, hs⟩ := Option.isSome_iff_exists.mp hsome
  have hrun := run_of_exec_guarded hs
  use s, hrun.exec_eq
  apply waitsFresh_of_beginsUnsignalled hrun

end Signals

end Ssc
