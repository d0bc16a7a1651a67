import SscOnWindows.Lib.Machine
import SscOnWindows.Transport.Machine

/-!
# The requests to the run loop

A call that needs BTstack puts a `RunLoopRequest` on its stack, queues its callback in the
run loop and waits for `done_event` for a bounded time.  The status in the request is zero
before the callback stores one, and zero is `ERROR_CODE_SUCCESS`: a call that has waited in
vain goes on as if its request had been accepted, and returns while the callback is still
queued.
-/

namespace Ssc

open Machine

namespace RequestKind

/-- The call looks at the status its callback has stored. -/
def checked : RequestKind → Bool
  | .inquiryStart _ | .establishStream | .setConfig _ _ | .startStream => true
  | .powerOn | .inquiryStop | .pauseStream | .disconnect | .powerOff => false

/-- The call takes a request with that status as accepted. -/
def accepts (kind : RequestKind) (result : Nat) : Bool :=
  !kind.checked || result = 0

end RequestKind

namespace Transport

/-- The requests in the run loop. -/
def pending (t : Transport) : List (Nat × RequestKind) :=
  t.runLoop.filterMap fun
    | .request number kind => some (number, kind)
    | .mediaTrigger => none

/-- The request whose `done_event` the call waits for and whose callback has not run. -/
def inRequest (t : Transport) : Option (Nat × RequestKind) :=
  match t.call with
  | some ⟨_, kind, number, .dispatched none⟩ => some (number, kind)
  | _ => none

/-- The request a step ends the wait for, with the status found in it. -/
def doneResult (t : Transport) : Action → Option (RequestKind × Nat)
  | .doneWake =>
      match t.call with
      | some ⟨_, kind, _, .dispatched (some result)⟩ => some (kind, result)
      | _ => none
  | .doneTimeout =>
      match t.call with
      | some ⟨_, kind, _, .dispatched none⟩ => some (kind, 0)
      | _ => none
  | _ => none

/-- What a piece of a step that ends a wait, or begins a call, does: the call waits for no
`done_event` behind it, or it has queued its next request. -/
inductive Advances (t t' : Transport) : Prop
  | leaves (hto : ∀ c ∈ t'.call, ∀ result, c.phase ≠ .dispatched result)
      (hpending : t'.pending = t.pending) (hrequests : t'.requests = t.requests)
  | dispatches (fn : ApiFn) (kind : RequestKind)
      (hcall : t'.call = some ⟨fn, kind, t.requests, .dispatched none⟩)
      (hpending : t'.pending = t.pending ++ [(t.requests, kind)])
      (hrequests : t'.requests = t.requests + 1)

/-- The run loop and the count of the requests are the same in both states. -/
def SameLoop (t u : Transport) : Prop :=
  u.runLoop = t.runLoop ∧ u.requests = t.requests

theorem returns_advances {t u : Transport} (fn : ApiFn) (ok : Bool) (hu : SameLoop t u) :
  Advances t (u.returns fn ok).1
  := by
  apply Advances.leaves
  · nofun
  · simp only [pending, returns, hu.1]
  · apply hu.2

theorem dispatch_advances {t u : Transport} (fn : ApiFn) (kind : RequestKind)
    (hu : SameLoop t u) :
  Advances t (u.dispatch fn kind).1
  := by
  apply Advances.dispatches fn kind
  · simp only [dispatch, hu.2]
  · simp [pending, dispatch, hu.1, hu.2]
  · simp only [dispatch, hu.2]

/-- The call goes on to a phase in which it waits for no `done_event`. -/
theorem phase_advances {t u : Transport} (fn : ApiFn) (kind : RequestKind) (number : Nat)
    {phase : Phase} (hphase : ∀ result, phase ≠ .dispatched result) (hu : SameLoop t u) :
  Advances t { u with call := some ⟨fn, kind, number, phase⟩ }
  := by
  apply Advances.leaves
  · rintro c ⟨⟩ result
    apply hphase
  · simp only [pending, hu.1]
  · apply hu.2

theorem waiting_advances {t u : Transport} (fn : ApiFn) (kind : RequestKind) (number : Nat)
    (hu : SameLoop t u) :
  Advances t { u with call := some ⟨fn, kind, number, .waiting⟩ }
  := phase_advances fn kind number nofun hu

theorem woken_advances {t u : Transport} (fn : ApiFn) (kind : RequestKind) (number : Nat)
    (signalled : Bool) (hu : SameLoop t u) :
  Advances t { u with call := some ⟨fn, kind, number, .woken signalled⟩ }
  := phase_advances fn kind number nofun hu

theorem consumeAwaited_sameLoop (t : Transport) (kind : RequestKind) :
  SameLoop t (t.consumeAwaited kind)
  := by
  cases kind <;> exact ⟨rfl, rfl⟩

theorem initCall_advances (t : Transport) :
  Advances t t.initCall.1
  := by
  rw [initCall]
  split
  · apply returns_advances
    exact ⟨rfl, rfl⟩
  · apply Advances.leaves
    · rintro c ⟨⟩ result
      nofun
    · rfl
    · rfl

theorem shutdownCall_advances {t u : Transport} (fn : ApiFn) (hu : SameLoop t u) :
  Advances t (u.shutdownCall fn).1
  := by
  rw [shutdownCall]
  split
  · apply returns_advances
    exact hu
  · split
    · apply dispatch_advances
      exact hu
    · rw [shutdownEnd]
      apply returns_advances
      exact hu

theorem scanCall_advances (t : Transport) (durationSeconds : UInt8) :
  Advances t (t.scanCall durationSeconds).1
  := by
  rw [scanCall]
  split
  · apply returns_advances
    exact ⟨rfl, rfl⟩
  · apply dispatch_advances
    exact ⟨rfl, rfl⟩

theorem connectA2dp_advances (t : Transport) (remoteAddr : List UInt8) :
  Advances t (t.connectA2dp remoteAddr).1
  := by
  rw [connectA2dp]
  split
  · apply returns_advances
    exact ⟨rfl, rfl⟩
  · apply dispatch_advances
    exact ⟨rfl, rfl⟩

theorem stopStream_advances (t : Transport) :
  Advances t t.stopStream.1
  := by
  rw [stopStream]
  split
  · apply returns_advances
    exact ⟨rfl, rfl⟩
  · apply dispatch_advances
    exact ⟨rfl, rfl⟩

theorem disconnectCall_advances {t u : Transport} (fn : ApiFn) (hu : SameLoop t u) :
  Advances t (u.disconnectCall fn).1
  := by
  rw [disconnectCall]
  split
  · apply returns_advances
    exact hu
  · split
    · apply dispatch_advances
      exact hu
    · apply dispatch_advances
      exact hu

theorem stageFailed_advances {t u : Transport} (fn : ApiFn) (hu : SameLoop t u) :
  Advances t (u.stageFailed fn).1
  := by
  rw [stageFailed.eq_def]
  split
  · apply disconnectCall_advances
    exact hu
  · apply returns_advances
    exact hu

theorem configureCall_advances {t u : Transport} (fn : ApiFn) (codec : AudioCodec)
    (sampleRate channels : Nat) (hu : SameLoop t u) :
  Advances t (u.configureCall fn codec sampleRate channels).1
  := by
  rw [configureCall]
  split
  · apply stageFailed_advances
    exact hu
  · simp only
    split
    · apply stageFailed_advances
      exact hu
    · split
      · apply stageFailed_advances
        exact hu
      · apply dispatch_advances
        exact hu

theorem startCall_advances {t u : Transport} (fn : ApiFn) (hu : SameLoop t u) :
  Advances t (u.startCall fn).1
  := by
  rw [startCall]
  split
  · apply stageFailed_advances
    exact hu
  · apply dispatch_advances
    exact hu

theorem reconnect_advances (t : Transport) :
  Advances t t.reconnect.1
  := by
  rw [reconnect]
  split
  · apply returns_advances
    exact ⟨rfl, rfl⟩
  · apply dispatch_advances
    exact ⟨rfl, rfl⟩

/-- What the call does behind `done_event` advances it; `init` queues no request. -/
theorem afterDone_advances (t : Transport) (fn : ApiFn) (kind : RequestKind)
    (number result : Nat) (hkind : kind ≠ .powerOn) :
  Advances t (t.afterDone fn kind number result).1
  := by
  cases kind with
  | powerOn => contradiction
  | inquiryStart duration =>
      rw [afterDone]
      split
      · apply returns_advances
        exact ⟨rfl, rfl⟩
      · apply waiting_advances
        exact ⟨rfl, rfl⟩
  | inquiryStop =>
      apply returns_advances
      exact ⟨rfl, rfl⟩
  | establishStream =>
      rw [afterDone]
      split
      · apply returns_advances
        exact ⟨rfl, rfl⟩
      · apply waiting_advances
        exact ⟨rfl, rfl⟩
  | setConfig codec info =>
      rw [afterDone]
      split
      · apply stageFailed_advances
        exact ⟨rfl, rfl⟩
      · apply waiting_advances
        exact ⟨rfl, rfl⟩
  | startStream =>
      rw [afterDone]
      split
      · apply stageFailed_advances
        exact ⟨rfl, rfl⟩
      · apply waiting_advances
        exact ⟨rfl, rfl⟩
  | pauseStream =>
      rw [afterDone.eq_def]
      dsimp only
      split
      · apply returns_advances
        exact ⟨rfl, rfl⟩
      · apply dispatch_advances
        exact ⟨rfl, rfl⟩
  | disconnect | powerOff =>
      apply waiting_advances
      exact ⟨rfl, rfl⟩

theorem afterWait_advances {t : Transport} {fn : ApiFn} {kind : RequestKind} {number : Nat}
    {signalled : Bool} (hcall : t.call = some ⟨fn, kind, number, .woken signalled⟩) :
  Advances t (t.afterWait fn kind signalled).1
  := by
  have hsame : Advances t t := by
    apply Advances.leaves
    · rw [hcall]
      rintro c ⟨⟩ result
      nofun
    · rfl
    · rfl
  cases kind with
  | powerOn =>
      rw [afterWait]
      split
      · apply returns_advances
        exact ⟨rfl, rfl⟩
      · apply shutdownCall_advances
        exact ⟨rfl, rfl⟩
  | inquiryStart duration =>
      rw [afterWait]
      split
      · apply returns_advances
        exact ⟨rfl, rfl⟩
      · apply dispatch_advances
        exact ⟨rfl, rfl⟩
  | powerOff =>
      rw [afterWait, shutdownEnd]
      apply returns_advances
      exact ⟨rfl, rfl⟩
  | establishStream =>
      rw [afterWait.eq_def]
      dsimp only
      split
      · split
        · apply configureCall_advances
          exact ⟨rfl, rfl⟩
        · apply returns_advances
          exact ⟨rfl, rfl⟩
      · apply returns_advances
        exact ⟨rfl, rfl⟩
  | setConfig codec info =>
      rw [afterWait.eq_def]
      dsimp only
      split
      · split
        · apply startCall_advances
          exact ⟨rfl, rfl⟩
        · apply stageFailed_advances
          exact ⟨rfl, rfl⟩
      · apply returns_advances
        exact ⟨rfl, rfl⟩
  | startStream =>
      rw [afterWait.eq_def]
      dsimp only
      split
      · split
        · apply returns_advances
          exact ⟨rfl, rfl⟩
        · apply stageFailed_advances
          exact ⟨rfl, rfl⟩
      · apply returns_advances
        exact ⟨rfl, rfl⟩
  | disconnect =>
      apply returns_advances
      exact ⟨rfl, rfl⟩
  | pauseStream | inquiryStop => apply hsame

/-- What a step does to the requests: nothing, it answers the first one, or it is one in
which no call waits for `done_event`, or gives up waiting, and goes on. -/
inductive RequestEffect (t : Transport) (a : Action) (t' : Transport) : Prop
  | keeps (ha : ∀ status cid, a = .runCallback status cid → t.runLoop.head? = some .mediaTrigger)
      (hcall : t'.call = t.call) (hpending : t'.pending = t.pending)
      (hrequests : t'.requests = t.requests)
  | advances (ha : ∀ status cid, a ≠ .runCallback status cid)
      (hfrom : t.inRequest = none ∨ a = .doneTimeout) (h : Advances t t')
  | answers (status : Nat) (cid : Option Nat) (number : Nat) (kind : RequestKind)
      (ha : a = .runCallback status cid) (fn : ApiFn) (kind' : RequestKind)
      (hfrom : t.call = some ⟨fn, kind', number, .dispatched none⟩)
      (hcall : t'.call
        = some ⟨fn, kind', number, .dispatched (some (storedStatus kind status % 2 ^ 8))⟩)
      (hloop : t.runLoop = .request number kind :: t'.runLoop)
      (hrequests : t'.requests = t.requests)
  | orphans (status : Nat) (cid : Option Nat) (number : Nat) (kind : RequestKind)
      (ha : a = .runCallback status cid) (hother : ∀ p ∈ t.inRequest, p.1 ≠ number)
      (hcall : t'.call = t.call) (hloop : t.runLoop = .request number kind :: t'.runLoop)
      (hrequests : t'.requests = t.requests)

/-- The callback of a request either answers the call that waits for it or finds it gone. -/
theorem answer_cases (t : Transport) (number status : Nat) :
  (∃ fn kind, t.call = some ⟨fn, kind, number, .dispatched none⟩
      ∧ (t.answer number status).1
        = { t with call := some ⟨fn, kind, number, .dispatched (some (status % 2 ^ 8))⟩ })
    ∨ ((∀ p ∈ t.inRequest, p.1 ≠ number) ∧ (t.answer number status).1 = t)
  := by
  rw [answer.eq_def]
  split
  · rename_i fn kind n hcall
    split
    · rename_i heq
      subst heq
      left
      exact ⟨fn, kind, hcall, rfl⟩
    · rename_i hne
      right
      constructor
      · rw [inRequest, hcall]
        rintro p ⟨⟩
        apply hne
      · rfl
  · rename_i hother
    right
    constructor
    · rw [inRequest]
      split
      · rename_i hcall
        exact absurd hcall (hother _ _ _)
      · intro c hc
        contradiction
    · rfl

theorem runCallback_effect {t : Transport} {status : Nat} {cid : Option Nat}
    {r : Transport × List Obs} (hrun : t.runCallback status cid = some r) :
  RequestEffect t (.runCallback status cid) r.1
  := by
  have hanswer : ∀ {number : Nat} {kind : RequestKind} {rest : List RunLoopCallback}
      {u : Transport}, t.runLoop = .request number kind :: rest → u.runLoop = rest →
      u.call = t.call → u.requests = t.requests →
      RequestEffect t (.runCallback status cid) (u.answer number (storedStatus kind status)).1 := by
    intro number kind rest u hloop hrest hcall hrequests
    rw [← hrest] at hloop
    rcases answer_cases u number (storedStatus kind status) with ⟨fn, kind', hfrom, heq⟩
        | ⟨hother, heq⟩
    · rw [hcall] at hfrom
      rw [heq]
      apply RequestEffect.answers status cid number kind rfl fn kind' hfrom
      · rfl
      · apply hloop
      · apply hrequests
    · rw [heq]
      apply RequestEffect.orphans status cid number kind rfl _ hcall hloop hrequests
      rw [inRequest, ← hcall]
      apply hother
  rw [runCallback.eq_def] at hrun
  split at hrun
  · contradiction
  · rename_i hloop
    obtain rfl := Option.some.inj hrun
    apply RequestEffect.keeps
    · intro _ _ _
      rw [hloop]
      rfl
    · rfl
    · simp [pending, mediaTrigger, hloop]
    · rfl
  · rename_i hloop
    split at hrun
    · obtain rfl := Option.some.inj hrun
      apply hanswer hloop
      · rfl
      · rfl
      · rfl
    · obtain rfl := Option.some.inj hrun
      apply hanswer hloop
      · rfl
      · rfl
      · rfl

/-- A handler leaves the call in progress, the requests and the run loop alone. -/
theorem handleEvent_frame (t : Transport) (e : Event) :
  (t.handleEvent e).1.call = t.call ∧ (t.handleEvent e).1.requests = t.requests
    ∧ (t.handleEvent e).1.runLoop = t.runLoop
  := by
  cases e with
  | signalingConnectionEstablished status cid =>
      rw [handleEvent, signalingConnectionEstablished]
      split <;> exact ⟨rfl, rfl, rfl⟩
  | streamEstablished status localSeid remoteSeid maxPayload =>
      rw [handleEvent, streamEstablished]
      split <;> exact ⟨rfl, rfl, rfl⟩
  | hciDisconnectionComplete =>
      rw [handleEvent, hciDisconnectionComplete]
      split <;> exact ⟨rfl, rfl, rfl⟩
  | inquiryResult device =>
      rw [handleEvent, inquiryResult]
      split <;> exact ⟨rfl, rfl, rfl⟩
  | canSendMediaPacketNow maxPayload status =>
      rw [handleEvent, canSendNow]
      split
      · exact ⟨rfl, rfl, rfl⟩
      · dsimp only
        split <;> exact ⟨rfl, rfl, rfl⟩
  | avrcpConnectionEstablished status cid =>
      rw [handleEvent]
      split <;> exact ⟨rfl, rfl, rfl⟩
  | hciWorking | hciOff | inquiryComplete | otherCapability | sbcCapability | aacCapability
  | capabilitiesComplete | streamStarted | streamSuspended | streamReleased
  | signalingConnectionReleased | avrcpConnectionReleased => exact ⟨rfl, rfl, rfl⟩

theorem enqueueMedia_keeps (t : Transport) (data : List UInt8) (timestamp : Nat)
    (frames : UInt8) (codec : AudioCodec) :
  (t.enqueueMedia data timestamp frames codec).1.call = t.call
    ∧ (t.enqueueMedia data timestamp frames codec).1.runLoop = t.runLoop
    ∧ (t.enqueueMedia data timestamp frames codec).1.requests = t.requests
  := by
  rw [enqueueMedia]
  split
  · exact ⟨rfl, rfl, rfl⟩
  · split
    · exact ⟨rfl, rfl, rfl⟩
    · split
      · exact ⟨rfl, rfl, rfl⟩
      · split <;> exact ⟨rfl, rfl, rfl⟩

theorem triggerMedia_keeps (t : Transport) :
  t.triggerMedia.call = t.call ∧ t.triggerMedia.pending = t.pending
    ∧ t.triggerMedia.requests = t.requests
  := by
  rw [triggerMedia]
  split
  · exact ⟨rfl, rfl, rfl⟩
  · constructor
    · rfl
    · constructor
      · simp [pending]
      · rfl

theorem inRequest_of_none {t : Transport} (h : t.call.isNone = true) :
  t.inRequest = none
  := by
  rw [inRequest, Option.isNone_iff_eq_none.mp h]

/-- The effect of a call that begins. -/
theorem Advances.begins {t t' : Transport} {a : Action} (h : Advances t t')
    (hnone : t.call.isNone = true) (ha : ∀ status cid, a ≠ .runCallback status cid) :
  RequestEffect t a t'
  := by
  apply RequestEffect.advances ha _ h
  left
  apply inRequest_of_none hnone

/-- Every step has one of the effects on the requests. -/
theorem step_requestEffect {t : Transport} {a : Action} {r : Transport × List Obs}
    (hstep : t.step a = some r) :
  RequestEffect t a r.1
  := by
  cases step_inv hstep with
  | init hnone =>
      refine Advances.begins ?_ hnone (fun _ _ => nofun)
      apply initCall_advances
  | scanDevices durationSeconds hnone =>
      refine Advances.begins ?_ hnone (fun _ _ => nofun)
      apply scanCall_advances
  | connectA2dp remoteAddr hnone =>
      refine Advances.begins ?_ hnone (fun _ _ => nofun)
      apply connectA2dp_advances
  | configureCodec codec sampleRate channels hnone =>
      refine Advances.begins ?_ hnone (fun _ _ => nofun)
      apply configureCall_advances
      exact ⟨rfl, rfl⟩
  | startStream hnone =>
      refine Advances.begins ?_ hnone (fun _ _ => nofun)
      apply startCall_advances
      exact ⟨rfl, rfl⟩
  | stopStream hnone =>
      refine Advances.begins ?_ hnone (fun _ _ => nofun)
      apply stopStream_advances
  | disconnect hnone =>
      refine Advances.begins ?_ hnone (fun _ _ => nofun)
      apply disconnectCall_advances
      exact ⟨rfl, rfl⟩
  | reconnect hnone =>
      refine Advances.begins ?_ hnone (fun _ _ => nofun)
      apply reconnect_advances
  | shutdown hnone =>
      refine Advances.begins ?_ hnone (fun _ _ => nofun)
      apply shutdownCall_advances
      exact ⟨rfl, rfl⟩
  | runCallback hrun => apply runCallback_effect hrun
  | @doneWake fn kind number result hcall =>
      by_cases hkind : kind = .powerOn
      · subst hkind
        exact RequestEffect.keeps (fun _ _ => nofun) rfl rfl rfl
      · refine RequestEffect.advances (fun _ _ => nofun) ?_ ?_
        · left
          rw [inRequest, hcall]
        · apply afterDone_advances _ _ _ _ _ hkind
  | @doneTimeout fn kind number hcall =>
      by_cases hkind : kind = .powerOn
      · subst hkind
        exact RequestEffect.keeps (fun _ _ => nofun) rfl rfl rfl
      · refine RequestEffect.advances (fun _ _ => nofun) (Or.inr rfl) ?_
        apply afterDone_advances _ _ _ _ _ hkind
  | eventWake hcall =>
      refine RequestEffect.advances (fun _ _ => nofun) ?_ ?_
      · left
        rw [inRequest, hcall]
      · apply woken_advances
        apply consumeAwaited_sameLoop
  | waitCancelled hcall | waitTimeout hcall =>
      refine RequestEffect.advances (fun _ _ => nofun) ?_ ?_
      · left
        rw [inRequest, hcall]
      · apply woken_advances
        exact ⟨rfl, rfl⟩
  | resume hcall =>
      refine RequestEffect.advances (fun _ _ => nofun) ?_ ?_
      · left
        rw [inRequest, hcall]
      · apply afterWait_advances hcall
  | cancelPendingWaits | checkDisconnected =>
      exact RequestEffect.keeps (fun _ _ => nofun) rfl rfl rfl
  | event attempt e =>
      obtain ⟨hcall, hrequests, hloop⟩ := t.handleEvent_frame e
      refine RequestEffect.keeps (fun _ _ => nofun) hcall ?_ hrequests
      simp only [pending, hloop]
  | sendEnqueue data timestamp frames codec =>
      obtain ⟨hcall, hloop, hrequests⟩ := t.enqueueMedia_keeps data timestamp frames codec
      refine RequestEffect.keeps (fun _ _ => nofun) hcall ?_ hrequests
      rw [pending, hloop]
      rfl
  | sendTrigger =>
      obtain ⟨hcall, hpending, hrequests⟩ := t.triggerMedia_keeps
      exact RequestEffect.keeps (fun _ _ => nofun) hcall hpending hrequests

/-- The status the callback of the request the call waits for returns, when it is the one
that runs. -/
def answered (t : Transport) : Action → Option Nat
  | .runCallback status _ =>
      match t.runLoop with
      | .request number _ :: _ =>
          if t.inRequest.any (fun p => p.1 = number) then some (status % 2 ^ 8) else none
      | _ => none
  | _ => none

theorem inRequest_congr {t t' : Transport} (h : t'.call = t.call) :
  t'.inRequest = t.inRequest
  := by
  rw [inRequest, inRequest, h]

/-- No call waits for `done_event` behind a step that leaves it. -/
theorem inRequest_eq_none {t : Transport}
    (h : ∀ c ∈ t.call, ∀ result, c.phase ≠ .dispatched result) :
  t.inRequest = none
  := by
  rw [inRequest]
  split
  · rename_i hcall
    exact absurd rfl (h _ hcall none)
  · rfl

/-- Only the callback of a request has a status. -/
theorem answered_eq_none {t : Transport} {a : Action}
    (ha : ∀ status cid, a = .runCallback status cid → t.runLoop.head? = some .mediaTrigger) :
  t.answered a = none
  := by
  cases a with
  | runCallback status cid =>
      have hhead := ha status cid rfl
      rw [answered]
      split
      · rename_i hloop
        simp [hloop] at hhead
      · rfl
  | _ => rfl

theorem pending_cons {t : Transport} {number : Nat} {kind : RequestKind}
    {rest : List RunLoopCallback} (h : t.runLoop = .request number kind :: rest) :
  t.pending = (number, kind) :: rest.filterMap fun
      | .request number kind => some (number, kind)
      | .mediaTrigger => none
  := by
  rw [pending, h]
  rfl

end Transport

namespace Transport

/-- A call that gives up a stage is not at that stage behind it. -/
theorem stageFailed_call (t : Transport) (fn : ApiFn) {kind : RequestKind} (number : Nat)
    (phase : Phase) (hpause : kind ≠ .pauseStream) (hdisconnect : kind ≠ .disconnect) :
  (t.stageFailed fn).1.call ≠ some ⟨fn, kind, number, phase⟩
  := by
  intro h
  rw [stageFailed.eq_def] at h
  split at h
  · rw [disconnectCall] at h
    split at h
    · cases h
    · split at h
      · cases h
        apply hpause rfl
      · cases h
        apply hdisconnect rfl
  · cases h

/-- A call takes a request as accepted exactly when it goes on as behind one that has
succeeded. -/
theorem accepts_iff_afterDone (t : Transport) (fn : ApiFn) (kind : RequestKind)
    (number result : Nat) :
  kind.accepts result = true ↔ t.afterDone fn kind number result = t.afterDone fn kind number 0
  := by
  by_cases hresult : result = 0
  · simp [hresult, RequestKind.accepts]
  · cases kind with
    | powerOn | inquiryStop | pauseStream | disconnect | powerOff =>
        simp [RequestKind.accepts, RequestKind.checked, afterDone]
    | inquiryStart | establishStream =>
        simp [RequestKind.accepts, RequestKind.checked, afterDone, hresult, returns]
    | setConfig codec info =>
        simp only [RequestKind.accepts, RequestKind.checked, hresult, afterDone, ne_eq,
          not_true_eq_false, not_false_eq_true, if_true, if_false]
        refine iff_of_false (by simp) fun h => ?_
        apply t.stageFailed_call fn number .waiting _ _ (congrArg (fun r => r.1.call) h)
        · nofun
        · nofun
    | startStream =>
        simp only [RequestKind.accepts, RequestKind.checked, hresult, afterDone, ne_eq,
          not_true_eq_false, not_false_eq_true, if_true, if_false]
        refine iff_of_false (by simp) fun h => ?_
        apply t.stageFailed_call fn number .waiting _ _ (congrArg (fun r => r.1.call) h)
        · nofun
        · nofun

end Transport

/-! ### The recorded requests -/

/-- A transport with what the callback of the request it is at has returned, and the number
of the first request of the call in progress. -/
structure Requests where
  transport : Transport
  status : Option Nat
  first : Nat

namespace Requests

/-- One step: a new request has no status, and a callback that runs gives it one. -/
def next (s : Requests) (a : Action) : Option Requests :=
  (s.transport.step a).map fun r =>
    { transport := r.1
      status :=
        if r.1.requests ≠ s.transport.requests then none
        else (s.transport.answered a).or s.status
      first := if s.transport.call.isNone then s.transport.requests else s.first }

/-- The transport behind the registration of its stream endpoints. -/
def start (sbcSeid aacSeid sscSeid : Nat) : Requests where
  transport := { sbcLocalSeid := sbcSeid, aacLocalSeid := aacSeid, sscLocalSeid := sscSeid }
  status := none
  first := 0

/-- A call goes on as if its request had been accepted only behind its callback, which has
returned success. -/
def AcceptsAnswered (s : Requests) (a : Action) : Prop :=
  ∀ p ∈ s.transport.doneResult a, p.1.accepts p.2 = true → s.status = some 0

/-- The call that owns the request `number` is in progress: it waits for it, or is one of the
two whose first request is on the stack while they make others. -/
def Owns (s : Requests) (number : Nat) : Prop :=
  ∃ c ∈ s.transport.call,
    c.request = number ∨ (c.fn = .reconnect ∨ c.fn = .scanDevices) ∧ s.first = number

/-- A callback runs only while the call that owns its request is in progress. -/
def RunsOwned (s : Requests) (a : Action) : Prop :=
  ∀ status cid, a = .runCallback status cid → ∀ number kind rest,
    s.transport.runLoop = .request number kind :: rest → s.Owns number

/-- Along the steps `as` from `s` the requests are synchronous. -/
def RequestLaw (s : Requests) (as : List Action) : Prop :=
  ∀ t a u, Takes next s as t a u → t.AcceptsAnswered a ∧ t.RunsOwned a

/-- The wait for `done_event` does not time out, and BTstack has returned success when the
call does not look at the status. -/
def Answered (s : Requests) (a : Action) : Prop :=
  a ≠ .doneTimeout ∧ ∀ p ∈ s.transport.doneResult a, p.1.checked = false → s.status = some 0

instance (s : Requests) (a : Action) : Decidable (s.Answered a) :=
  inferInstanceAs (Decidable (_ ∧ ∀ p ∈ _, _ → _))

/-- The requests in the run loop are older than the next one, the one the call waits for is
of its kind and has no status, and the status a call finds is the one its callback
returned. -/
structure Numbered (s : Requests) : Prop where
  pending_lt : ∀ p ∈ s.transport.pending, p.1 < s.transport.requests
  inRequest_lt : ∀ p ∈ s.transport.inRequest, p.1 < s.transport.requests
  kind_eq : ∀ p ∈ s.transport.inRequest, ∀ q ∈ s.transport.pending, q.1 = p.1 → q.2 = p.2
  unanswered : s.transport.inRequest ≠ none → s.status = none
  answered : ∀ fn kind number result,
    s.transport.call = some ⟨fn, kind, number, .dispatched (some result)⟩ →
      ∃ status, s.status = some status ∧ (kind.checked = true → result = status)

theorem start_numbered (sbcSeid aacSeid sscSeid : Nat) :
  (start sbcSeid aacSeid sscSeid).Numbered
  where
  pending_lt := nofun
  inRequest_lt := nofun
  kind_eq := nofun
  unanswered h := absurd rfl h
  answered := nofun

theorem next_numbered {s s' : Requests} {a : Action} (h : s.Numbered)
    (hnext : s.next a = some s') :
  s'.Numbered
  := by
  obtain ⟨r, hstep, rfl⟩ := Option.map_eq_some_iff.mp hnext
  cases Transport.step_requestEffect hstep with
  | keeps ha hcall hpending hrequests =>
      have hin := Transport.inRequest_congr hcall
      constructor <;> simp only [hin, hpending, hrequests, hcall, Transport.answered_eq_none ha,
        ne_eq, not_true_eq_false, if_false, Option.none_or]
      · apply h.pending_lt
      · apply h.inRequest_lt
      · apply h.kind_eq
      · apply h.unanswered
      · apply h.answered
  | advances ha hfrom hadvances =>
      have hnone : s.transport.answered a = none := by
        apply Transport.answered_eq_none
        intro status cid heq
        exact absurd heq (ha status cid)
      cases hadvances with
      | leaves hto hpending hrequests =>
          have hin := Transport.inRequest_eq_none hto
          constructor <;> simp only [hin, hpending, hrequests]
          · apply h.pending_lt
          · nofun
          · nofun
          · intro hne
            contradiction
          · intro fn kind number result hcall
            exact absurd rfl (hto _ hcall _)
      | dispatches fn kind hcall hpending hrequests =>
          have hin : r.1.inRequest = some (s.transport.requests, kind) := by
            rw [Transport.inRequest, hcall]
          constructor <;> simp only [hin, hpending, hrequests, hcall]
          · intro p hp
            rcases List.mem_append.mp hp with hp | hp
            · have hlt := h.pending_lt p hp
              omega
            · obtain rfl := List.mem_singleton.mp hp
              apply Nat.lt_succ_self
          · rintro p ⟨⟩
            apply Nat.lt_succ_self
          · rintro p ⟨⟩ q hq heq
            rcases List.mem_append.mp hq with hq | hq
            · have hlt := h.pending_lt q hq
              omega
            · obtain rfl := List.mem_singleton.mp hq
              rfl
          · intro _
            rw [if_pos (by omega)]
          · nofun
  | answers status cid number kind ha fn kind' hfrom hcall hloop hrequests =>
      have hold : s.transport.inRequest = some (number, kind') := by
        rw [Transport.inRequest, hfrom]
      have hin : r.1.inRequest = none := by
        rw [Transport.inRequest, hcall]
      have hpending := Transport.pending_cons hloop
      have hkind : kind = kind' := by
        apply h.kind_eq _ hold (number, kind)
        · rw [hpending]
          apply List.mem_cons_self
        · rfl
      constructor <;> simp only [hin, hrequests]
      · intro p hp
        apply h.pending_lt
        rw [hpending]
        apply List.mem_cons_of_mem _ hp
      · nofun
      · nofun
      · intro hne
        contradiction
      · intro fn₀ kind₀ number₀ result hresult
        rw [hcall] at hresult
        obtain ⟨rfl, rfl, rfl, rfl⟩ : fn = fn₀ ∧ kind' = kind₀ ∧ number = number₀
            ∧ Transport.storedStatus kind status % 2 ^ 8 = result := by
          simpa using hresult
        use status % 2 ^ 8
        constructor
        · subst ha
          simp [Transport.answered, hloop, hold]
        · intro hchecked
          subst hkind
          cases kind with
          | inquiryStart | establishStream | setConfig | startStream => rfl
          | _ => contradiction
  | orphans status cid number kind ha hother hcall hloop hrequests =>
      have hin := Transport.inRequest_congr hcall
      have hpending := Transport.pending_cons hloop
      have hnone : s.transport.answered a = none := by
        subst ha
        rw [Transport.answered, hloop]
        dsimp only
        rw [if_neg]
        rw [Bool.not_eq_true, Option.any_eq_false]
        intro p hp
        simpa using hother p hp
      constructor <;> simp only [hin, hrequests, hcall, hnone, ne_eq, not_true_eq_false, if_false,
        Option.none_or]
      · intro p hp
        apply h.pending_lt
        rw [hpending]
        apply List.mem_cons_of_mem _ hp
      · apply h.inRequest_lt
      · intro p hp q hq
        apply h.kind_eq p hp
        rw [hpending]
        apply List.mem_cons_of_mem _ hq
      · apply h.unanswered
      · apply h.answered

/-- A call goes on behind its callback and success exactly when the step is answered. -/
theorem acceptsAnswered_iff {s s' : Requests} {a : Action} (h : s.Numbered)
    (hnext : s.next a = some s') :
  s.AcceptsAnswered a ↔ s.Answered a
  := by
  obtain ⟨r, hstep, -⟩ := Option.map_eq_some_iff.mp hnext
  constructor
  · intro haccepts
    constructor
    · rintro rfl
      cases Transport.step_inv hstep with
      | @doneTimeout fn kind number hcall =>
          have hresult : s.transport.doneResult .doneTimeout = some (kind, 0) := by
            rw [Transport.doneResult, hcall]
          have hsuccess := haccepts _ hresult (by simp [RequestKind.accepts])
          have hnone := h.unanswered (by simp [Transport.inRequest, hcall])
          rw [hnone] at hsuccess
          contradiction
    · intro p hp hchecked
      apply haccepts p hp
      simp [RequestKind.accepts, hchecked]
  · rintro ⟨htimeout, hunchecked⟩ ⟨kind, result⟩ hresult haccepts
    by_cases hchecked : kind.checked = true
    · cases a with
      | doneWake =>
          rw [Transport.doneResult] at hresult
          split at hresult
          · rename_i hcall
            obtain ⟨rfl, rfl⟩ := Prod.mk.inj (Option.some.inj hresult)
            obtain ⟨status, hstatus, heq⟩ := h.answered _ _ _ _ hcall
            rw [RequestKind.accepts, hchecked] at haccepts
            rw [hstatus, ← heq hchecked]
            simpa using haccepts
          · contradiction
      | doneTimeout => contradiction
      | _ => contradiction
    · apply hunchecked _ hresult
      simpa using hchecked

/-- The request the call waits for is the only one in the run loop. -/
def Alone (s : Requests) : Prop :=
  s.transport.pending = s.transport.inRequest.toList

theorem start_alone (sbcSeid aacSeid sscSeid : Nat) :
  (start sbcSeid aacSeid sscSeid).Alone
  := rfl

/-- A step that is answered leaves no other request in the run loop. -/
theorem Alone.next {s s' : Requests} {a : Action} (h : s.Alone) (hanswered : s.Answered a)
    (hnext : s.next a = some s') :
  s'.Alone
  := by
  obtain ⟨r, hstep, rfl⟩ := Option.map_eq_some_iff.mp hnext
  rw [Alone] at h ⊢
  cases Transport.step_requestEffect hstep with
  | keeps ha hcall hpending hrequests =>
      simp only [hpending, h, Transport.inRequest_congr hcall]
  | advances ha hfrom hadvances =>
      have hempty : s.transport.pending = [] := by
        rw [h, hfrom.resolve_right hanswered.1]
        rfl
      cases hadvances with
      | leaves hto hpending hrequests =>
          simp only [hpending, hempty, Transport.inRequest_eq_none hto]
          rfl
      | dispatches fn kind hcall hpending hrequests =>
          simp only [hpending, hempty, Transport.inRequest, hcall]
          rfl
  | answers status cid number kind ha fn kind' hfrom hcall hloop hrequests =>
      have hpending := Transport.pending_cons hloop
      have hin : s.transport.inRequest = some (number, kind') := by
        rw [Transport.inRequest, hfrom]
      rw [hpending, hin] at h
      obtain ⟨-, hrest⟩ := List.cons.inj h
      simp only [Transport.inRequest, hcall]
      apply hrest
  | orphans status cid number kind ha hother hcall hloop hrequests =>
      have hpending := Transport.pending_cons hloop
      rw [hpending] at h
      have hin : s.transport.inRequest = some (number, kind) := by
        cases hcase : s.transport.inRequest with
        | none =>
            rw [hcase] at h
            contradiction
        | some p =>
            rw [hcase] at h
            rw [(List.cons.inj h).1]
      exact absurd rfl (hother _ hin)

/-- The callback that runs is the one the call in progress waits for. -/
theorem Alone.runsOwned {s : Requests} (h : s.Alone) (a : Action) :
  s.RunsOwned a
  := by
  rintro status cid rfl number kind rest hloop
  rw [Alone, Transport.pending_cons hloop] at h
  cases hin : s.transport.inRequest with
  | none =>
      rw [hin] at h
      contradiction
  | some p =>
      rw [hin] at h
      obtain ⟨rfl, -⟩ := List.cons.inj h
      rw [Transport.inRequest] at hin
      split at hin
      · rename_i hcall
        obtain ⟨rfl, -⟩ := Prod.mk.inj (Option.some.inj hin)
        exact ⟨_, hcall, Or.inl rfl⟩
      · contradiction

/-- The requests are synchronous along a run exactly when each wait for one ends with its
callback, which has succeeded where the call does not look. -/
theorem requestLaw_iff {sbcSeid aacSeid sscSeid : Nat} {as : List Action} {s : Requests}
    (h : Run next always (start sbcSeid aacSeid sscSeid) as s) :
  RequestLaw (start sbcSeid aacSeid sscSeid) as
    ↔ Run next Answered (start sbcSeid aacSeid sscSeid) as s
  := by
  have haccepts := takes_iff (Q := fun t a _ => t.AcceptsAnswered a) (C := Answered) h
    (start_numbered sbcSeid aacSeid sscSeid) (fun _ _ _ hs hstep => next_numbered hs hstep)
    (fun _ _ _ hs hstep => acceptsAnswered_iff hs hstep)
  constructor
  · intro hlaw
    apply haccepts.mp
    intro t a u htakes
    apply (hlaw t a u htakes).1
  · intro hrun t a u htakes
    constructor
    · apply haccepts.mpr hrun t a u htakes
    · obtain ⟨⟨bs, hbs⟩, -, -⟩ := hrun.of_takes htakes
      have halone : t.Alone := by
        apply hbs.invariant (start_alone sbcSeid aacSeid sscSeid)
        intro s a t hs hanswered hstep
        apply hs.next hanswered hstep
      apply halone.runsOwned

/-- A connection whose request waits in a run loop that is stalled. -/
def stalledConnect : List Action :=
  [.init, .event 0 .hciWorking, .eventWake, .resume, .connectA2dp [1, 2, 3, 4, 5, 6]]

theorem stalledConnect_unanswered :
  (exec next (start 1 2 3) stalledConnect).map (fun s => (s.status,
      s.transport.doneResult .doneTimeout, (s.next .doneTimeout).isSome))
    = some (none, some (.establishStream, 0), true)
  := by
  rfl

/-- `connect_a2dp` takes a request as accepted whose callback has not run. -/
theorem not_requestLaw_stalled :
  ¬ ∀ (sbcSeid aacSeid sscSeid : Nat) (as : List Action) (s : Requests),
    Run next always (start sbcSeid aacSeid sscSeid) as s →
      RequestLaw (start sbcSeid aacSeid sscSeid) as
  := by
  intro hall
  obtain ⟨t, ht, hstalled⟩ := Option.map_eq_some_iff.mp stalledConnect_unanswered
  obtain ⟨hstatus, hresult, hnext⟩ : t.status = none
      ∧ t.transport.doneResult .doneTimeout = some (.establishStream, 0)
      ∧ (t.next .doneTimeout).isSome = true := by
    simpa using hstalled
  obtain ⟨u, hu⟩ := Option.isSome_iff_exists.mp hnext
  have hrun := (run_of_exec ht).snoc trivial hu
  obtain ⟨haccepts, -⟩ := hall 1 2 3 _ u hrun t .doneTimeout u
    ⟨stalledConnect, [], rfl, run_of_exec ht, hu⟩
  have hsuccess := haccepts _ hresult rfl
  rw [hstatus] at hsuccess
  contradiction

end Requests

/-- A session over SSC whose link is lost and set up again in one call, and another session. -/
def reconnectedSession : List Action :=
  List.flatten [[.init, .event 0 .hciWorking, .eventWake, .resume], sessionSetup 1 1,
    [.event 1 .hciDisconnectionComplete, .checkDisconnected], sessionReconnect 2 2, sessionEnd 2,
    sessionSetup 3 3, sessionEnd 3]

namespace Requests

/-- The law for these sessions. -/
theorem requestLaw_reconnectedSession :
  RequestLaw (start 1 2 3) reconnectedSession
  := by
  have hsome : (exec (guarded next Answered) (start 1 2 3) reconnectedSession).isSome := by
    decide +kernel
  obtain ⟨s, hs⟩ := Option.isSome_iff_exists.mp hsome
  have hrun := run_of_exec_guarded hs
  apply (requestLaw_iff hrun.toAlways).mpr hrun

end Requests

end Ssc
