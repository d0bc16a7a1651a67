import SscOnWindows.Transport.Pieces
import SscOnWindows.Transport.Requests

/-!
# The call that starts a stream

`start_stream`, and `reconnect` at its last stage, return `true` when the stream has been
started.  It may have been lost again since; then a disconnection is recorded, unless the
remote has suspended or released the stream.

A call in progress goes on to another stage of the same call, or returns.
-/

namespace Ssc

/-- The call is one that returns `true` for a started stream. -/
def ApiFn.starts : ApiFn → Bool
  | .startStream | .reconnect => true
  | _ => false

/-- The stages of `reconnect`. -/
def RequestKind.reconnects : RequestKind → Bool
  | .establishStream | .setConfig _ _ | .startStream | .pauseStream | .disconnect => true
  | _ => false

namespace Call

/-- The stage belongs to the call. -/
def staged (c : Call) : Bool :=
  match c.fn with
  | .startStream => c.kind = .startStream
  | .reconnect => c.kind.reconnects
  | _ => true

/-- The call is waiting for its stream to start. -/
def starting (c : Call) : Bool :=
  c.fn.starts && c.kind = .startStream

end Call

/-- The remote has suspended or released the stream. -/
def Transport.Event.halts : Transport.Event → Bool
  | .streamSuspended | .streamReleased => true
  | _ => false

/-- The step is the suspension or the release of the stream by the remote. -/
def Action.halts : Action → Bool
  | .event _ e => e.halts
  | _ => false

/-- The steps of BTstack, of the encode thread in `send_media`, and of a call that is in
progress. -/
def Action.inCall : Action → Bool
  | .runCallback _ _ | .doneWake | .doneTimeout | .eventWake | .waitCancelled | .waitTimeout
  | .resume | .event _ _ | .sendEnqueue _ _ _ _ | .sendTrigger => true
  | _ => false

/-- The call of the worker the step begins. -/
def Action.fn? : Action → Option ApiFn
  | .connectA2dp _ => some .connectA2dp
  | .configureCodec _ _ _ => some .configureCodec
  | .startStream => some .startStream
  | .stopStream => some .stopStream
  | .disconnect => some .disconnect
  | .reconnect => some .reconnect
  | _ => none

/-- What a call has returned. -/
def Obs.returned? : Obs → Option (ApiFn × Bool)
  | .returned fn ok => some (fn, ok)
  | _ => none

namespace Transport

/-- The stream is started, or the transport has recorded a disconnection. -/
def Up (t : Transport) : Prop :=
  t.streaming = true ∨ t.disconnectOccurred = true

/-- The call is at a stage of its own, and when the result of a start is there, the stream is
up. -/
structure InStage (t : Transport) (c : Call) : Prop where
  staged : c.staged = true
  up : c.starting = true → t.startResult = true → t.Up

/-- The call `fn` is in progress, or it has returned; when it has returned `true` for a started
stream, the stream is up. -/
inductive Proceeds (fn : ApiFn) (r : Transport × List Obs) : Prop
  | goesOn (c : Call) (hcall : r.1.call = some c) (hfn : c.fn = fn) (hstage : r.1.InStage c)
      (hobs : r.2.findSome? Obs.returned? = none)
  | returns (ok : Bool) (hcall : r.1.call = none)
      (hobs : r.2.findSome? Obs.returned? = some (fn, ok))
      (hup : fn.starts = true → ok = true → r.1.Up)

/-! ### The stages -/

section Stages

variable (t : Transport) {fn : ApiFn}

theorem returns_proceeds (ok : Bool) (hup : fn.starts = true → ok = true → t.Up) :
  Proceeds fn (t.returns fn ok)
  := by
  apply Proceeds.returns ok
  · rfl
  · rfl
  · apply hup

/-- A call that fails, or starts no stream, may return. -/
theorem returns_proceeds_of_not {ok : Bool} (h : (fn.starts && ok) = false) :
  Proceeds fn (t.returns fn ok)
  := by
  apply returns_proceeds
  intro hfn hok
  rw [hfn, hok] at h
  contradiction

/-- The next stage is one of the call that waits for no stream. -/
theorem dispatch_proceeds {kind : RequestKind}
    (hstaged : ∀ number phase, (⟨fn, kind, number, phase⟩ : Call).staged = true)
    (hkind : kind ≠ .startStream) :
  Proceeds fn (t.dispatch fn kind)
  := by
  apply Proceeds.goesOn
  · rfl
  · rfl
  · constructor
    · apply hstaged
    · intro hstarting
      exact absurd (of_decide_eq_true (Bool.and_eq_true_iff.mp hstarting).2) hkind
  · rfl

/-- The call stays at its stage. -/
theorem same_proceeds {kind : RequestKind} {number : Nat} {phase : Phase}
    (hcall : t.call = some ⟨fn, kind, number, phase⟩)
    (hstage : t.InStage ⟨fn, kind, number, phase⟩) :
  Proceeds fn (t, [])
  := by
  apply Proceeds.goesOn _ hcall
  · rfl
  · apply hstage
  · rfl

/-- The call goes on to another phase. -/
theorem waiting_proceeds {kind : RequestKind} {number : Nat} {phase phase' : Phase}
    (hstage : t.InStage ⟨fn, kind, number, phase⟩) :
  Proceeds fn ({ t with call := some ⟨fn, kind, number, phase'⟩ }, [])
  := by
  apply Proceeds.goesOn
  · rfl
  · rfl
  · exact ⟨hstage.staged, hstage.up⟩
  · rfl

theorem shutdownEnd_proceeds (h : fn.starts = false) :
  Proceeds fn (t.shutdownEnd fn)
  := by
  apply returns_proceeds_of_not
  rw [h, Bool.false_and]

/-- Every stage is one of a call that starts no stream. -/
theorem staged_of_not (h : fn.starts = false) {kind : RequestKind} (number : Nat) (phase : Phase) :
  (⟨fn, kind, number, phase⟩ : Call).staged = true
  := by
  cases fn with
  | startStream | reconnect => contradiction
  | _ => rfl

theorem shutdownCall_proceeds (h : fn.starts = false) :
  Proceeds fn (t.shutdownCall fn)
  := by
  rw [shutdownCall]
  split
  · apply returns_proceeds_of_not
    rw [h, Bool.false_and]
  · split
    · apply dispatch_proceeds
      · apply staged_of_not h
      · intro h
        contradiction
    · apply shutdownEnd_proceeds _ h

/-- A call at another stage than those of a stream starts none. -/
theorem not_starts {kind : RequestKind} {number : Nat} {phase : Phase}
    (h : (⟨fn, kind, number, phase⟩ : Call).staged = true) (hkind : kind.reconnects = false) :
  fn.starts = false
  := by
  cases fn with
  | startStream =>
      obtain rfl : kind = .startStream := of_decide_eq_true h
      contradiction
  | reconnect =>
      rw [Call.staged, hkind] at h
      contradiction
  | _ => rfl

/-- Every stage behind the end of a stream is one of a call that is not `start_stream`. -/
theorem staged_of_ne (h : fn ≠ .startStream) {kind : RequestKind} (hkind : kind.reconnects = true)
    (number : Nat) (phase : Phase) :
  (⟨fn, kind, number, phase⟩ : Call).staged = true
  := by
  cases fn with
  | startStream => contradiction
  | reconnect => apply hkind
  | _ => rfl

theorem disconnectCall_proceeds (h : fn ≠ .startStream) :
  Proceeds fn (t.disconnectCall fn)
  := by
  rw [disconnectCall]
  split
  · apply returns_proceeds_of_not
    cases fn <;> rfl
  · split
    · apply dispatch_proceeds
      · apply staged_of_ne h rfl
      · intro h
        contradiction
    · apply dispatch_proceeds
      · apply staged_of_ne h rfl
      · intro h
        contradiction

theorem stageFailed_proceeds (fn : ApiFn) :
  Proceeds fn (t.stageFailed fn)
  := by
  rw [stageFailed.eq_def]
  split
  · apply disconnectCall_proceeds
    intro h
    contradiction
  · apply returns_proceeds_of_not
    apply Bool.and_false

theorem configureCall_proceeds (h : fn ≠ .startStream) (codec : AudioCodec)
    (sampleRate channels : Nat) :
  Proceeds fn (t.configureCall fn codec sampleRate channels)
  := by
  rw [configureCall]
  split
  · apply stageFailed_proceeds
  · dsimp only
    split
    · apply stageFailed_proceeds
    · split
      · apply stageFailed_proceeds
      · apply dispatch_proceeds
        · apply staged_of_ne h rfl
        · intro h
          contradiction

/-- A stream that is about to start has no result yet. -/
theorem startCall_proceeds (h : fn.starts = true) :
  Proceeds fn (t.startCall fn)
  := by
  rw [startCall]
  split
  · apply stageFailed_proceeds
  · apply Proceeds.goesOn
    · rfl
    · rfl
    · constructor
      · cases fn with
        | startStream | reconnect => rfl
        | _ => contradiction
      · intro _ hresult
        contradiction
    · rfl

/-- A call behind `done_event`. -/
theorem afterDone_proceeds {kind : RequestKind} {number : Nat} {phase : Phase} (result : Nat)
    (hcall : t.call = some ⟨fn, kind, number, phase⟩)
    (hstage : t.InStage ⟨fn, kind, number, phase⟩) :
  Proceeds fn (t.afterDone fn kind number result)
  := by
  have hstaged := hstage.staged
  cases kind with
  | powerOn => apply same_proceeds _ hcall hstage
  | inquiryStart duration =>
      rw [afterDone]
      split
      · apply returns_proceeds_of_not
        apply Bool.and_false
      · apply waiting_proceeds _ hstage
  | inquiryStop =>
      apply returns_proceeds_of_not
      apply Bool.and_false
  | establishStream =>
      rw [afterDone]
      split
      · apply returns_proceeds_of_not
        apply Bool.and_false
      · apply waiting_proceeds _ hstage
  | setConfig codec info =>
      rw [afterDone]
      split
      · apply stageFailed_proceeds
      · apply waiting_proceeds _ hstage
  | startStream =>
      rw [afterDone]
      split
      · apply stageFailed_proceeds
      · apply waiting_proceeds _ hstage
  | pauseStream =>
      cases fn with
      | stopStream => apply returns_proceeds_of_not _ rfl
      | startStream => contradiction
      | _ =>
          apply dispatch_proceeds
          · intro _ _
            rfl
          · intro h
            contradiction
  | disconnect | powerOff => apply waiting_proceeds _ hstage

/-- A call behind its wait. -/
theorem afterWait_proceeds {kind : RequestKind} {number : Nat} {phase : Phase} (signalled : Bool)
    (hcall : t.call = some ⟨fn, kind, number, phase⟩)
    (hstage : t.InStage ⟨fn, kind, number, phase⟩) :
  Proceeds fn (t.afterWait fn kind signalled)
  := by
  have hstaged := hstage.staged
  cases kind with
  | powerOn =>
      have hnot := not_starts hstaged rfl
      rw [afterWait]
      split
      · apply returns_proceeds_of_not
        rw [hnot, Bool.false_and]
      · apply shutdownCall_proceeds _ hnot
  | inquiryStart duration =>
      have hnot := not_starts hstaged rfl
      rw [afterWait]
      split
      · apply returns_proceeds_of_not
        rw [hnot, Bool.false_and]
      · apply dispatch_proceeds
        · apply staged_of_not hnot
        · intro h
          contradiction
  | powerOff =>
      have hnot := not_starts hstaged rfl
      apply shutdownEnd_proceeds _ hnot
  | inquiryStop | pauseStream => apply same_proceeds _ hcall hstage
  | establishStream =>
      cases fn with
      | reconnect =>
          rw [afterWait]
          split
          · apply configureCall_proceeds
            intro h
            contradiction
          · apply returns_proceeds_of_not _ rfl
      | startStream => contradiction
      | _ =>
          apply returns_proceeds_of_not
          rfl
  | setConfig codec info =>
      cases fn with
      | reconnect =>
          rw [afterWait]
          split
          · apply startCall_proceeds _ rfl
          · apply stageFailed_proceeds
      | startStream => contradiction
      | _ =>
          apply returns_proceeds_of_not
          rfl
  | startStream =>
      cases fn with
      | reconnect =>
          rw [afterWait]
          split
          · rename_i hresult
            apply returns_proceeds
            intro _ _
            apply hstage.up rfl (Bool.and_eq_true_iff.mp hresult).2
          · apply stageFailed_proceeds
      | startStream =>
          apply returns_proceeds
          intro _ hresult
          apply hstage.up rfl (Bool.and_eq_true_iff.mp hresult).2
      | _ =>
          apply returns_proceeds_of_not
          rfl
  | disconnect =>
      apply returns_proceeds_of_not
      cases fn <;> rfl

end Stages

/-! ### The steps in a call -/

/-- The stage of the call in progress. -/
def stage (t : Transport) : Option (ApiFn × RequestKind) :=
  t.call.map fun c => (c.fn, c.kind)

/-- The two states agree on the stream. -/
structure SameStream (t u : Transport) : Prop where
  streaming_eq : u.streaming = t.streaming
  disconnectOccurred_eq : u.disconnectOccurred = t.disconnectOccurred
  startResult_eq : u.startResult = t.startResult

theorem SameStream.up {t u : Transport} (h : SameStream t u) (hup : t.Up) :
  u.Up
  := by
  rw [Up, h.streaming_eq, h.disconnectOccurred_eq]
  apply hup

/-- What a handler does to the stream: nothing, or it finds it started, or lost, or halted by
the remote. -/
inductive StreamEffect (t : Transport) (e : Event) (u : Transport) : Prop
  | same (hsame : SameStream t u)
  | starts (hstreaming : u.streaming = true)
  | loses (hlost : u.disconnectOccurred = true) (hresult : u.startResult = t.startResult)
  | halts (hhalts : e.halts = true) (hlost : u.disconnectOccurred = t.disconnectOccurred)
      (hresult : u.startResult = t.startResult)

theorem handleEvent_streamEffect (t : Transport) (e : Event) :
  StreamEffect t e (t.handleEvent e).1
  := by
  cases e with
  | streamStarted => exact StreamEffect.starts rfl
  | streamSuspended | streamReleased => exact StreamEffect.halts rfl rfl rfl
  | signalingConnectionReleased => exact StreamEffect.loses rfl rfl
  | hciDisconnectionComplete =>
      rw [handleEvent, hciDisconnectionComplete]
      split
      · exact StreamEffect.loses rfl rfl
      · exact StreamEffect.same ⟨rfl, rfl, rfl⟩
  | signalingConnectionEstablished status cid =>
      rw [handleEvent, signalingConnectionEstablished]
      split <;> exact StreamEffect.same ⟨rfl, rfl, rfl⟩
  | streamEstablished status localSeid remoteSeid maxPayload =>
      rw [handleEvent, streamEstablished]
      split <;> exact StreamEffect.same ⟨rfl, rfl, rfl⟩
  | inquiryResult device =>
      rw [handleEvent, inquiryResult]
      split <;> exact StreamEffect.same ⟨rfl, rfl, rfl⟩
  | canSendMediaPacketNow maxPayload status =>
      rw [handleEvent, canSendNow]
      split
      · exact StreamEffect.same ⟨rfl, rfl, rfl⟩
      · dsimp only
        split <;> exact StreamEffect.same ⟨rfl, rfl, rfl⟩
  | avrcpConnectionEstablished status cid =>
      rw [handleEvent]
      split <;> exact StreamEffect.same ⟨rfl, rfl, rfl⟩
  | hciWorking | hciOff | inquiryComplete | otherCapability | sbcCapability | aacCapability
  | capabilitiesComplete | avrcpConnectionReleased => exact StreamEffect.same ⟨rfl, rfl, rfl⟩

/-- A handler says of no call that it has returned. -/
theorem handleEvent_returned (t : Transport) (e : Event) :
  (t.handleEvent e).2.findSome? Obs.returned? = none
  := by
  cases e with
  | hciDisconnectionComplete =>
      rw [handleEvent, hciDisconnectionComplete]
      split <;> rfl
  | canSendMediaPacketNow maxPayload status =>
      rw [handleEvent, canSendNow]
      split
      · rfl
      · dsimp only
        split <;> rfl
  | _ => rfl

theorem enqueueMedia_sameStream (t : Transport) (data : List UInt8) (timestamp : Nat)
    (frames : UInt8) (codec : AudioCodec) :
  SameStream t (t.enqueueMedia data timestamp frames codec).1
    ∧ (t.enqueueMedia data timestamp frames codec).2.findSome? Obs.returned? = none
  := by
  rw [enqueueMedia]
  split
  · exact ⟨⟨rfl, rfl, rfl⟩, rfl⟩
  · split
    · exact ⟨⟨rfl, rfl, rfl⟩, rfl⟩
    · split
      · exact ⟨⟨rfl, rfl, rfl⟩, rfl⟩
      · split <;> exact ⟨⟨rfl, rfl, rfl⟩, rfl⟩

theorem triggerMedia_sameStream (t : Transport) :
  SameStream t t.triggerMedia
  := by
  rw [triggerMedia]
  split <;> exact ⟨rfl, rfl, rfl⟩

theorem consumeAwaited_sameStream (t : Transport) (kind : RequestKind) :
  SameStream t (t.consumeAwaited kind)
  := by
  cases kind <;> exact ⟨rfl, rfl, rfl⟩

/-- A step that keeps the call at its stage, in which no call returns, and which leaves the
stream alone or is what the remote has done to it. -/
structure Keeps (t : Transport) (a : Action) (r : Transport × List Obs) : Prop where
  stage_eq : r.1.stage = t.stage
  returned : r.2.findSome? Obs.returned? = none
  stream : SameStream t r.1 ∨ ∃ attempt e, a = .event attempt e ∧ StreamEffect t e r.1

theorem answer_keeps {t u : Transport} (a : Action) (number status : Nat)
    (hcall : u.call = t.call) (hsame : SameStream t u) :
  Keeps t a (u.answer number status)
  := by
  rw [answer.eq_def]
  split
  next hfrom =>
    split
    · constructor
      · rw [stage, stage, ← hcall, hfrom]
        rfl
      · rfl
      · left
        exact ⟨hsame.streaming_eq, hsame.disconnectOccurred_eq, hsame.startResult_eq⟩
    · constructor
      · rw [stage, stage, hcall]
      · rfl
      · left
        apply hsame
  next =>
    constructor
    · rw [stage, stage, hcall]
    · rfl
    · left
      apply hsame

/-- The steps of BTstack and of the encode thread. -/
theorem step_keeps {t : Transport} {a : Action} {r : Transport × List Obs}
    (hinCall : a.inCall = true) (hcaller : a.ofCaller = false) (hstep : t.step a = some r) :
  Keeps t a r
  := by
  cases step_inv hstep with
  | runCallback hrun =>
      rw [runCallback.eq_def] at hrun
      split at hrun
      · contradiction
      · obtain rfl := Option.some.inj hrun
        constructor
        · rfl
        · rw [mediaTrigger]
          dsimp only
          split <;> rfl
        · left
          exact ⟨rfl, rfl, rfl⟩
      · dsimp only at hrun
        split at hrun
        all_goals
          obtain rfl := Option.some.inj hrun
          apply answer_keeps
          · rfl
          · exact ⟨rfl, rfl, rfl⟩
  | event attempt e =>
      constructor
      · rw [stage, stage, (t.handleEvent_frame e).1]
      · apply handleEvent_returned
      · right
        exact ⟨attempt, e, rfl, t.handleEvent_streamEffect e⟩
  | sendEnqueue data timestamp frames codec =>
      obtain ⟨hsame, hobs⟩ := t.enqueueMedia_sameStream data timestamp frames codec
      constructor
      · rw [stage, stage, (t.enqueueMedia_keeps data timestamp frames codec).1]
      · apply hobs
      · left
        apply hsame
  | sendTrigger =>
      constructor
      · rw [stage, stage, t.triggerMedia_keeps.1]
      · rfl
      · left
        apply triggerMedia_sameStream
  | _ => contradiction

/-- A stream that is lost for another reason than a halt is recorded as lost. -/
theorem Keeps.up {t : Transport} {a : Action} {r : Transport × List Obs} (h : Keeps t a r)
    (hspared : a.halts = true → t.disconnectOccurred = true) (hup : t.Up) :
  r.1.Up
  := by
  cases h.stream with
  | inl hsame => apply hsame.up hup
  | inr hevent =>
      obtain ⟨attempt, e, rfl, heffect⟩ := hevent
      cases heffect with
      | same hsame => apply hsame.up hup
      | starts hstreaming => apply Or.inl hstreaming
      | loses hlost => apply Or.inr hlost
      | halts hhalts hlost =>
          right
          rw [hlost]
          apply hspared hhalts

/-- Only the start of the stream stores its result. -/
theorem Keeps.startResult {t : Transport} {a : Action} {r : Transport × List Obs}
    (h : Keeps t a r) :
  r.1.startResult = t.startResult ∨ r.1.streaming = true
  := by
  cases h.stream with
  | inl hsame => apply Or.inl hsame.startResult_eq
  | inr hevent =>
      obtain ⟨attempt, e, rfl, heffect⟩ := hevent
      cases heffect with
      | same hsame => apply Or.inl hsame.startResult_eq
      | starts hstreaming => apply Or.inr hstreaming
      | loses _ hresult | halts _ _ hresult => apply Or.inl hresult

/-- A step beside a call in progress keeps it at its stage. -/
theorem Keeps.proceeds {t : Transport} {a : Action} {r : Transport × List Obs} {c : Call}
    (h : Keeps t a r) (hcall : t.call = some c) (hstage : t.InStage c)
    (hspared : c.starting = true → t.startResult = true → a.halts = true →
      t.disconnectOccurred = true) :
  Proceeds c.fn r
  := by
  have hcalls := h.stage_eq
  rw [stage, stage, hcall] at hcalls
  obtain ⟨c', hcall', heq⟩ := Option.map_eq_some_iff.mp hcalls
  obtain ⟨hfn, hkind⟩ := Prod.mk.inj heq
  apply Proceeds.goesOn c' hcall' hfn _ h.returned
  constructor
  · rw [Call.staged, hfn, hkind]
    apply hstage.staged
  · intro hstarting hresult
    rw [Call.starting, hfn, hkind] at hstarting
    cases h.startResult with
    | inl hsame =>
        rw [hsame] at hresult
        apply h.up (hspared hstarting hresult) (hstage.up hstarting hresult)
    | inr hstreaming => apply Or.inl hstreaming

/-- A call in progress goes on, or returns. -/
theorem step_proceeds {t : Transport} {a : Action} {r : Transport × List Obs} {c : Call}
    (hinCall : a.inCall = true) (hcall : t.call = some c) (hstage : t.InStage c)
    (hspared : c.starting = true → t.startResult = true → a.halts = true →
      t.disconnectOccurred = true)
    (hstep : t.step a = some r) :
  Proceeds c.fn r
  := by
  have hkeeps (hcaller : a.ofCaller = false) : Proceeds c.fn r := by
    apply (step_keeps hinCall hcaller hstep).proceeds hcall hstage hspared
  cases step_inv hstep with
  | runCallback | event | sendEnqueue | sendTrigger => apply hkeeps rfl
  | doneWake hc | doneTimeout hc =>
      obtain rfl := Option.some.inj (hc.symm.trans hcall)
      apply afterDone_proceeds _ _ hcall hstage
  | @eventWake fn kind number hc =>
      obtain rfl := Option.some.inj (hc.symm.trans hcall)
      have hsame := t.consumeAwaited_sameStream kind
      apply Proceeds.goesOn
      · rfl
      · rfl
      · constructor
        · apply hstage.staged
        · intro hstarting hresult
          rw [hsame.startResult_eq] at hresult
          apply hsame.up (hstage.up hstarting hresult)
      · rfl
  | waitCancelled hc | waitTimeout hc =>
      obtain rfl := Option.some.inj (hc.symm.trans hcall)
      apply waiting_proceeds _ hstage
  | resume hc =>
      obtain rfl := Option.some.inj (hc.symm.trans hcall)
      apply afterWait_proceeds _ _ hcall hstage
  | _ => contradiction

/-- Where no call is in progress, the steps are those of BTstack and of the encode thread. -/
theorem step_of_none {t : Transport} {a : Action} {r : Transport × List Obs}
    (hinCall : a.inCall = true) (hcall : t.call = none) (hstep : t.step a = some r) :
  Keeps t a r
  := by
  have hkeeps (hcaller : a.ofCaller = false) : Keeps t a r := by
    apply step_keeps hinCall hcaller hstep
  cases step_inv hstep with
  | runCallback | event | sendEnqueue | sendTrigger => apply hkeeps rfl
  | doneWake hc | doneTimeout hc | eventWake hc | waitCancelled hc | waitTimeout hc
  | resume hc =>
      rw [hcall] at hc
      contradiction
  | _ => contradiction

/-- A call that begins goes on to its first stage, or returns. -/
theorem call_proceeds {t : Transport} {a : Action} {r : Transport × List Obs} {fn : ApiFn}
    (hfn : a.fn? = some fn) (hstep : t.step a = some r) :
  Proceeds fn r
  := by
  cases step_inv hstep with
  | connectA2dp remoteAddr =>
      obtain rfl := Option.some.inj hfn
      rw [connectA2dp]
      split
      · apply returns_proceeds_of_not _ rfl
      · apply dispatch_proceeds
        · intro _ _
          rfl
        · intro h
          contradiction
  | configureCodec codec sampleRate channels =>
      obtain rfl := Option.some.inj hfn
      apply configureCall_proceeds
      intro h
      contradiction
  | startStream =>
      obtain rfl := Option.some.inj hfn
      apply startCall_proceeds _ rfl
  | stopStream =>
      obtain rfl := Option.some.inj hfn
      rw [stopStream]
      split
      · apply returns_proceeds_of_not _ rfl
      · apply dispatch_proceeds
        · intro _ _
          rfl
        · intro h
          contradiction
  | disconnect =>
      obtain rfl := Option.some.inj hfn
      apply disconnectCall_proceeds
      intro h
      contradiction
  | reconnect =>
      obtain rfl := Option.some.inj hfn
      rw [reconnect]
      split
      · apply returns_proceeds_of_not _ rfl
      · apply Proceeds.goesOn
        · rfl
        · rfl
        · constructor
          · rfl
          · intro h
            contradiction
        · rfl
  | _ => contradiction

end Transport

end Ssc
