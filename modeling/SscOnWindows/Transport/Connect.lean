import SscOnWindows.Transport.Started

/-!
# Attempts to connect

A call of `connect_a2dp` that returns `false` gives up on its attempt, and the next call of
`connect_a2dp` or `reconnect` opens another one.  The handlers do not look at the attempt: what an
event does to the transport after the call has given up is what it would have done before.

In between the transport is not to be connected.  The handler of the completed capability discovery
connects it, and it may do so while the attempt is given up, or between the end of the wait of
`connect_a2dp` and its return.
-/

namespace Ssc

open Machine

namespace Transport

/-! ### Giving up -/

/-- `connect_a2dp` returns `false` in the step: it refuses, its request has failed, or its wait is
over without a result. -/
def givesUp (t : Transport) : Action → Bool
  | .connectA2dp _ => !t.hciReady
  | .doneWake =>
      match t.call with
      | some ⟨.connectA2dp, _, _, .dispatched (some result)⟩ => result ≠ 0
      | _ => false
  | .resume =>
      match t.call with
      | some ⟨.connectA2dp, _, _, .woken signalled⟩ => !(signalled && t.connectResult)
      | _ => false
  | _ => false

/-- `connect_a2dp` waits for its connection only. -/
def AtStage (t : Transport) : Prop :=
  ∀ p ∈ t.stage, p.1 = .connectA2dp → p.2 = .establishStream

/-- What a piece of another call than `connect_a2dp` does to the connection. -/
structure Apart (t : Transport) (r : Transport × List Obs) : Prop where
  connected_of : r.1.connected = true → t.connected = true
  call_ne : ∀ c ∈ r.1.call, c.fn ≠ .connectA2dp
  quiet : .returned .connectA2dp false ∉ r.2

/-- A piece behind a change of other fields. -/
theorem Apart.of_connected {t t' : Transport} {r : Transport × List Obs} (hr : Apart t' r)
    (hconnected : t'.connected = true → t.connected = true) :
  Apart t r
  where
  connected_of hup := hconnected (hr.connected_of hup)
  call_ne := hr.call_ne
  quiet := hr.quiet

section Pieces

variable {t : Transport} {fn : ApiFn} (h : fn ≠ .connectA2dp)

include h

theorem returns_apart (ok : Bool) :
  Apart t (t.returns fn ok)
  where
  connected_of := id
  call_ne c hc := absurd hc (by simp [returns])
  quiet := by simp [returns, h.symm]

theorem dispatch_apart (kind : RequestKind) :
  Apart t (t.dispatch fn kind)
  where
  connected_of := id
  call_ne := by
    rintro c ⟨⟩
    apply h
  quiet := by simp [dispatch]

/-- The call goes on to another phase. -/
theorem waiting_apart (kind : RequestKind) (number : Nat) (phase : Phase) :
  Apart t ({ t with call := some ⟨fn, kind, number, phase⟩ }, [])
  where
  connected_of := id
  call_ne := by
    rintro c ⟨⟩
    apply h
  quiet := List.not_mem_nil

theorem shutdownEnd_apart :
  Apart t (t.shutdownEnd fn)
  := by
  apply (returns_apart h _).of_connected
  intro hup
  cases hup

theorem shutdownCall_apart :
  Apart t (t.shutdownCall fn)
  := by
  rw [shutdownCall]
  split
  · apply returns_apart h
  · split
    · apply dispatch_apart h
    · apply shutdownEnd_apart h

theorem disconnectCall_apart :
  Apart t (t.disconnectCall fn)
  := by
  rw [disconnectCall]
  split
  · apply returns_apart h
  · split
    · apply dispatch_apart h
    · apply dispatch_apart h

theorem stageFailed_apart :
  Apart t (t.stageFailed fn)
  := by
  rw [stageFailed.eq_def]
  split
  · apply disconnectCall_apart h
  · apply returns_apart h

theorem configureCall_apart (codec : AudioCodec) (sampleRate channels : Nat) :
  Apart t (t.configureCall fn codec sampleRate channels)
  := by
  rw [configureCall]
  split
  · apply stageFailed_apart h
  · dsimp only
    split
    · apply (stageFailed_apart h).of_connected
      exact id
    · split
      · apply (stageFailed_apart h).of_connected
        exact id
      · apply (dispatch_apart h _).of_connected
        exact id

theorem startCall_apart :
  Apart t (t.startCall fn)
  := by
  rw [startCall]
  split
  · apply stageFailed_apart h
  · apply (dispatch_apart h _).of_connected
    exact id

theorem afterDone_apart (kind : RequestKind) (number result : Nat)
    (hcall : ∀ c ∈ t.call, c.fn ≠ .connectA2dp) :
  Apart t (t.afterDone fn kind number result)
  := by
  rw [afterDone.eq_def]
  split
  · exact ⟨id, hcall, List.not_mem_nil⟩
  · split
    · apply (returns_apart h _).of_connected
      exact id
    · apply waiting_apart h
  · apply (returns_apart h _).of_connected
    exact id
  · split
    · apply returns_apart h
    · apply waiting_apart h
  · split
    · apply stageFailed_apart h
    · apply waiting_apart h
  · split
    · apply stageFailed_apart h
    · apply waiting_apart h
  · split
    · have hstop : ApiFn.stopStream ≠ .connectA2dp := by simp
      apply (returns_apart hstop _).of_connected
      exact id
    · apply (dispatch_apart h _).of_connected
      exact id
  · apply waiting_apart h
  · apply waiting_apart h

theorem afterWait_apart (kind : RequestKind) (signalled : Bool)
    (hcall : ∀ c ∈ t.call, c.fn ≠ .connectA2dp) :
  Apart t (t.afterWait fn kind signalled)
  := by
  have hreconnect : ApiFn.reconnect ≠ .connectA2dp := by simp
  rw [afterWait.eq_def]
  split
  · split
    · apply returns_apart h
    · apply shutdownCall_apart h
  · split
    · apply returns_apart h
    · apply dispatch_apart h
  · apply shutdownEnd_apart h
  · split
    · split
      · apply configureCall_apart hreconnect
      · apply returns_apart hreconnect
    · apply returns_apart h
  · split
    · split
      · apply startCall_apart hreconnect
      · apply stageFailed_apart hreconnect
    · apply returns_apart h
  · split
    · split
      · apply returns_apart hreconnect
      · apply stageFailed_apart hreconnect
    · apply returns_apart h
  · apply (returns_apart h _).of_connected
    intro hup
    cases hup
  · exact ⟨id, hcall, List.not_mem_nil⟩
  · exact ⟨id, hcall, List.not_mem_nil⟩

end Pieces

/-- The transport gets connected by the completion of the capability discovery, and by no
other event. -/
theorem handleEvent_connected {t : Transport} {e : Event} (hdown : t.connected = false) :
  (t.handleEvent e).1.connected = true ↔ e = .capabilitiesComplete
  := by
  cases e with
  | capabilitiesComplete => simp [handleEvent]
  | hciDisconnectionComplete =>
      rw [handleEvent, hciDisconnectionComplete]
      split
      · simp
      · simp [hdown]
  | signalingConnectionEstablished status cid =>
      rw [handleEvent, signalingConnectionEstablished]
      split
      · simp [hdown]
      · simp [hdown]
  | streamEstablished status localSeid remoteSeid maxPayload =>
      rw [handleEvent, streamEstablished]
      split
      · simp [hdown]
      · simp [hdown]
  | canSendMediaPacketNow maxPayload status =>
      rw [handleEvent, canSendNow]
      split
      · simp [hdown]
      · dsimp only
        split
        · simp [hdown]
        · simp [hdown, sendFailed]
  | avrcpConnectionEstablished status cid =>
      rw [handleEvent]
      split
      · simp [hdown]
      · simp [hdown]
  | inquiryResult device =>
      rw [handleEvent, inquiryResult]
      split
      · simp [hdown]
      · simp [hdown]
  | signalingConnectionReleased => simp [handleEvent, signalingConnectionReleased]
  | hciWorking | hciOff | inquiryComplete | otherCapability | sbcCapability | aacCapability
  | streamStarted | streamSuspended | streamReleased | avrcpConnectionReleased =>
      simp [handleEvent, hdown]

/-! ### What a step does to the connection -/

/-- What a step does: `connect_a2dp` is at its stage, it returns `false` exactly in the steps that
give up, with the connection as it was, and only a completed discovery makes a connection. -/
structure Connects (t : Transport) (a : Action) (r : Transport × List Obs) : Prop where
  atStage : r.1.AtStage
  gaveUp_iff : .returned .connectA2dp false ∈ r.2 ↔ t.givesUp a = true
  connected_eq : t.givesUp a = true → r.1.connected = t.connected
  connected_of : r.1.connected = true → t.connected = true
    ∨ ∃ attempt, a = .event attempt .capabilitiesComplete

/-- A piece of another call gives nothing up. -/
theorem Apart.connects {t : Transport} {a : Action} {r : Transport × List Obs} (h : Apart t r)
    (ha : t.givesUp a = false) :
  Connects t a r
  where
  atStage := by
    intro p hp hfn
    obtain ⟨c, hc, rfl⟩ := Option.map_eq_some_iff.mp hp
    exact absurd hfn (h.call_ne c hc)
  gaveUp_iff := iff_of_false h.quiet (by simp [ha])
  connected_eq hup := absurd hup (by simp [ha])
  connected_of hup := Or.inl (h.connected_of hup)

theorem returned_mem {fn : ApiFn} {ok : Bool} {obs : List Obs}
    (h : obs.findSome? Obs.returned? = none) :
  .returned fn ok ∉ obs
  := by
  intro hmem
  have hnone := List.findSome?_eq_none_iff.mp h _ hmem
  contradiction

/-- A step in which no call returns or goes on to another stage, and which makes no connection. -/
theorem connects_of_same {t : Transport} {a : Action} {r : Transport × List Obs}
    (hat : t.AtStage) (ha : t.givesUp a = false) (hstage : r.1.stage = t.stage)
    (hobs : r.2.findSome? Obs.returned? = none)
    (hconnected : r.1.connected = true → t.connected = true
      ∨ ∃ attempt, a = .event attempt .capabilitiesComplete) :
  Connects t a r
  where
  atStage := by
    rw [AtStage, hstage]
    apply hat
  gaveUp_iff := iff_of_false (returned_mem hobs) (by simp [ha])
  connected_eq hup := absurd hup (by simp [ha])
  connected_of := hconnected

/-- The call `connect_a2dp` begins. -/
theorem connectA2dp_connects (t : Transport) (remoteAddr : List UInt8) :
  Connects t (.connectA2dp remoteAddr) (t.connectA2dp remoteAddr)
  := by
  rw [connectA2dp]
  split
  next hready =>
    constructor
    · intro p hp
      contradiction
    · simp [returns, givesUp, hready]
    · intro _
      rfl
    · apply Or.inl
  next hready =>
    constructor
    · rintro p ⟨⟩ _
      rfl
    · simp [dispatch, givesUp, hready]
    · simp [givesUp, hready]
    · apply Or.inl

/-- `connect_a2dp` behind its request. -/
theorem afterDone_connects {t : Transport} {number result : Nat} {a : Action}
    (ha : t.givesUp a = decide (result ≠ 0)) :
  Connects t a (t.afterDone .connectA2dp .establishStream number result)
  := by
  rw [afterDone]
  split
  next hresult =>
    constructor
    · intro p hp
      contradiction
    · simp [returns, ha, hresult]
    · intro _
      rfl
    · apply Or.inl
  next hresult =>
    constructor
    · rintro p ⟨⟩ _
      rfl
    · simp [ha, hresult]
    · simp [ha, hresult]
    · apply Or.inl

/-- `connect_a2dp` behind its wait. -/
theorem afterWait_connects {t : Transport} {number : Nat} {signalled : Bool}
    (hcall : t.call = some ⟨.connectA2dp, .establishStream, number, .woken signalled⟩) :
  Connects t .resume (t.afterWait .connectA2dp .establishStream signalled)
  := by
  have ha : t.givesUp .resume = !(signalled && t.connectResult) := by
    rw [givesUp, hcall]
  rw [afterWait.eq_def]
  dsimp only
  constructor
  · intro p hp
    contradiction
  · rw [ha, returns]
    cases signalled && t.connectResult
    · simp
    · simp
  · intro _
    rfl
  · apply Or.inl

/-- A call of another function is in progress. -/
theorem call_ne {t : Transport} {fn : ApiFn} {kind : RequestKind} {number : Nat} {phase : Phase}
    (hcall : t.call = some ⟨fn, kind, number, phase⟩) (hfn : fn ≠ .connectA2dp) :
  ∀ c ∈ t.call, c.fn ≠ .connectA2dp
  := by
  rw [hcall]
  rintro c ⟨⟩
  apply hfn

/-- A request at its end. -/
theorem done_connects {t : Transport} {fn : ApiFn} {kind : RequestKind} {number result : Nat}
    {phase : Phase} {a : Action} (hat : t.AtStage)
    (hcall : t.call = some ⟨fn, kind, number, phase⟩)
    (ha : t.givesUp a = (decide (fn = .connectA2dp) && decide (result ≠ 0))) :
  Connects t a (t.afterDone fn kind number result)
  := by
  by_cases hfn : fn = .connectA2dp
  · subst hfn
    have hkind : kind = .establishStream := by
      apply hat (.connectA2dp, kind) _ rfl
      rw [stage, hcall]
      rfl
    subst hkind
    apply afterDone_connects
    simpa using ha
  · apply (afterDone_apart hfn kind number result (call_ne hcall hfn)).connects
    simp [ha, hfn]

/-- A wait at its end. -/
theorem wait_connects {t : Transport} {fn : ApiFn} {kind : RequestKind} {number : Nat}
    {signalled : Bool} (hat : t.AtStage)
    (hcall : t.call = some ⟨fn, kind, number, .woken signalled⟩) :
  Connects t .resume (t.afterWait fn kind signalled)
  := by
  by_cases hfn : fn = .connectA2dp
  · subst hfn
    have hkind : kind = .establishStream := by
      apply hat (.connectA2dp, kind) _ rfl
      rw [stage, hcall]
      rfl
    subst hkind
    apply afterWait_connects hcall
  · apply (afterWait_apart hfn kind signalled (call_ne hcall hfn)).connects
    rw [givesUp, hcall]
    split
    next heq =>
      cases heq
      contradiction
    next => rfl

/-- A call goes on to another phase at its stage. -/
theorem phase_connects {t u : Transport} {fn : ApiFn} {kind : RequestKind} {number : Nat}
    {phase phase' : Phase} {a : Action} (hat : t.AtStage)
    (hcall : t.call = some ⟨fn, kind, number, phase⟩) (ha : t.givesUp a = false)
    (hconnected : u.connected = t.connected) :
  Connects t a ({ u with call := some ⟨fn, kind, number, phase'⟩ }, [])
  := by
  apply connects_of_same hat ha
  · simp only [stage, hcall, Option.map_some]
  · rfl
  · intro hup
    apply Or.inl
    rw [← hconnected]
    apply hup

theorem consumeAwaited_connected (t : Transport) (kind : RequestKind) :
  (t.consumeAwaited kind).connected = t.connected
  := by
  cases kind <;> rfl

/-- The steps of BTstack and of the encode thread connect the transport by a completed discovery
only. -/
theorem step_connected {t : Transport} {a : Action} {r : Transport × List Obs}
    (hinCall : a.inCall = true) (hcaller : a.ofCaller = false) (hstep : t.step a = some r)
    (hup : r.1.connected = true) :
  t.connected = true ∨ ∃ attempt, a = .event attempt .capabilitiesComplete
  := by
  cases step_inv hstep with
  | runCallback hrun =>
      left
      rw [← hup]
      rw [runCallback.eq_def] at hrun
      split at hrun
      · contradiction
      · obtain rfl := Option.some.inj hrun
        rfl
      · dsimp only at hrun
        split at hrun
        all_goals
          obtain rfl := Option.some.inj hrun
          rw [answer.eq_def]
          split
          · split <;> rfl
          · rfl
  | event attempt e =>
      by_cases hdown : t.connected = false
      · right
        use attempt
        rw [(handleEvent_connected hdown).mp hup]
      · left
        simpa using hdown
  | sendEnqueue data timestamp frames codec =>
      left
      rw [← hup, enqueueMedia]
      split
      · rfl
      · split
        · rfl
        · split
          · rfl
          · split <;> rfl
  | sendTrigger =>
      left
      rw [← hup, triggerMedia]
      split <;> rfl
  | _ => contradiction

/-- What every step of the transport does to the connection. -/
theorem step_connects {t : Transport} {a : Action} {r : Transport × List Obs} (hat : t.AtStage)
    (hstep : t.step a = some r) :
  Connects t a r
  := by
  have hkeeps (hinCall : a.inCall = true) (hcaller : a.ofCaller = false)
      (ha : t.givesUp a = false) : Connects t a r := by
    have h := step_keeps hinCall hcaller hstep
    apply connects_of_same hat ha h.stage_eq h.returned
    apply step_connected hinCall hcaller hstep
  cases step_inv hstep with
  | runCallback | event | sendEnqueue | sendTrigger => apply hkeeps rfl rfl rfl
  | connectA2dp remoteAddr => apply connectA2dp_connects
  | init =>
      have hfn : ApiFn.init ≠ .connectA2dp := by simp
      rw [initCall]
      split
      · apply (returns_apart hfn _).connects rfl
      · refine Apart.connects ?_ rfl
        constructor
        · exact id
        · rintro c ⟨⟩
          apply hfn
        · exact List.not_mem_nil
  | scanDevices durationSeconds =>
      have hfn : ApiFn.scanDevices ≠ .connectA2dp := by simp
      rw [scanCall]
      split
      · apply (returns_apart hfn _).connects rfl
      · refine Apart.connects ?_ rfl
        apply (dispatch_apart hfn _).of_connected
        exact id
  | configureCodec codec sampleRate channels =>
      have hfn : ApiFn.configureCodec ≠ .connectA2dp := by simp
      apply (configureCall_apart hfn _ _ _).connects rfl
  | startStream =>
      have hfn : ApiFn.startStream ≠ .connectA2dp := by simp
      apply (startCall_apart hfn).connects rfl
  | stopStream =>
      have hfn : ApiFn.stopStream ≠ .connectA2dp := by simp
      rw [stopStream]
      split
      · apply (returns_apart hfn _).connects rfl
      · apply (dispatch_apart hfn _).connects rfl
  | disconnect =>
      have hfn : ApiFn.disconnect ≠ .connectA2dp := by simp
      apply (disconnectCall_apart hfn).connects rfl
  | reconnect =>
      have hfn : ApiFn.reconnect ≠ .connectA2dp := by simp
      rw [reconnect]
      split
      · apply (returns_apart hfn _).connects rfl
      · constructor
        · rintro p ⟨⟩ hp
          contradiction
        · simp [dispatch, givesUp]
        · simp [givesUp]
        · intro hup
          contradiction
  | shutdown =>
      have hfn : ApiFn.shutdown ≠ .connectA2dp := by simp
      apply (shutdownCall_apart hfn).connects rfl
  | cancelPendingWaits | checkDisconnected =>
      apply connects_of_same hat
      · rfl
      · rfl
      · rfl
      · apply Or.inl
  | @doneWake fn kind number result hcall =>
      apply done_connects hat hcall
      cases fn <;> simp [givesUp, hcall]
  | doneTimeout hcall =>
      apply done_connects hat hcall
      simp [givesUp]
  | eventWake hcall =>
      apply phase_connects hat hcall rfl
      apply consumeAwaited_connected
  | waitCancelled hcall | waitTimeout hcall => apply phase_connects hat hcall rfl rfl
  | resume hcall => apply wait_connects hat hcall

end Transport

/-- A transport, with whether the last attempt is one that `connect_a2dp` has given up on. -/
structure Attempts where
  transport : Transport
  gaveUp : Bool

namespace Attempts

/-! ### Attempts that are given up -/

/-- The step is a call that opens an attempt. -/
def opens : Action → Bool
  | .connectA2dp _ | .reconnect => true
  | _ => false

/-- One step: `connect_a2dp` gives up by returning `false`, until the next attempt. -/
def next (s : Attempts) (a : Action) : Option Attempts :=
  (s.transport.step a).map fun r =>
    { transport := r.1
      gaveUp := r.2.contains (.returned .connectA2dp false) || (s.gaveUp && !opens a) }

/-- The transport behind the registration of its stream endpoints. -/
def start (sbcSeid aacSeid sscSeid : Nat) : Attempts where
  transport := { sbcLocalSeid := sbcSeid, aacLocalSeid := aacSeid, sscLocalSeid := sscSeid }
  gaveUp := false

/-- From the return of `connect_a2dp` with `false` to the next attempt the transport is not
connected. -/
def Down (s : Attempts) : Prop :=
  s.gaveUp = true → s.transport.connected = false

/-- The step completes the capability discovery of some attempt. -/
def completes : Action → Bool
  | .event _ .capabilitiesComplete => true
  | _ => false

/-- The transport is not connected where `connect_a2dp` gives up, and no capability discovery is
completed while an attempt is given up. -/
def InTime (s : Attempts) (a : Action) : Prop :=
  (s.transport.givesUp a = true → s.transport.connected = false)
    ∧ (s.gaveUp = true → completes a = false)

instance (s : Attempts) (a : Action) : Decidable (s.InTime a) :=
  inferInstanceAs (Decidable (_ ∧ _))

/-- What a step does to an attempt. -/
theorem next_connects {s s' : Attempts} {a : Action} (hat : s.transport.AtStage)
    (h : s.next a = some s') :
  ∃ r, Transport.Connects s.transport a r ∧ s'.transport = r.1
    ∧ s'.gaveUp = (s.transport.givesUp a || (s.gaveUp && !opens a))
  := by
  obtain ⟨r, hr, rfl⟩ := Option.map_eq_some_iff.mp h
  have hconnects := Transport.step_connects hat hr
  have hgaveUp : r.2.contains (.returned .connectA2dp false) = s.transport.givesUp a := by
    rw [Bool.eq_iff_iff, List.contains_iff_mem]
    apply hconnects.gaveUp_iff
  use r, hconnects, rfl
  rw [← hgaveUp]

/-- A step in time leaves nothing connected behind an attempt that is given up. -/
theorem InTime.down {s s' : Attempts} {a : Action} (hat : s.transport.AtStage) (hdown : s.Down)
    (hin : s.InTime a) (h : s.next a = some s') :
  s'.Down
  := by
  obtain ⟨r, hconnects, hr, hgaveUp⟩ := next_connects hat h
  intro hup
  rw [hr]
  cases hgives : s.transport.givesUp a with
  | true =>
      rw [hconnects.connected_eq hgives]
      apply hin.1 hgives
  | false =>
      rw [hgaveUp, hgives, Bool.false_or, Bool.and_eq_true] at hup
      by_contra hconnected
      rw [Bool.not_eq_false] at hconnected
      cases hconnects.connected_of hconnected with
      | inl hwas =>
          rw [hdown hup.1] at hwas
          contradiction
      | inr hevent =>
          obtain ⟨attempt, rfl⟩ := hevent
          have hlate := hin.2 hup.1
          contradiction

/-- A step that is not in time leaves a connection behind. -/
theorem not_down_of_late {s s' : Attempts} {a : Action} (hat : s.transport.AtStage)
    (hlate : ¬ s.InTime a) (h : s.next a = some s') :
  ¬ s'.Down
  := by
  obtain ⟨r, hconnects, hr, hgaveUp⟩ := next_connects hat h
  intro hdown
  apply hlate
  constructor
  · intro hgives
    have hstill := hdown (by rw [hgaveUp, hgives, Bool.true_or])
    rw [hr, hconnects.connected_eq hgives] at hstill
    apply hstill
  · intro hup
    rw [Bool.eq_false_iff]
    intro hcompletes
    rw [completes.eq_def] at hcompletes
    split at hcompletes
    next attempt =>
      have hstill := hdown (by simp [hgaveUp, hup, opens])
      obtain ⟨r', hr', rfl⟩ := Option.map_eq_some_iff.mp h
      obtain rfl := Option.some.inj hr'
      contradiction
    next => contradiction

/-- Along a run an attempt that `connect_a2dp` has given up on leaves nothing connected exactly
when the discoveries of the run are completed in time. -/
theorem down_run_iff {sbcSeid aacSeid sscSeid : Nat} {as : List Action} {s : Attempts}
    (h : Run next always (start sbcSeid aacSeid sscSeid) as s) :
  (∀ t, Passes next (start sbcSeid aacSeid sscSeid) as t → t.Down)
    ↔ Run next InTime (start sbcSeid aacSeid sscSeid) as s
  := by
  apply passes_iff (I := fun s => s.transport.AtStage ∧ s.Down) h
  · constructor
    · nofun
    · nofun
  · rintro s ⟨-, hdown⟩
    apply hdown
  · rintro s a t ⟨hat, hdown⟩ hin hstep
    constructor
    · obtain ⟨r, hconnects, hr, -⟩ := next_connects hat hstep
      rw [hr]
      apply hconnects.atStage
    · apply hin.down hat hdown hstep
  · rintro s a t ⟨hat, -⟩ hlate hstep
    apply not_down_of_late hat hlate hstep

/-- A connection that `connect_a2dp` gives up on before the remote answers. -/
def timedOutConnect (attempt cid : Nat) : List Action :=
  [.connectA2dp [1, 2, 3, 4, 5, 6], .runCallback 0 (some cid), .doneWake, .waitTimeout, .resume,
    .event attempt (.signalingConnectionEstablished 0 cid)]

/-- The remote answers after all, and the transport is left connected. -/
def lateDiscovery : List Action :=
  .event 0 .hciWorking :: timedOutConnect 1 1 ++ [.event 1 .capabilitiesComplete]

theorem not_down_lateDiscovery :
  ¬ ∀ (sbcSeid aacSeid sscSeid : Nat) (as : List Action) (s : Attempts),
    Run next always (start sbcSeid aacSeid sscSeid) as s →
      ∀ t, Passes next (start sbcSeid aacSeid sscSeid) as t → t.Down
  := by
  intro hall
  have hend : (exec next (start 1 2 3) lateDiscovery).map
      (fun s => (s.gaveUp, s.transport.connected)) = some (true, true) := rfl
  obtain ⟨s, hs, heq⟩ := Option.map_eq_some_iff.mp hend
  obtain ⟨hgaveUp, hconnected⟩ := Prod.mk.inj heq
  have hrun := run_of_exec hs
  have hdown := hall 1 2 3 lateDiscovery s hrun s ⟨_, List.prefix_rfl, hrun⟩ hgaveUp
  rw [hconnected] at hdown
  contradiction

/-- A connection that is cancelled. -/
def cancelledConnect (attempt cid : Nat) : List Action :=
  [.connectA2dp [1, 2, 3, 4, 5, 6], .runCallback 0 (some cid), .doneWake,
    .event attempt (.signalingConnectionEstablished 0 cid), .cancelPendingWaits, .waitCancelled,
    .resume]

/-- Two attempts that are given up and released late, and a third one with its session. -/
def thirdAttempt : List Action :=
  List.flatten [[.event 0 .hciWorking], timedOutConnect 1 1,
    [.event 1 .signalingConnectionReleased], cancelledConnect 2 2,
    [.event 2 .hciDisconnectionComplete, .event 2 .signalingConnectionReleased],
    sessionSetup 3 3, sessionEnd 3]

/-- The law for that run. -/
theorem down_thirdAttempt :
  ∃ s, exec next (start 1 2 3) thirdAttempt = some s
    ∧ ∀ t, Passes next (start 1 2 3) thirdAttempt t → t.Down
  := by
  have hsome : (exec (guarded next InTime) (start 1 2 3) thirdAttempt).isSome := rfl
  obtain ⟨s, hs⟩ := Option.isSome_iff_exists.mp hsome
  have hrun := run_of_exec_guarded hs
  use s, hrun.exec_eq
  apply (down_run_iff hrun.toAlways).mpr hrun

end Attempts

end Ssc
