import SscOnWindows.Service.Lifecycle
import SscOnWindows.Transport.Started

/-!
# The parties of a stream

The service of the lifecycle together with what its worker uses: the transport, whose calls
the worker waits for, the capture thread, and the encode threads with `g_ctx`.  An answer the
worker waits for is no longer up to the step: it is what the transport has returned, or what
its flag of a lost connection says.

On its way out the worker takes its pipeline down before it clears `running_`; each way out
has its own list of what it does.  `stop_streaming` stops the encode thread and cancels the
waits of the transport between its store to `stop_requested_` and its wait.

The reset of the transport in the dialog of the firmware and the scan for devices are other
users of the transport, and are not among the parties.
-/

namespace Ssc

open Machine

/-- Where an encode thread is: in its loop, in an iteration, in which `encode` may take any
time, or at its end. -/
inductive EncodeThread where
  | looping
  | encoding
  | exited
  deriving DecidableEq

/-- The steps of an encode thread. -/
inductive EncodeStep where
  | enter
  | leave
  | throw
  | exit
  deriving DecidableEq

/-- What the worker does before it clears `running_`. -/
inductive Release where
  | stopCapture
  | clearContext
  | waitEncode
  | clearPointers
  | destroyRing
  | stopStream
  | disconnect
  | shutdownEncoder
  deriving DecidableEq

/-- What `stop_streaming` does before it waits. -/
inductive StopStep where
  | clearContext
  | cancelWaits
  deriving DecidableEq

namespace Release

/-- The cleanup behind the main loop. -/
def cleanup : List Release :=
  [stopCapture, clearContext, waitEncode, clearPointers, destroyRing, stopStream, disconnect,
    shutdownEncoder]

/-- What `streaming_thread_func` does when its worker has crashed. -/
def afterCrash : List Release :=
  [clearContext, clearPointers]

end Release

/-- What the worker does before it clears `running_`, when it gets there from the point. -/
def WorkerPoint.releases (stopRequested ok : Bool) : WorkerPoint → List Release
  | afterConnect => if stopRequested then [.disconnect] else []
  | resolveCodec | captureInit | configureCodec | createEncoder | encoderInit | startStream =>
      if ok then [] else [.disconnect]
  | createThread =>
      if ok then [] else [.clearContext, .clearPointers, .destroyRing, .disconnect]
  | captureStart =>
      if ok then []
      else [.clearContext, .waitEncode, .clearPointers, .destroyRing, .disconnect]
  | mainLoop | reconnectSleep _ => if stopRequested then Release.cleanup else []
  | reconnectAttempt attempt =>
      if attempt ≤ 10 ∧ stopRequested = false then [] else Release.cleanup
  | _ => []

/-- The call the worker makes at the point. -/
def WorkerPoint.calls : WorkerPoint → Action → Bool
  | connectA2dp, .connectA2dp _ => true
  | configureCodec, .configureCodec _ _ _ => true
  | startStream, .startStream => true
  | reconnect _, .reconnect => true
  | _, _ => false

namespace Transport

/-- The worker leaves the call it is in by an exception.  The one in `init` keeps the lock it
holds. -/
def abandon (t : Transport) : Transport :=
  if t.call.any (fun c => c.fn = .init) then t else { t with call := none }

/-- `init` is running, and `transport_mutex_` is held. -/
def locked (t : Transport) : Bool :=
  t.call.any (fun c => c.fn = .init)

end Transport

/-- The service with the transport, what `stop_streaming` has still to do before it waits, what
the worker has still to do before it clears `running_`, the answer it has got from its call,
whether BTstack is initialised, `g_ctx.running`, whether `g_ctx` has its pointers, the encode
threads created so far, and whether the capture thread runs.  It is recorded whether
`stop_streaming` has cancelled the transport since the last start. -/
structure Streaming where
  service : A2dpService := .start
  transport : Option Transport := none
  stopping : List StopStep := []
  releases : List Release := []
  answer : Option Bool := none
  btstack : Option Bool := none
  contextRunning : Bool := false
  published : Bool := false
  encodeThreads : List EncodeThread := []
  capturing : Bool := false
  cancelled : Bool := false

/-- A step of one of the parties. -/
inductive StreamingAction where
  | startStreaming
  | stopStreaming
  | caller
  | createTransport (sbcSeid aacSeid sscSeid : Nat)
  | call (a : Action)
  | transport (a : Action)
  | worker (a : WorkerAction)
  | encode (i : Nat) (step : EncodeStep)
  | captureEnds
  deriving DecidableEq

namespace Streaming

/-- Nothing has been started. -/
def start : Streaming := {}

/-! ### The transport -/

/-- The transport has taken a step, at which a call may have returned. -/
def after (s : Streaming) (r : Transport × List Obs) : Streaming :=
  match r.2.findSome? Obs.returned? with
  | none => { s with transport := some r.1 }
  | some (.init, ok) => { s with transport := some r.1, btstack := some ok }
  | some (_, ok) => { s with transport := some r.1, answer := some ok }

/-- A step of the transport. -/
def onTransport (s : Streaming) (a : Action) : Option Streaming :=
  match s.transport with
  | none => none
  | some t => (t.step a).map s.after

/-- What the worker does next, when it has something to do before it clears `running_`. -/
def nextRelease (s : Streaming) (w : Worker) : Option Release :=
  if w.stores.head? = some .clearRunning then s.releases.head? else none

/-- The call of the transport the worker is before. -/
def wants (s : Streaming) (w : Worker) (a : Action) : Bool :=
  match s.nextRelease w with
  | some .stopStream => a = .stopStream
  | some .disconnect => a = .disconnect
  | some _ => false
  | none => w.stores = [] && w.point.calls a

/-- `ensure_btstack_init` creates the transport and calls its `init`. -/
def createTransport (s : Streaming) (sbcSeid aacSeid sscSeid : Nat) : Option Streaming :=
  if s.transport = none ∧ s.service.worker.any (fun w =>
      w.stores = [] && w.point = .ensureBtstackInit) then
    let t : Transport :=
      { sbcLocalSeid := sbcSeid, aacLocalSeid := aacSeid, sscLocalSeid := sscSeid }
    some { s with transport := some t.initCall.1 }
  else none

/-- The worker calls the transport. -/
def call (s : Streaming) (a : Action) : Option Streaming :=
  match s.service.worker with
  | none => none
  | some w => if s.answer = none ∧ s.wants w a = true then s.onTransport a else none

/-! ### The worker -/

/-- The worker may go on from the point with the answer `ok`. -/
def ready (s : Streaming) (ok : Bool) : WorkerPoint → Bool
  | .ensureBtstackInit => s.btstack = some ok
  | .connectA2dp | .configureCodec | .startStream | .reconnect _ => s.answer = some ok
  | .checkDisconnected => s.transport.any (fun t => t.disconnectOccurred = ok)
  | _ => true

/-- What the worker does on its way from the point. -/
def effect (s : Streaming) (ok : Bool) : WorkerPoint → Streaming
  | .connectA2dp | .configureCodec | .startStream => { s with answer := none }
  | .createThread =>
      { s with
        contextRunning := true
        published := true
        encodeThreads := if ok then s.encodeThreads ++ [.looping] else s.encodeThreads }
  | .captureStart => { s with capturing := s.capturing || ok }
  | .checkDisconnected =>
      { s with transport := s.transport.map fun t => { t with disconnectOccurred := false } }
  | .reconnectAttempt _ => { s with published := false }
  | .reconnect _ => { s with answer := none, published := s.published || ok }
  | _ => s

/-- The worker goes on to its next point. -/
def move (s : Streaming) (w : Worker) (ok : Bool) : Option Streaming :=
  if s.ready ok w.point then
    (s.service.next (.worker (.proceed ok))).map fun service =>
      { s.effect ok w.point with
        service := service
        releases := w.point.releases s.service.stopRequested ok }
  else none

/-- The worker does what is next before it clears `running_`.  The wait for the encode thread
ends because the thread has exited, or because it has not within its time; a call ends when
the transport has returned. -/
def release (s : Streaming) (ok : Bool) : Release → Option Streaming
  | .stopCapture => some { s with releases := s.releases.tail, capturing := false }
  | .clearContext => some { s with releases := s.releases.tail, contextRunning := false }
  | .waitEncode =>
      if ok = decide (s.encodeThreads.getLast? = some .exited) then
        some { s with releases := s.releases.tail }
      else none
  | .clearPointers => some { s with releases := s.releases.tail, published := false }
  | .destroyRing | .shutdownEncoder => some { s with releases := s.releases.tail }
  | .stopStream | .disconnect =>
      if s.answer = some ok then some { s with releases := s.releases.tail, answer := none }
      else none

/-- The worker is thrown out of what it does, with `releases` before it clears `running_`. -/
def thrown (s : Streaming) (service : A2dpService) (releases : List Release) : Streaming :=
  { s with
    service := service
    transport := s.transport.map Transport.abandon
    releases := releases
    answer := none }

/-- A step of the worker outside of the transport. -/
def nextWorker (s : Streaming) (w : Worker) : WorkerAction → Option Streaming
  | .proceed ok =>
      match s.nextRelease w with
      | some r => s.release ok r
      | none =>
          if w.stores = [] then s.move w ok
          else (s.service.next (.worker (.proceed ok))).map fun service =>
            { s with service := service }
  | .throw =>
      (s.service.next (.worker .throw)).map fun service => s.thrown service Release.cleanup
  | .crash =>
      (s.service.next (.worker .crash)).map fun service => s.thrown service Release.afterCrash

/-! ### The other parties -/

/-- The next step of the call of the service the caller is in.  `cancel_pending_waits` is
called with `transport_mutex_` held. -/
def nextCaller (s : Streaming) : Option Streaming :=
  match s.stopping with
  | [] => (s.service.next .caller).map fun service => { s with service := service }
  | .clearContext :: rest => some { s with stopping := rest, contextRunning := false }
  | .cancelWaits :: rest =>
      if s.transport.any Transport.locked then none
      else some { s with
        stopping := rest
        transport := s.transport.map fun t => { t with cancelEvent := true }
        cancelled := s.cancelled || s.transport.isSome }

/-- A step of an encode thread.  It begins an iteration only while `g_ctx` has its pointers,
and ends when `g_ctx.running` is cleared, as an exception in the iteration does. -/
def nextEncode (s : Streaming) (i : Nat) (thread : EncodeThread) : EncodeStep → Option Streaming
  | .enter =>
      if thread = .looping ∧ s.contextRunning = true ∧ s.published = true then
        some { s with encodeThreads := s.encodeThreads.set i .encoding }
      else none
  | .leave =>
      if thread = .encoding then some { s with encodeThreads := s.encodeThreads.set i .looping }
      else none
  | .throw =>
      if thread = .encoding then
        some { s with
          encodeThreads := s.encodeThreads.set i .looping
          contextRunning := false }
      else none
  | .exit =>
      if thread = .looping ∧ s.contextRunning = false then
        some { s with encodeThreads := s.encodeThreads.set i .exited }
      else none

/-- One step. -/
def next (s : Streaming) : StreamingAction → Option Streaming
  | .startStreaming =>
      (s.service.next .startStreaming).map fun service =>
        { s with service := service, cancelled := s.cancelled && s.service.running }
  | .stopStreaming =>
      (s.service.next .stopStreaming).map fun service =>
        { s with service := service, stopping := [.clearContext, .cancelWaits] }
  | .caller => s.nextCaller
  | .createTransport sbcSeid aacSeid sscSeid => s.createTransport sbcSeid aacSeid sscSeid
  | .call a => s.call a
  | .transport a => if a.inCall then s.onTransport a else none
  | .worker a =>
      match s.service.worker with
      | none => none
      | some w => s.nextWorker w a
  | .encode i step =>
      match s.encodeThreads[i]? with
      | none => none
      | some thread => s.nextEncode i thread step
  | .captureEnds => if s.capturing then some { s with capturing := false } else none

/-! ### The steps -/

section Frames

variable (s : Streaming) (r : Transport × List Obs) (ok : Bool) (p : WorkerPoint)

/-- What a step of the transport leaves alone. -/
theorem after_eq :
  ∃ answer btstack,
    s.after r = { s with transport := some r.1, answer := answer, btstack := btstack }
  := by
  rw [after]
  split
  · exact ⟨_, _, rfl⟩
  · exact ⟨_, _, rfl⟩
  · exact ⟨_, _, rfl⟩

/-- A step at which no call returns. -/
theorem after_of_none (h : r.2.findSome? Obs.returned? = none) :
  s.after r = { s with transport := some r.1 }
  := by
  rw [after, h]

/-- The step at which `init` returns. -/
theorem after_of_init (h : r.2.findSome? Obs.returned? = some (.init, ok)) :
  s.after r = { s with transport := some r.1, btstack := some ok }
  := by
  rw [after, h]

/-- A step at which a call of the worker returns. -/
theorem after_of_returned {fn : ApiFn} (hfn : fn ≠ .init)
    (h : r.2.findSome? Obs.returned? = some (fn, ok)) :
  s.after r = { s with transport := some r.1, answer := some ok }
  := by
  rw [after, h]
  cases fn with
  | init => contradiction
  | _ => rfl

@[simp]
theorem after_service :
  (s.after r).service = s.service
  := by
  obtain ⟨_, _, heq⟩ := s.after_eq r
  rw [heq]

@[simp]
theorem after_transport :
  (s.after r).transport = some r.1
  := by
  obtain ⟨_, _, heq⟩ := s.after_eq r
  rw [heq]

@[simp]
theorem after_cancelled :
  (s.after r).cancelled = s.cancelled
  := by
  obtain ⟨_, _, heq⟩ := s.after_eq r
  rw [heq]

@[simp]
theorem effect_cancelled :
  (s.effect ok p).cancelled = s.cancelled
  := by
  cases p <;> rfl

/-- A thread is created at one point only. -/
theorem effect_encodeThreads :
  (s.effect ok p).encodeThreads
    = if p = .createThread ∧ ok = true then s.encodeThreads ++ [.looping] else s.encodeThreads
  := by
  cases p with
  | createThread => cases ok <;> rfl
  | _ => rfl

/-- Only at the check for a lost connection does the worker change the transport. -/
theorem effect_transport {p : WorkerPoint} (h : p ≠ .checkDisconnected) :
  (s.effect ok p).transport = s.transport
  := by
  cases p with
  | checkDisconnected => contradiction
  | _ => rfl

end Frames

/-- What each step does, and from where it is taken. -/
inductive Steps (s : Streaming) : StreamingAction → Streaming → Prop
  | startStreaming {service : A2dpService}
      (hservice : s.service.next .startStreaming = some service) :
      Steps s .startStreaming
        { s with service := service, cancelled := s.cancelled && s.service.running }
  | stopStreaming {service : A2dpService}
      (hservice : s.service.next .stopStreaming = some service) :
      Steps s .stopStreaming
        { s with service := service, stopping := [.clearContext, .cancelWaits] }
  | caller {service : A2dpService} (hstopping : s.stopping = [])
      (hservice : s.service.next .caller = some service) :
      Steps s .caller { s with service := service }
  | stopClears {rest : List StopStep} (hstopping : s.stopping = .clearContext :: rest) :
      Steps s .caller { s with stopping := rest, contextRunning := false }
  | stopCancels {rest : List StopStep} (hstopping : s.stopping = .cancelWaits :: rest) :
      Steps s .caller { s with
        stopping := rest
        transport := s.transport.map fun t => { t with cancelEvent := true }
        cancelled := s.cancelled || s.transport.isSome }
  | createTransport {sbcSeid aacSeid sscSeid : Nat} {w : Worker} (htransport : s.transport = none)
      (hworker : s.service.worker = some w) (hstores : w.stores = [])
      (hpoint : w.point = .ensureBtstackInit) :
      Steps s (.createTransport sbcSeid aacSeid sscSeid) { s with
        transport := some ({
          sbcLocalSeid := sbcSeid
          aacLocalSeid := aacSeid
          sscLocalSeid := sscSeid : Transport }.initCall).1 }
  | call {a : Action} {w : Worker} {t : Transport} {r : Transport × List Obs}
      (hworker : s.service.worker = some w) (hanswer : s.answer = none)
      (hwants : s.wants w a = true) (htransport : s.transport = some t)
      (hstep : t.step a = some r) :
      Steps s (.call a) (s.after r)
  | transport {a : Action} {t : Transport} {r : Transport × List Obs} (hinCall : a.inCall = true)
      (htransport : s.transport = some t) (hstep : t.step a = some r) :
      Steps s (.transport a) (s.after r)
  | release {ok : Bool} {w : Worker} {r : Release} {s' : Streaming}
      (hworker : s.service.worker = some w) (hrelease : s.nextRelease w = some r)
      (hs' : s.release ok r = some s') :
      Steps s (.worker (.proceed ok)) s'
  | move {ok : Bool} {w : Worker} {service : A2dpService} (hworker : s.service.worker = some w)
      (hstores : w.stores = []) (hready : s.ready ok w.point = true)
      (hservice : s.service.next (.worker (.proceed ok)) = some service) :
      Steps s (.worker (.proceed ok)) { s.effect ok w.point with
        service := service
        releases := w.point.releases s.service.stopRequested ok }
  | store {ok : Bool} {w : Worker} {service : A2dpService} (hworker : s.service.worker = some w)
      (hrelease : s.nextRelease w = none) (hstores : w.stores ≠ [])
      (hservice : s.service.next (.worker (.proceed ok)) = some service) :
      Steps s (.worker (.proceed ok)) { s with service := service }
  | throw {w : Worker} {service : A2dpService} (hworker : s.service.worker = some w)
      (hservice : s.service.next (.worker .throw) = some service) :
      Steps s (.worker .throw) (s.thrown service Release.cleanup)
  | crash {w : Worker} {service : A2dpService} (hworker : s.service.worker = some w)
      (hservice : s.service.next (.worker .crash) = some service) :
      Steps s (.worker .crash) (s.thrown service Release.afterCrash)
  | encode {i : Nat} {step : EncodeStep} {thread : EncodeThread} {s' : Streaming}
      (hthread : s.encodeThreads[i]? = some thread) (hs' : s.nextEncode i thread step = some s') :
      Steps s (.encode i step) s'
  | captureEnds (hcapturing : s.capturing = true) :
      Steps s .captureEnds { s with capturing := false }

/-- The transport takes a step when there is one. -/
theorem onTransport_eq_some {s s' : Streaming} {a : Action} (h : s.onTransport a = some s') :
  ∃ t r, s.transport = some t ∧ t.step a = some r ∧ s' = s.after r
  := by
  rw [onTransport] at h
  cases htransport : s.transport with
  | none =>
      rw [htransport] at h
      contradiction
  | some t =>
      rw [htransport] at h
      obtain ⟨r, hstep, rfl⟩ := Option.map_eq_some_iff.mp h
      use t, r

/-- Every step of the worker is one of these. -/
theorem steps_nextWorker {s s' : Streaming} {w : Worker} {a : WorkerAction}
    (hworker : s.service.worker = some w) (h : s.nextWorker w a = some s') :
  s.Steps (.worker a) s'
  := by
  cases a with
  | proceed ok =>
      rw [nextWorker] at h
      cases hrelease : s.nextRelease w with
      | some r =>
          rw [hrelease] at h
          apply Steps.release hworker hrelease h
      | none =>
          rw [hrelease] at h
          dsimp only at h
          split at h
          next hstores =>
            obtain ⟨hready, h⟩ := Option.ite_none_right_eq_some.mp h
            obtain ⟨service, hservice, rfl⟩ := Option.map_eq_some_iff.mp h
            apply Steps.move hworker hstores hready hservice
          next hstores =>
            obtain ⟨service, hservice, rfl⟩ := Option.map_eq_some_iff.mp h
            apply Steps.store hworker hrelease hstores hservice
  | throw =>
      obtain ⟨service, hservice, rfl⟩ := Option.map_eq_some_iff.mp h
      apply Steps.throw hworker hservice
  | crash =>
      obtain ⟨service, hservice, rfl⟩ := Option.map_eq_some_iff.mp h
      apply Steps.crash hworker hservice

/-- Every step of the caller is one of these. -/
theorem steps_nextCaller {s s' : Streaming} (h : s.nextCaller = some s') :
  s.Steps .caller s'
  := by
  rw [nextCaller] at h
  split at h
  next hstopping =>
    obtain ⟨service, hservice, rfl⟩ := Option.map_eq_some_iff.mp h
    apply Steps.caller hstopping hservice
  next rest hstopping =>
    obtain rfl := Option.some.inj h
    apply Steps.stopClears hstopping
  next rest hstopping =>
    obtain ⟨-, h⟩ := Option.ite_none_left_eq_some.mp h
    obtain rfl := Option.some.inj h
    apply Steps.stopCancels hstopping

/-- Every step is one of these. -/
theorem steps_next {s s' : Streaming} {a : StreamingAction} (h : s.next a = some s') :
  s.Steps a s'
  := by
  cases a with
  | startStreaming =>
      obtain ⟨service, hservice, rfl⟩ := Option.map_eq_some_iff.mp h
      apply Steps.startStreaming hservice
  | stopStreaming =>
      obtain ⟨service, hservice, rfl⟩ := Option.map_eq_some_iff.mp h
      apply Steps.stopStreaming hservice
  | caller => apply steps_nextCaller h
  | createTransport sbcSeid aacSeid sscSeid =>
      obtain ⟨⟨htransport, hany⟩, h⟩ := Option.ite_none_right_eq_some.mp h
      obtain rfl := Option.some.inj h
      obtain ⟨w, hworker, hstores, hpoint⟩ : ∃ w, s.service.worker = some w ∧ w.stores = []
          ∧ w.point = .ensureBtstackInit := by
        simpa [Option.any_eq_true] using hany
      apply Steps.createTransport htransport hworker hstores hpoint
  | call a =>
      simp only [next, call] at h
      cases hworker : s.service.worker with
      | none =>
          rw [hworker] at h
          contradiction
      | some w =>
          rw [hworker] at h
          obtain ⟨⟨hanswer, hwants⟩, h⟩ := Option.ite_none_right_eq_some.mp h
          obtain ⟨t, r, htransport, hstep, rfl⟩ := onTransport_eq_some h
          apply Steps.call hworker hanswer hwants htransport hstep
  | transport a =>
      obtain ⟨hinCall, h⟩ := Option.ite_none_right_eq_some.mp h
      obtain ⟨t, r, htransport, hstep, rfl⟩ := onTransport_eq_some h
      apply Steps.transport hinCall htransport hstep
  | worker a =>
      simp only [next] at h
      cases hworker : s.service.worker with
      | none =>
          rw [hworker] at h
          contradiction
      | some w =>
          rw [hworker] at h
          apply steps_nextWorker hworker h
  | encode i step =>
      simp only [next] at h
      cases hthread : s.encodeThreads[i]? with
      | none =>
          rw [hthread] at h
          contradiction
      | some thread =>
          rw [hthread] at h
          apply Steps.encode hthread h
  | captureEnds =>
      obtain ⟨hcapturing, h⟩ := Option.ite_none_right_eq_some.mp h
      obtain rfl := Option.some.inj h
      apply Steps.captureEnds hcapturing

/-- What comes before `running_` is cleared leaves the service and the transport alone. -/
theorem release_eq {s s' : Streaming} {ok : Bool} {r : Release} (h : s.release ok r = some s') :
  s'.service = s.service ∧ s'.transport = s.transport ∧ s'.cancelled = s.cancelled
    ∧ s'.releases = s.releases.tail ∧ s'.encodeThreads = s.encodeThreads
  := by
  cases r with
  | stopCapture | clearContext | clearPointers | destroyRing | shutdownEncoder =>
      obtain rfl := Option.some.inj h
      exact ⟨rfl, rfl, rfl, rfl, rfl⟩
  | waitEncode | stopStream | disconnect =>
      obtain ⟨-, h⟩ := Option.ite_none_right_eq_some.mp h
      obtain rfl := Option.some.inj h
      exact ⟨rfl, rfl, rfl, rfl, rfl⟩

/-- A step of an encode thread moves that thread, and may clear `g_ctx.running`. -/
theorem nextEncode_eq {s s' : Streaming} {i : Nat} {thread : EncodeThread} {step : EncodeStep}
    (h : s.nextEncode i thread step = some s') :
  ∃ thread' contextRunning, thread ≠ .exited
    ∧ s' = { s with
        encodeThreads := s.encodeThreads.set i thread'
        contextRunning := contextRunning }
  := by
  cases step with
  | enter =>
      obtain ⟨⟨rfl, -, -⟩, hs'⟩ := Option.ite_none_right_eq_some.mp h
      exact ⟨_, _, nofun, (Option.some.inj hs').symm⟩
  | leave =>
      obtain ⟨rfl, hs'⟩ := Option.ite_none_right_eq_some.mp h
      exact ⟨_, _, nofun, (Option.some.inj hs').symm⟩
  | throw =>
      obtain ⟨rfl, hs'⟩ := Option.ite_none_right_eq_some.mp h
      exact ⟨_, _, nofun, (Option.some.inj hs').symm⟩
  | exit =>
      obtain ⟨⟨rfl, -⟩, hs'⟩ := Option.ite_none_right_eq_some.mp h
      exact ⟨_, _, nofun, (Option.some.inj hs').symm⟩

/-- The service takes steps of its own, or none. -/
theorem service_next {s s' : Streaming} {a : StreamingAction} (h : s.next a = some s') :
  s'.service = s.service ∨ ∃ b, s.service.next b = some s'.service
  := by
  cases steps_next h with
  | startStreaming hservice | stopStreaming hservice | caller _ hservice
  | move _ _ _ hservice | store _ _ _ hservice | throw _ hservice | crash _ hservice =>
      right
      exact ⟨_, hservice⟩
  | stopClears | stopCancels | createTransport | captureEnds =>
      left
      rfl
  | call | transport =>
      left
      apply after_service
  | release hworker hrelease hs' =>
      left
      apply (release_eq hs').1
  | encode hthread hs' =>
      left
      obtain ⟨_, _, -, rfl⟩ := nextEncode_eq hs'
      rfl

/-- The service of a stream goes through states of the service on its own, so that what holds of
all those holds here. -/
theorem reachable_service {s : Streaming} (h : Reachable next start s) :
  Reachable A2dpService.next A2dpService.start s.service
  := by
  apply h.invariant (I := fun s => Reachable A2dpService.next A2dpService.start s.service)
  · use []
    apply Run.nil
  · rintro s a t ⟨bs, hbs⟩ hnext
    cases service_next hnext with
    | inl heq =>
        rw [heq]
        use bs
    | inr hservice =>
        obtain ⟨b, hb⟩ := hservice
        use bs ++ [b]
        apply hbs.snoc trivial hb

/-! ### A run -/

/-- A stream that is started, up to the call of `connect_a2dp`. -/
def beforeConnect : List StreamingAction :=
  List.flatten [[.startStreaming], List.replicate 5 .caller,
    List.replicate 2 (.worker (.proceed true)), [.createTransport 1 2 3],
    [.event 0 .hciWorking, .eventWake, .resume].map .transport,
    List.replicate 3 (.worker (.proceed true))]

/-- The call of `connect_a2dp`, up to its wait. -/
def connectWait : List StreamingAction :=
  [.call (.connectA2dp [1, 2, 3, 4, 5, 6]), .transport (.runCallback 0 (some 1)),
    .transport .doneWake]

/-- `stop_streaming` up to its wait. -/
def stop : List StreamingAction :=
  [.stopStreaming, .caller, .caller]

/-- The connection with a remote that knows SBC, up to the point before the encode thread. -/
def connection : List StreamingAction :=
  List.flatten [
    [.event 1 (.sbcCapability 5), .event 1 .capabilitiesComplete, .eventWake, .resume].map
      .transport,
    List.replicate 5 (.worker (.proceed true)), [.worker (.proceed false)],
    [.call (.configureCodec .sbc 48000 2), .transport (.runCallback 0 none), .transport .doneWake],
    [.event 1 (.streamEstablished 0 1 5 679), .eventWake, .resume].map .transport,
    List.replicate 3 (.worker (.proceed true)),
    [.call .startStream, .transport (.runCallback 0 none), .transport .doneWake],
    [.event 1 .streamStarted, .eventWake, .resume].map .transport,
    List.replicate 2 (.worker (.proceed true))]

/-- A stream up to the main loop of its worker, with an encode thread in `encode`. -/
def streaming : List StreamingAction :=
  List.flatten [beforeConnect, connectWait, connection, List.replicate 2 (.worker (.proceed true)),
    [.encode 0 .enter]]

end Streaming

end Ssc
