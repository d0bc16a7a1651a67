import SscOnWindows.Service.Calls
import SscOnWindows.Service.Teardown

/-!
# What `Streaming` says of the stream

The main loop of the worker looks at `stop_requested_` and at the flag of a lost connection.
A capture thread that ends, an exception in `encode` and a stream the remote has suspended or
released set neither: the loop goes on, and the state stays `Streaming`.
-/

namespace Ssc

open Machine

namespace WorkerPoint

/-- The stream is being started at the point. -/
def starts : WorkerPoint → Bool
  | startStream | reconnect _ => true
  | _ => false

/-- The stream is taken to be started at the point. -/
def carries : WorkerPoint → Bool
  | createThread | captureStart | mainLoop | checkDisconnected => true
  | _ => false

/-- The worker starts or supervises a stream at the point. -/
def streams : WorkerPoint → Bool
  | startStream | createThread | captureStart | mainLoop | checkDisconnected
  | reconnectAttempt _ | reconnectSleep _ | reconnect _ => true
  | _ => false

/-- The worker may go on to the end of an iteration of its main loop, which it does not when it
finds `stop_requested_` set first. -/
def supervises (stopRequested : Bool) (stores : List WorkerStore) : WorkerPoint → Bool
  | startStream | checkDisconnected | reconnect _ => true
  | createThread | captureStart | reconnectAttempt _ | reconnectSleep _ => !stopRequested
  | mainLoop => !stopRequested || stores ≠ []
  | _ => false

theorem streams_of_supervises {p : WorkerPoint} {stopRequested : Bool}
    {stores : List WorkerStore} (h : p.supervises stopRequested stores = true) :
  p.streams = true
  := by
  cases p <;> first | rfl | contradiction

/-- A worker that is leaving supervises no stream. -/
theorem supervises_of_leaving {p : WorkerPoint} (h : p.leaving = true) (stopRequested : Bool)
    (stores : List WorkerStore) :
  p.supervises stopRequested stores = false
  := by
  cases p with
  | cleanup | returning | ended => rfl
  | _ => contradiction

/-- A stop request takes away what is supervised only. -/
theorem supervises_mono {p : WorkerPoint} {stopRequested stopRequested' : Bool}
    {stores stores' : List WorkerStore} (hstop : stopRequested = true → stopRequested' = true)
    (hstores : stores' ≠ [] → stores ≠ []) (h : p.supervises stopRequested' stores' = true) :
  p.supervises stopRequested stores = true
  := by
  have hnot (h' : stopRequested' = false) : stopRequested = false := by
    by_contra hset
    rw [Bool.not_eq_false] at hset
    rw [hstop hset] at h'
    contradiction
  cases p with
  | startStream | checkDisconnected | reconnect attempt => rfl
  | createThread | captureStart | reconnectAttempt attempt | reconnectSleep attempt =>
      rw [supervises, Bool.not_eq_true'] at h ⊢
      apply hnot h
  | mainLoop =>
      rw [supervises, Bool.or_eq_true, Bool.not_eq_true', decide_eq_true_iff] at h ⊢
      apply h.imp hnot hstores
  | _ => contradiction

/-- The worker comes to supervise a stream from the point before its start. -/
theorem supervises_branch {stopRequested ok : Bool} {p : WorkerPoint}
    (h : (p.branch stopRequested ok).2.supervises stopRequested (p.branch stopRequested ok).1
      = true) :
  (p.branch stopRequested ok).2 = .startStream ∨ p.supervises stopRequested [] = true
  := by
  cases p with
  | reconnectAttempt attempt =>
      by_cases hagain : attempt ≤ 10 ∧ stopRequested = false
      · right
        rw [supervises, hagain.2]
        rfl
      · rw [branch, if_neg hagain] at h
        contradiction
  | reconnectSleep attempt | reconnect attempt =>
      cases stopRequested with
      | true => first | contradiction | exact Or.inr rfl
      | false => exact Or.inr rfl
  | _ =>
      revert h
      cases stopRequested <;> cases ok <;> decide

/-- The worker gets to its main loop through the start of the capture. -/
theorem inLoop_branch {stopRequested ok : Bool} {p : WorkerPoint}
    (h : (p.branch stopRequested ok).2.inLoop = true) :
  p.inLoop = true ∨ p = .captureStart ∧ ok = true
  := by
  cases p with
  | mainLoop | checkDisconnected | reconnectAttempt attempt | reconnectSleep attempt
  | reconnect attempt =>
      left
      rfl
  | _ =>
      revert h
      cases stopRequested <;> cases ok <;> decide

/-- The worker gets behind the start of its encode thread through that start. -/
theorem pipelined_branch {stopRequested ok : Bool} {p : WorkerPoint}
    (h : (p.branch stopRequested ok).2.pipelined = true) :
  p.pipelined = true ∨ p = .createThread ∧ ok = true
  := by
  have hholds := holds_branch stopRequested ok p
  rw [h, Bool.true_or] at hholds
  split at hholds
  next hpoint => exact Or.inr ⟨hpoint, hholds.symm⟩
  next => exact Or.inl hholds.symm

/-- The stream is taken to be started behind a start that has succeeded, and from then on while
no connection is found lost. -/
theorem carries_branch {stopRequested ok : Bool} {p : WorkerPoint}
    (h : (p.branch stopRequested ok).2.carries = true) :
  p.starts = true ∧ ok = true ∨ p.carries = true ∧ (p = .checkDisconnected → ok = false)
  := by
  cases p with
  | reconnectAttempt attempt =>
      rw [branch] at h
      split at h <;> contradiction
  | reconnectSleep attempt =>
      cases stopRequested <;> contradiction
  | reconnect attempt =>
      cases ok with
      | true => exact Or.inl ⟨rfl, rfl⟩
      | false => contradiction
  | _ =>
      revert h
      cases stopRequested <;> cases ok <;> decide

end WorkerPoint

/-- The worker may go on to the end of an iteration of its main loop. -/
def Worker.supervises (w : Worker) (stopRequested : Bool) : Bool :=
  w.point.supervises stopRequested w.stores

/-- Only `start_streaming` resets `stop_requested_`. -/
theorem A2dpService.stopRequested_of_caller {s s' : A2dpService} {a : ServiceAction}
    (h : s.next a = some s') (hset : s.stopRequested = true)
    (hreset : s.caller = .startReset → a ≠ .caller) :
  s'.stopRequested = true
  := by
  cases steps_next h with
  | startReset hcaller => exact absurd rfl (hreset hcaller)
  | stopStreaming => rfl
  | worker =>
      rw [store_stopRequested]
      apply hset
  | _ => apply hset

/-- A step of the worker leaves `stop_requested_` alone. -/
theorem A2dpService.stopRequested_of_worker {s s' : A2dpService} {a : WorkerAction}
    (h : s.next (.worker a) = some s') :
  s'.stopRequested = s.stopRequested
  := by
  cases steps_next h with
  | worker => apply store_stopRequested

namespace Streaming

/-- The worker takes the stream to be started. -/
def needsStream (s : Streaming) : Bool :=
  s.service.worker.any fun w => w.supervises s.service.stopRequested
    && (w.point.carries || w.point.starts && s.answer = some true)

/-- The worker takes its encode thread to be at work. -/
def needsEncoder (s : Streaming) : Bool :=
  s.service.worker.any fun w => w.supervises s.service.stopRequested && w.point.pipelined

/-- The worker takes the capture thread to be at work. -/
def needsCapture (s : Streaming) : Bool :=
  s.service.worker.any fun w => w.supervises s.service.stopRequested && w.point.inLoop

/-- A start of the stream is going to return `true`. -/
def startReturns (s : Streaming) : Bool :=
  s.transport.any fun t => t.startResult && t.call.any Call.starting

/-- The encode thread created last has not exited. -/
def encodeAlive (s : Streaming) : Bool :=
  s.encodeThreads.getLast?.any fun thread => thread ≠ .exited

/-- The step ends an iteration of the main loop. -/
def completes (s : Streaming) : StreamingAction → Bool
  | .worker (.proceed ok) =>
      s.service.worker.any fun w =>
        w.stores = [] && w.point = .checkDisconnected && !ok
          || w.stores = [.notifyState .streaming] && w.point = .mainLoop
  | _ => false

/-- When the state is `Streaming` behind an iteration of the main loop, the capture thread and
the encode thread are alive, and the stream is started or is recorded as lost. -/
def HonestState (s : Streaming) (a : StreamingAction) (s' : Streaming) : Prop :=
  s.completes a = true → s'.service.state = .streaming →
    s'.capturing = true ∧ s'.encodeAlive = true ∧ ∃ t, s'.transport = some t ∧ t.Up

/-- The capture thread does not end and the encode thread does not throw beside a worker that
takes it to be at work, the remote halts no stream the worker takes to be started and that is
not recorded as lost, and neither `stop_streaming` clears `g_ctx.running` for a worker that goes
on to the end of its iteration nor `start_streaming` resets `stop_requested_` for one that
streams. -/
def Unfailing (s : Streaming) : StreamingAction → Prop
  | .captureEnds => s.needsCapture = false
  | .encode _ .throw => s.needsEncoder = false
  | .caller =>
      (s.stopping.head? = some .clearContext → s.needsEncoder = false)
        ∧ (s.service.caller = .startReset → ∀ w ∈ s.service.worker, w.point.streams = false)
  | .transport a =>
      a.halts = true → s.needsStream = true ∨ s.startReturns = true →
        s.transport.any (fun t => t.disconnectOccurred) = true
  | _ => True

instance (s : Streaming) : (a : StreamingAction) → Decidable (s.Unfailing a)
  | .captureEnds => inferInstanceAs (Decidable (_ = _))
  | .encode _ .throw => inferInstanceAs (Decidable (_ = _))
  | .caller => inferInstanceAs (Decidable (_ ∧ _))
  | .transport _ => inferInstanceAs (Decidable (_ → _))
  | .encode _ .enter | .encode _ .leave | .encode _ .exit | .startStreaming | .stopStreaming
  | .createTransport _ _ _ | .call _ | .worker _ => inferInstanceAs (Decidable True)

/-! ### The invariant -/

/-- What the worker takes to be there is there. -/
structure Honest (s : Streaming) : Prop where
  onWayOut : s.OnWayOut
  placed : s.Placed
  stream : s.needsStream = true → ∃ t, s.transport = some t ∧ t.Up
  encoder : s.needsEncoder = true → s.contextRunning = true ∧ s.encodeAlive = true
  capture : s.needsCapture = true → s.capturing = true

theorem honest_start :
  start.Honest
  where
  onWayOut := onWayOut_start
  placed := placed_start
  stream h := by contradiction
  encoder h := by contradiction
  capture h := by contradiction

theorem needsStream_iff {s : Streaming} :
  s.needsStream = true ↔ ∃ w, s.service.worker = some w
    ∧ w.supervises s.service.stopRequested = true
    ∧ (w.point.carries = true ∨ w.point.starts = true ∧ s.answer = some true)
  := by
  simp [needsStream, Option.any_eq_true]

theorem needsEncoder_iff {s : Streaming} :
  s.needsEncoder = true ↔ ∃ w, s.service.worker = some w
    ∧ w.supervises s.service.stopRequested = true ∧ w.point.pipelined = true
  := by
  simp [needsEncoder, Option.any_eq_true]

theorem needsCapture_iff {s : Streaming} :
  s.needsCapture = true ↔ ∃ w, s.service.worker = some w
    ∧ w.supervises s.service.stopRequested = true ∧ w.point.inLoop = true
  := by
  simp [needsCapture, Option.any_eq_true]

theorem startReturns_of_call {s : Streaming} {t : Transport} {c : Call}
    (htransport : s.transport = some t) (hcall : t.call = some c) (hstarting : c.starting = true)
    (hresult : t.startResult = true) :
  s.startReturns = true
  := by
  rw [startReturns, htransport, Option.any_some, hresult, hcall, Option.any_some, hstarting]
  rfl

namespace Honest

variable {s s' : Streaming} {w : Worker}

/-- A step behind which the worker takes no more to be there, and which takes nothing of that
away. -/
theorem of_needs (hs : s.Honest) (hway : s'.OnWayOut) (hplaced : s'.Placed)
    (hstream : s'.needsStream = true → s.needsStream = true)
    (hencoder : s'.needsEncoder = true → s.needsEncoder = true)
    (hcapture : s'.needsCapture = true → s.needsCapture = true)
    (htransport : s'.transport = s.transport) (hcontext : s'.contextRunning = s.contextRunning)
    (hthreads : s'.encodeThreads = s.encodeThreads) (hcapturing : s'.capturing = s.capturing) :
  s'.Honest
  := by
  constructor
  · apply hway
  · apply hplaced
  · intro h
    rw [htransport]
    apply hs.stream (hstream h)
  · intro h
    rw [hcontext, encodeAlive, hthreads]
    apply hs.encoder (hencoder h)
  · intro h
    rw [hcapturing]
    apply hs.capture (hcapture h)

/-- A worker that supervises nothing takes nothing to be there. -/
theorem of_leaving (hway : s.OnWayOut) (hplaced : s.Placed)
    (hleaving : ∀ w, s.service.worker = some w → w.supervises s.service.stopRequested = false) :
  s.Honest
  := by
  constructor
  · apply hway
  · apply hplaced
  · intro h
    obtain ⟨w, hworker, hsupervises, -⟩ := needsStream_iff.mp h
    rw [hleaving w hworker] at hsupervises
    contradiction
  · intro h
    obtain ⟨w, hworker, hsupervises, -⟩ := needsEncoder_iff.mp h
    rw [hleaving w hworker] at hsupervises
    contradiction
  · intro h
    obtain ⟨w, hworker, hsupervises, -⟩ := needsCapture_iff.mp h
    rw [hleaving w hworker] at hsupervises
    contradiction

/-- A step of the service behind which the worker is where it was, and supervises no more than
before. -/
theorem of_supervises (hs : s.Honest) (hway : s'.OnWayOut) (hplaced : s'.Placed)
    (hsupervises : ∀ w', s'.service.worker = some w' →
      w'.supervises s'.service.stopRequested = true →
      ∃ w, s.service.worker = some w ∧ w'.point = w.point
        ∧ w.supervises s.service.stopRequested = true)
    (hanswer : s'.answer = s.answer)
    (htransport : s'.transport = s.transport) (hcontext : s'.contextRunning = s.contextRunning)
    (hthreads : s'.encodeThreads = s.encodeThreads) (hcapturing : s'.capturing = s.capturing) :
  s'.Honest
  := by
  apply hs.of_needs hway hplaced _ _ _ htransport hcontext hthreads hcapturing
  · intro h
    obtain ⟨w', hworker', hsup', hpoint⟩ := needsStream_iff.mp h
    obtain ⟨w, hworker, heq, hsup⟩ := hsupervises w' hworker' hsup'
    apply needsStream_iff.mpr
    use w, hworker, hsup
    rw [← heq, ← hanswer]
    apply hpoint
  · intro h
    obtain ⟨w', hworker', hsup', hpoint⟩ := needsEncoder_iff.mp h
    obtain ⟨w, hworker, heq, hsup⟩ := hsupervises w' hworker' hsup'
    apply needsEncoder_iff.mpr
    use w, hworker, hsup
    rw [← heq]
    apply hpoint
  · intro h
    obtain ⟨w', hworker', hsup', hpoint⟩ := needsCapture_iff.mp h
    obtain ⟨w, hworker, heq, hsup⟩ := hsupervises w' hworker' hsup'
    apply needsCapture_iff.mpr
    use w, hworker, hsup
    rw [← heq]
    apply hpoint

/-- The calls of the service, which reset `stop_requested_` beside no worker that streams. -/
theorem caller (hs : s.Honest) (hway : s'.OnWayOut) (hplaced : s'.Placed) {a : ServiceAction}
    (hservice : s.service.next a = some s'.service) (ha : ∀ b, a ≠ .worker b)
    (hreset : a = .caller → s.service.caller = .startReset →
      ∀ w ∈ s.service.worker, w.point.streams = false)
    (hanswer : s'.answer = s.answer)
    (htransport : s'.transport = s.transport) (hcontext : s'.contextRunning = s.contextRunning)
    (hthreads : s'.encodeThreads = s.encodeThreads) (hcapturing : s'.capturing = s.capturing) :
  s'.Honest
  := by
  apply hs.of_supervises hway hplaced _ hanswer htransport hcontext hthreads hcapturing
  intro w' hworker' hsup'
  cases A2dpService.worker_of_caller hs.onWayOut.joined hservice ha with
  | inl hkeeps =>
      obtain ⟨w, hworker, hpoint, hstores⟩ := hkeeps.1 w' hworker'
      use w, hworker, hpoint
      rw [Worker.supervises, hpoint] at hsup'
      apply WorkerPoint.supervises_mono _ _ hsup'
      · intro hset
        apply A2dpService.stopRequested_of_caller hservice hset
        rintro hcaller ha'
        have hnot := hreset ha' hcaller w hworker
        rw [WorkerPoint.streams_of_supervises hsup'] at hnot
        contradiction
      · rw [hstores]
        apply id
  | inr hspawn =>
      rw [hspawn.2] at hworker'
      obtain rfl := Option.some.inj hworker'
      contradiction

/-! ### The transport -/

/-- A worker that takes the stream to be started waits for no call, or for the one that starts
it. -/
theorem starts_of_fn (hs : s.Honest) (hworker : s.service.worker = some w) {fn : ApiFn}
    (hsup : w.supervises s.service.stopRequested = true) (hfn : s.fn? w = some fn) :
  w.point.fn? = some fn
  := by
  have hrelease : s.nextRelease w = none := by
    by_contra hsome
    obtain ⟨r, hr⟩ := Option.ne_none_iff_exists'.mp hsome
    have hleaving := hs.onWayOut.leaving_of_release hworker hr
    rw [Worker.supervises, WorkerPoint.supervises_of_leaving hleaving] at hsup
    contradiction
  rw [fn?, hrelease] at hfn
  apply (Option.ite_none_right_eq_some.mp hfn).2

/-- Beside no call the stream stays as it is, but for what the remote does to it. -/
theorem up_of_keeps (hs : s.Honest) {t : Transport} {a : Action} {r : Transport × List Obs}
    (htransport : s.transport = some t) (h : Transport.Keeps t a r)
    (hspared : a.halts = true → s.needsStream = true → t.disconnectOccurred = true)
    (hneeds : s.needsStream = true) :
  r.1.Up
  := by
  obtain ⟨u, hu, hup⟩ := hs.stream hneeds
  rw [htransport] at hu
  obtain rfl := Option.some.inj hu
  apply h.up _ hup
  intro hhalts
  apply hspared hhalts hneeds

/-- Behind a step of a call of the worker, the stream it takes to be started is up. -/
theorem up_of_proceeds (hs : s.Honest) {r : Transport × List Obs} {fn : ApiFn}
    (hcalling : s.Calling fn) (h : Transport.Proceeds fn r)
    (hneeds : (s.after r).needsStream = true) :
  r.1.Up
  := by
  obtain ⟨w, hworker, hsup, hpoint⟩ := needsStream_iff.mp hneeds
  rw [after_service] at hworker hsup
  cases hcalling with
  | init hbtstack =>
      have hnot := hs.placed.uninitialised w hworker hbtstack
      cases hw : w.point <;> simp [hw, WorkerPoint.carries, WorkerPoint.starts,
        WorkerPoint.initialised] at hpoint hnot
  | worker hanswer hw hfn =>
      rw [hworker] at hw
      obtain rfl := Option.some.inj hw
      have hfn' := hs.starts_of_fn hworker hsup hfn
      have hcarries : w.point.carries = false := by
        cases hw : w.point with
        | createThread | captureStart | mainLoop | checkDisconnected =>
            rw [hw] at hfn'
            contradiction
        | _ => rfl
      rw [hcarries] at hpoint
      obtain ⟨hstarts, hok⟩ := hpoint.resolve_left nofun
      cases h with
      | goesOn c hcall hc hstage hobs =>
          rw [after_of_none s r hobs] at hok
          rw [hanswer] at hok
          contradiction
      | returns ok hcall hobs hup =>
          have hinit : fn ≠ .init := by
            rintro rfl
            apply s.fn_ne_init w hfn
          rw [after_of_returned s r ok hinit hobs] at hok
          apply hup _ (Option.some.inj hok)
          cases hw : w.point with
          | startStream | reconnect attempt =>
              rw [hw] at hfn'
              obtain rfl := Option.some.inj hfn'
              rfl
          | _ =>
              rw [hw] at hstarts
              contradiction

/-- A step of the transport behind which the stream the worker takes to be started is up. -/
theorem of_after (hs : s.Honest) (r : Transport × List Obs) (hway : (s.after r).OnWayOut)
    (hplaced : (s.after r).Placed) (hup : (s.after r).needsStream = true → r.1.Up) :
  (s.after r).Honest
  := by
  obtain ⟨_, _, heq⟩ := s.after_eq r
  constructor
  · apply hway
  · apply hplaced
  · intro h
    use r.1
    exact ⟨s.after_transport r, hup h⟩
  · rw [heq]
    apply hs.encoder
  · rw [heq]
    apply hs.capture

/-- A step of BTstack, of the encode thread in `send_media`, or of a call in progress. -/
theorem transport (hs : s.Honest) {t : Transport} {a : Action} {r : Transport × List Obs}
    (hway : (s.after r).OnWayOut) (hplaced : (s.after r).Placed) (hinCall : a.inCall = true)
    (htransport : s.transport = some t)
    (hspared : a.halts = true → s.needsStream = true ∨ s.startReturns = true →
      t.disconnectOccurred = true)
    (hstep : t.step a = some r) :
  (s.after r).Honest
  := by
  apply hs.of_after r hway hplaced
  intro hneeds
  cases hcall : t.call with
  | none =>
      have hkeeps := Transport.step_of_none hinCall hcall hstep
      rw [after_of_none s r hkeeps.returned] at hneeds
      apply hs.up_of_keeps htransport hkeeps _ hneeds
      intro hhalts h
      apply hspared hhalts (Or.inl h)
  | some c =>
      obtain ⟨hstage, hcalling⟩ := hs.placed.calling t c htransport hcall
      apply hs.up_of_proceeds hcalling _ hneeds
      apply Transport.step_proceeds hinCall hcall hstage _ hstep
      intro hstarting hresult hhalts
      apply hspared hhalts (Or.inr (startReturns_of_call htransport hcall hstarting hresult))

/-- The worker makes a call. -/
theorem call (hs : s.Honest) {t : Transport} {a : Action} {r : Transport × List Obs}
    (hway : (s.after r).OnWayOut) (hplaced : (s.after r).Placed)
    (hworker : s.service.worker = some w) (hanswer : s.answer = none)
    (hwants : s.wants w a = true) (hstep : t.step a = some r) :
  (s.after r).Honest
  := by
  apply hs.of_after r hway hplaced
  intro hneeds
  obtain ⟨fn, hfn, hwaits⟩ := fn_of_wants hwants
  apply hs.up_of_proceeds (Calling.worker hanswer hworker hwaits) _ hneeds
  apply Transport.call_proceeds hfn hstep

/-! ### The worker -/

/-- The stream is up behind a check that has found no connection lost, as behind the other
points. -/
theorem up_of_effect (hs : s.Honest) {ok : Bool} {p : WorkerPoint} (hready : s.ready ok p = true)
    (hneeds : s.needsStream = true) (hcheck : p = .checkDisconnected → ok = false) :
  ∃ t, (s.effect ok p).transport = some t ∧ t.Up
  := by
  obtain ⟨t, htransport, hup⟩ := hs.stream hneeds
  by_cases hpoint : p = .checkDisconnected
  · obtain rfl := hpoint
    obtain rfl := hcheck rfl
    rw [ready, htransport, Option.any_some] at hready
    have hstreaming := hup.resolve_right (by rw [of_decide_eq_true hready]; nofun)
    use { t with disconnectOccurred := false }
    constructor
    · rw [effect, htransport]
      rfl
    · apply Or.inl hstreaming
  · rw [effect_transport s ok hpoint]
    use t, htransport

section Move

variable {ok : Bool} {w' : Worker} (hworker : s.service.worker = some w) (hstores : w.stores = [])
  (hready : s.ready ok w.point = true)
  (hbranch : (w'.stores, w'.point) = w.point.branch s.service.stopRequested ok)
  (hsup : w'.supervises s.service.stopRequested = true)

include hstores hbranch hsup

/-- A worker that has come to a point other than the start of the stream was at a point that
supervises before. -/
theorem supervises_of_move {P : WorkerPoint → Bool} (hP : P .startStream = false)
    (hpoint : P w'.point = true) :
  w.supervises s.service.stopRequested = true
    ∧ P (w.point.branch s.service.stopRequested ok).2 = true
  := by
  have hstores' : w'.stores = (w.point.branch s.service.stopRequested ok).1 :=
    congrArg Prod.fst hbranch
  have hpoint' : w'.point = (w.point.branch s.service.stopRequested ok).2 :=
    congrArg Prod.snd hbranch
  rw [hpoint'] at hpoint
  rw [Worker.supervises, hstores', hpoint'] at hsup
  rw [Worker.supervises, hstores]
  constructor
  · apply (WorkerPoint.supervises_branch hsup).resolve_left
    intro hstart
    rw [hstart, hP] at hpoint
    contradiction
  · apply hpoint

include hworker

theorem encoder_of_move (hs : s.Honest) (hpoint : w'.point.pipelined = true) :
  (s.effect ok w.point).contextRunning = true ∧ (s.effect ok w.point).encodeAlive = true
  := by
  obtain ⟨hbefore, hpoint⟩ :=
    supervises_of_move hstores hbranch hsup (P := WorkerPoint.pipelined) rfl hpoint
  cases WorkerPoint.pipelined_branch hpoint with
  | inl hpipelined =>
      have hneeds := hs.encoder (needsEncoder_iff.mpr ⟨w, hworker, hbefore, hpipelined⟩)
      cases hw : w.point with
      | createThread =>
          rw [hw] at hpipelined
          contradiction
      | _ => apply hneeds
  | inr hcreate =>
      rw [hcreate.1, hcreate.2]
      constructor
      · rfl
      · rw [encodeAlive, effect_encodeThreads, if_pos ⟨rfl, rfl⟩, List.getLast?_concat]
        rfl

theorem capture_of_move (hs : s.Honest) (hpoint : w'.point.inLoop = true) :
  (s.effect ok w.point).capturing = true
  := by
  obtain ⟨hbefore, hpoint⟩ :=
    supervises_of_move hstores hbranch hsup (P := WorkerPoint.inLoop) rfl hpoint
  cases WorkerPoint.inLoop_branch hpoint with
  | inl hloop =>
      have hneeds := hs.capture (needsCapture_iff.mpr ⟨w, hworker, hbefore, hloop⟩)
      cases hw : w.point with
      | captureStart =>
          rw [hw] at hloop
          contradiction
      | _ => apply hneeds
  | inr hcapture =>
      rw [hcapture.1, hcapture.2]
      apply Bool.or_true

include hready

theorem stream_of_move (hs : s.Honest) (hpoint : w'.point.carries = true) :
  ∃ t, (s.effect ok w.point).transport = some t ∧ t.Up
  := by
  obtain ⟨hbefore, hpoint⟩ :=
    supervises_of_move hstores hbranch hsup (P := WorkerPoint.carries) rfl hpoint
  cases WorkerPoint.carries_branch hpoint with
  | inl hstarts =>
      obtain ⟨hstarts, rfl⟩ := hstarts
      have hanswer : s.answer = some true := by
        cases hw : w.point with
        | startStream | reconnect attempt =>
            rw [hw] at hready
            apply of_decide_eq_true hready
        | _ =>
            rw [hw] at hstarts
            contradiction
      apply hs.up_of_effect hready
      · exact needsStream_iff.mpr ⟨w, hworker, hbefore, Or.inr ⟨hstarts, hanswer⟩⟩
      · intro hcheck
        rw [hcheck] at hstarts
        contradiction
  | inr hcarries =>
      apply hs.up_of_effect hready
      · exact needsStream_iff.mpr ⟨w, hworker, hbefore, Or.inl hcarries.1⟩
      · apply hcarries.2

end Move

/-- A worker goes on to its next point with what it takes to be there. -/
theorem move (hs : s.Honest) {ok : Bool} {w' : Worker} {service : A2dpService}
    {releases : List Release} (hworker : s.service.worker = some w) (hstores : w.stores = [])
    (hready : s.ready ok w.point = true) (hworker' : service.worker = some w')
    (hbranch : (w'.stores, w'.point) = w.point.branch s.service.stopRequested ok)
    (hstop : service.stopRequested = s.service.stopRequested)
    (hway : OnWayOut { s.effect ok w.point with service := service, releases := releases })
    (hplaced : Placed { s.effect ok w.point with service := service, releases := releases }) :
  Honest { s.effect ok w.point with service := service, releases := releases }
  := by
  constructor
  · apply hway
  · apply hplaced
  · intro h
    obtain ⟨v, hv, hsup, hpoint⟩ := needsStream_iff.mp h
    obtain rfl := Option.some.inj (hworker'.symm.trans hv)
    apply hs.stream_of_move hworker hstores hready hbranch (hstop ▸ hsup)
    apply hpoint.resolve_right
    rintro ⟨-, hanswer⟩
    dsimp only at hanswer
    rw [hs.placed.effect_answer_eq_none ok hworker (s.fn_of_stores hstores)] at hanswer
    contradiction
  · intro h
    obtain ⟨v, hv, hsup, hpoint⟩ := needsEncoder_iff.mp h
    obtain rfl := Option.some.inj (hworker'.symm.trans hv)
    apply hs.encoder_of_move hworker hstores hbranch (hstop ▸ hsup) hpoint
  · intro h
    obtain ⟨v, hv, hsup, hpoint⟩ := needsCapture_iff.mp h
    obtain rfl := Option.some.inj (hworker'.symm.trans hv)
    apply hs.capture_of_move hworker hstores hbranch (hstop ▸ hsup) hpoint

/-! ### The other parties -/

/-- A step of an encode thread while `g_ctx.running` is set, which clears it when it throws
only. -/
theorem nextEncode_of_running {i : Nat} {thread : EncodeThread} {step : EncodeStep}
    (h : s.nextEncode i thread step = some s') (hcontext : s.contextRunning = true)
    (hthrow : step ≠ .throw) :
  s'.contextRunning = true
    ∧ ∃ thread', thread' ≠ .exited ∧ s'.encodeThreads = s.encodeThreads.set i thread'
  := by
  cases step with
  | enter =>
      obtain ⟨-, h⟩ := Option.ite_none_right_eq_some.mp h
      obtain rfl := Option.some.inj h
      exact ⟨hcontext, .encoding, nofun, rfl⟩
  | leave =>
      obtain ⟨-, h⟩ := Option.ite_none_right_eq_some.mp h
      obtain rfl := Option.some.inj h
      exact ⟨hcontext, .looping, nofun, rfl⟩
  | throw => contradiction
  | exit =>
      obtain ⟨⟨-, hnot⟩, -⟩ := Option.ite_none_right_eq_some.mp h
      rw [hcontext] at hnot
      contradiction

/-- A step of a thread that does not exit leaves the last one alive. -/
theorem encodeAlive_of_set {i : Nat} {thread : EncodeThread} (hthread : thread ≠ .exited)
    (hset : s'.encodeThreads = s.encodeThreads.set i thread) (halive : s.encodeAlive = true) :
  s'.encodeAlive = true
  := by
  rw [encodeAlive, List.getLast?_eq_getElem?] at halive ⊢
  rw [hset, List.length_set, List.getElem?_set]
  split
  next =>
    split
    next => exact decide_eq_true hthread
    next hlength =>
      subst i
      rw [List.getElem?_eq_none (Nat.le_of_not_lt hlength)] at halive
      contradiction
  next => apply halive

/-- A step of an encode thread. -/
theorem encode (hs : s.Honest) {i : Nat} {thread : EncodeThread} {step : EncodeStep}
    (hway : s'.OnWayOut) (hplaced : s'.Placed) (hs' : s.nextEncode i thread step = some s')
    (hthrow : step = .throw → s.needsEncoder = false) :
  s'.Honest
  := by
  have hencoder (hneeds : s.needsEncoder = true) :
      s'.contextRunning = true ∧ s'.encodeAlive = true := by
    obtain ⟨hcontext, halive⟩ := hs.encoder hneeds
    have hnot : step ≠ .throw := by
      intro hstep
      rw [hthrow hstep] at hneeds
      contradiction
    obtain ⟨hcontext', thread', hthread, hset⟩ := nextEncode_of_running hs' hcontext hnot
    exact ⟨hcontext', encodeAlive_of_set hthread hset halive⟩
  obtain ⟨thread', contextRunning, -, rfl⟩ := nextEncode_eq hs'
  exact ⟨hway, hplaced, hs.stream, hencoder, hs.capture⟩

end Honest

/-- Every step keeps what the worker takes to be there when nothing fails beside it. -/
theorem honest_next {s s' : Streaming} {a : StreamingAction} (hs : s.Honest)
    (hC : s.Unfailing a) (h : s.next a = some s') :
  s'.Honest
  := by
  have hway := onWayOut_next hs.onWayOut h
  have hplaced : s'.Placed := by
    apply placed_next hs.placed hs.onWayOut _ h
    rintro b t c rfl htransport hcall hstarting hresult hhalts
    have hlost := hC hhalts (Or.inr (startReturns_of_call htransport hcall hstarting hresult))
    rw [htransport, Option.any_some] at hlost
    apply hlost
  cases steps_next h with
  | startStreaming hservice | stopStreaming hservice =>
      apply hs.caller hway hplaced
      · apply hservice
      · nofun
      · nofun
      · rfl
      · rfl
      · rfl
      · rfl
      · rfl
  | caller hstopping hservice =>
      apply hs.caller hway hplaced
      · apply hservice
      · nofun
      · intro _
        apply hC.2
      · rfl
      · rfl
      · rfl
      · rfl
      · rfl
  | stopClears hstopping =>
      have hneeds : s.needsEncoder = false := by
        apply hC.1
        rw [hstopping]
        rfl
      constructor
      · apply hway
      · apply hplaced
      · apply hs.stream
      · intro h'
        exact absurd (hneeds.symm.trans h') nofun
      · apply hs.capture
  | stopCancels hstopping =>
      constructor
      · apply hway
      · apply hplaced
      · intro h'
        obtain ⟨t, htransport, hup⟩ := hs.stream h'
        use { t with cancelEvent := true }
        constructor
        · dsimp only
          rw [htransport]
          rfl
        · apply hup
      · apply hs.encoder
      · apply hs.capture
  | createTransport htransport hworker hstores hpoint =>
      apply Honest.of_leaving hway hplaced
      intro v hv
      rw [hworker] at hv
      obtain rfl := Option.some.inj hv
      rw [Worker.supervises, hpoint]
      rfl
  | call hworker hanswer hwants htransport hstep =>
      apply hs.call hway hplaced hworker hanswer hwants hstep
  | transport hinCall htransport hstep =>
      apply hs.transport hway hplaced hinCall htransport _ hstep
      intro hhalts hneeds
      have hlost := hC hhalts hneeds
      rw [htransport, Option.any_some] at hlost
      apply hlost
  | release hworker hrelease hs' =>
      apply Honest.of_leaving hway hplaced
      intro v hv
      rw [(release_eq hs').1, hworker] at hv
      obtain rfl := Option.some.inj hv
      apply WorkerPoint.supervises_of_leaving
      apply hs.onWayOut.leaving_of_release hworker hrelease
  | move hworker hstores hready hservice =>
      obtain ⟨w', hnext, hworker'⟩ := A2dpService.worker_of_next hworker hservice
      apply hs.move hworker hstores hready hworker' _ _ hway hplaced
      · apply Worker.branch_of_next hstores hnext
      · apply A2dpService.stopRequested_of_worker hservice
  | @store ok w service hworker hrelease hstores hservice =>
      obtain ⟨w', hnext, hworker'⟩ := A2dpService.worker_of_next hworker hservice
      obtain ⟨_, hstore, hpoint⟩ := Worker.store_of_next hstores hnext
      apply hs.of_supervises hway hplaced
      · intro v hv hsup
        obtain rfl := Option.some.inj (hworker'.symm.trans hv)
        use w, hworker, hpoint
        rw [Worker.supervises, hpoint] at hsup
        apply WorkerPoint.supervises_mono _ _ hsup
        · intro hset
          dsimp only
          rw [A2dpService.stopRequested_of_worker hservice, hset]
        · intro _
          rw [hstore]
          nofun
      · rfl
      · rfl
      · rfl
      · rfl
      · rfl
  | throw hworker hservice =>
      obtain ⟨w', hnext, hworker'⟩ := A2dpService.worker_of_next hworker hservice
      apply Honest.of_leaving hway hplaced
      intro v hv
      obtain rfl := Option.some.inj (hworker'.symm.trans hv)
      apply WorkerPoint.supervises_of_leaving
      apply (Worker.leaving_of_throw hnext).2
  | crash hworker hservice =>
      obtain ⟨w', hnext, hworker'⟩ := A2dpService.worker_of_next hworker hservice
      apply Honest.of_leaving hway hplaced
      intro v hv
      obtain rfl := Option.some.inj (hworker'.symm.trans hv)
      apply WorkerPoint.supervises_of_leaving
      apply (Worker.leaving_of_crash hnext).2
  | encode hthread hs' =>
      apply hs.encode hway hplaced hs'
      rintro rfl
      apply hC
  | captureEnds hcapturing =>
      constructor
      · apply hway
      · apply hplaced
      · apply hs.stream
      · apply hs.encoder
      · intro h'
        have hneeds : s.needsCapture = false := hC
        exact absurd (hneeds.symm.trans h') nofun

/-! ### The law -/

/-- In the main loop the threads are alive. -/
theorem Honest.alive {s : Streaming} {w : Worker} (hs : s.Honest)
    (hworker : s.service.worker = some w) (hsup : w.supervises s.service.stopRequested = true)
    (hpoint : w.point = .mainLoop ∨ w.point = .checkDisconnected) :
  s.capturing = true ∧ s.encodeAlive = true ∧ s.needsStream = true
  := by
  have hpoints : w.point.inLoop = true ∧ w.point.pipelined = true ∧ w.point.carries = true := by
    cases hpoint with
    | inl hmain =>
        rw [hmain]
        exact ⟨rfl, rfl, rfl⟩
    | inr hcheck =>
        rw [hcheck]
        exact ⟨rfl, rfl, rfl⟩
  constructor
  · exact hs.capture (needsCapture_iff.mpr ⟨w, hworker, hsup, hpoints.1⟩)
  · constructor
    · exact (hs.encoder (needsEncoder_iff.mpr ⟨w, hworker, hsup, hpoints.2.1⟩)).2
    · exact needsStream_iff.mpr ⟨w, hworker, hsup, Or.inl hpoints.2.2⟩

/-- Behind an iteration of the main loop everything the worker takes to be there is there. -/
theorem Honest.honestState {s s' : Streaming} {a : StreamingAction} (hs : s.Honest)
    (h : s.next a = some s') :
  s.HonestState a s'
  := by
  intro hcompletes _
  cases steps_next h with
  | @release ok w r s' hworker hrelease hs' =>
      have hleaving := hs.onWayOut.leaving_of_release hworker hrelease
      rw [completes, hworker, Option.any_some] at hcompletes
      cases hw : w.point <;> simp [hw, WorkerPoint.leaving] at hcompletes hleaving
  | @move ok w service hworker hstores hready hservice =>
      obtain ⟨hpoint, rfl⟩ : w.point = .checkDisconnected ∧ ok = false := by
        simpa [completes, hworker, hstores] using hcompletes
      have hsup : w.supervises s.service.stopRequested = true := by
        rw [Worker.supervises, hpoint]
        rfl
      obtain ⟨hcapturing, halive, hneeds⟩ := hs.alive hworker hsup (Or.inr hpoint)
      rw [hpoint] at hready ⊢
      use hcapturing, halive
      apply hs.up_of_effect hready hneeds (fun _ => rfl)
  | @store ok w service hworker hrelease hstores hservice =>
      obtain ⟨hstores, hpoint⟩ : w.stores = [.notifyState .streaming] ∧ w.point = .mainLoop := by
        simpa [completes, hworker, hstores] using hcompletes
      have hsup : w.supervises s.service.stopRequested = true := by
        rw [Worker.supervises, hpoint, hstores]
        apply Bool.or_true
      obtain ⟨hcapturing, halive, hneeds⟩ := hs.alive hworker hsup (Or.inl hpoint)
      use hcapturing, halive
      apply hs.stream hneeds
  | _ => contradiction

/-- In every run in which nothing the worker takes to be there fails beside it, the state says
`Streaming` behind an iteration of the main loop only when the capture thread and the encode
thread are alive and the stream is started or recorded as lost. -/
theorem honestState_of_unfailing {as : List StreamingAction} {s : Streaming}
    (h : Run next Unfailing start as s) :
  ∀ t a u, Takes next start as t a u → t.HonestState a u
  := by
  intro t a u htakes
  obtain ⟨⟨bs, hbs⟩, -, hstep⟩ := h.of_takes htakes
  apply Honest.honestState _ hstep
  apply hbs.invariant honest_start
  intro s a t hs hC hstep
  apply honest_next hs hC hstep

/-- A stream whose connection is lost and made again, up to the end of the iteration. -/
def reconnection : List StreamingAction :=
  List.flatten [streaming, [.worker (.proceed true), .worker (.proceed false)],
    [.transport (.event 1 .hciDisconnectionComplete)], List.replicate 6 (.worker (.proceed true)),
    [.call .reconnect],
    [.runCallback 0 (some 1), .doneWake, .event 1 (.sbcCapability 5),
      .event 1 .capabilitiesComplete, .eventWake, .resume, .runCallback 0 none, .doneWake,
      .event 1 (.streamEstablished 0 1 5 679), .eventWake, .resume, .runCallback 0 none,
      .doneWake, .event 1 .streamStarted, .eventWake, .resume].map .transport,
    List.replicate 3 (.worker (.proceed true))]

theorem reconnection_completes :
  (exec (guarded next Unfailing) start reconnection).map (fun s =>
      (s.service.state, s.completes (.worker (.proceed false))))
    = some (.streaming, true)
  := by
  decide +kernel

/-- The law for a stream that is lost and made again. -/
theorem honestState_reconnection :
  ∃ s, exec next start reconnection = some s ∧ s.service.state = .streaming
    ∧ s.completes (.worker (.proceed false)) = true
    ∧ ∀ t a u, Takes next start reconnection t a u → t.HonestState a u
  := by
  obtain ⟨s, hs, hstate⟩ := Option.map_eq_some_iff.mp reconnection_completes
  obtain ⟨hstate, hcompletes⟩ := Prod.mk.inj hstate
  have hrun := run_of_exec_guarded hs
  use s, hrun.exec_eq, hstate, hcompletes
  apply honestState_of_unfailing hrun

/-- A stream whose capture thread ends, whose encode thread throws and exits, and which the
remote suspends, up to the end of the iteration. -/
def unsupervised : List StreamingAction :=
  List.flatten [streaming, [.captureEnds, .encode 0 .throw, .encode 0 .exit,
    .transport (.event 1 .streamSuspended), .worker (.proceed true)]]

theorem unsupervised_state :
  (exec next start unsupervised).map (fun s => (s.completes (.worker (.proceed false)),
      (s.next (.worker (.proceed false))).map fun u => (u.service.state, u.capturing,
        u.encodeAlive, u.transport.any fun t => t.streaming || t.disconnectOccurred)))
    = some (true, some (.streaming, false, false, false))
  := by
  decide +kernel

/-- The state says `Streaming` beside a capture thread and an encode thread that have ended and
a stream that is not started. -/
theorem not_honestState_unsupervised :
  ¬ ∀ (as : List StreamingAction) (s : Streaming), Run next always start as s →
    ∀ t a u, Takes next start as t a u → t.HonestState a u
  := by
  intro hall
  obtain ⟨s, hs, hstate⟩ := Option.map_eq_some_iff.mp unsupervised_state
  obtain ⟨hcompletes, hnext⟩ := Prod.mk.inj hstate
  obtain ⟨u, hu, hdead⟩ := Option.map_eq_some_iff.mp hnext
  obtain ⟨hstreaming, hdead⟩ := Prod.mk.inj hdead
  obtain ⟨hcapturing, -⟩ := Prod.mk.inj hdead
  have hlaw := hall _ _ ((run_of_exec hs).snoc trivial hu) s _ _
    ⟨unsupervised, [], rfl, run_of_exec hs, hu⟩
  obtain ⟨halive, -⟩ := hlaw hcompletes hstreaming
  rw [hcapturing] at halive
  contradiction

end Streaming

end Ssc
