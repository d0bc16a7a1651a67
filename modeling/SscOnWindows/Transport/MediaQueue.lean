import SscOnWindows.Lib.Machine
import SscOnWindows.Transport.Machine

/-!
# The media queue across sessions

The packets that `send_media` accepts and those that are dequeued for the remote are
recorded along the run, from the last clearing of the queue on.  As long as the queue
represents the difference of the two, what is dequeued is a prefix of what was accepted.

Every call and every handler either leaves the queue as it is or pushes, pops or clears
it.  `reconnect` clears it by a reset; the two handlers of a lost connection only set the
counter to zero.
-/

namespace Ssc

open Machine

/-- The packets accepted and dequeued since the queue was last cleared. -/
structure History where
  accepted : List MediaPacket := []
  dequeued : List MediaPacket := []
  deriving DecidableEq

namespace History

/-- One more observation. -/
def note (h : History) : Obs → History
  | .accepted packet => { h with accepted := h.accepted ++ [packet] }
  | .dequeued packet => { h with dequeued := h.dequeued ++ [packet] }
  | .cleared => {}
  | _ => h

/-- The observations of a step, the first one first. -/
def noteAll (h : History) (obs : List Obs) : History :=
  obs.foldl note h

end History

/-! ### What a step does to the queue -/

/-- The outcome of a piece of a step: the queue is `q` and nothing is recorded. -/
structure Quiet (r : Transport × List Obs) (q : CircularQueue MediaPacket) : Prop where
  queue_eq : r.1.mediaQueue = q
  noteAll_eq : ∀ h : History, h.noteAll r.2 = h

namespace Transport

theorem returns_quiet (t : Transport) (fn : ApiFn) (ok : Bool) :
  Quiet (t.returns fn ok) t.mediaQueue
  := ⟨rfl, fun _ => rfl⟩

theorem dispatch_quiet (t : Transport) (fn : ApiFn) (kind : RequestKind) :
  Quiet (t.dispatch fn kind) t.mediaQueue
  := ⟨rfl, fun _ => rfl⟩

theorem initCall_quiet (t : Transport) :
  Quiet t.initCall t.mediaQueue
  := by
  rw [initCall]
  split
  · apply returns_quiet
  · exact ⟨rfl, fun _ => rfl⟩

theorem shutdownEnd_quiet (t : Transport) (fn : ApiFn) :
  Quiet (t.shutdownEnd fn) t.mediaQueue
  := by
  rw [shutdownEnd]
  apply returns_quiet

theorem shutdownCall_quiet (t : Transport) (fn : ApiFn) :
  Quiet (t.shutdownCall fn) t.mediaQueue
  := by
  rw [shutdownCall]
  split
  · apply returns_quiet
  · split
    · apply dispatch_quiet
    · apply shutdownEnd_quiet

theorem scanCall_quiet (t : Transport) (durationSeconds : UInt8) :
  Quiet (t.scanCall durationSeconds) t.mediaQueue
  := by
  rw [scanCall]
  split
  · apply returns_quiet
  · apply dispatch_quiet

theorem connectA2dp_quiet (t : Transport) (remoteAddr : List UInt8) :
  Quiet (t.connectA2dp remoteAddr) t.mediaQueue
  := by
  rw [connectA2dp]
  split
  · apply returns_quiet
  · apply dispatch_quiet

theorem stopStream_quiet (t : Transport) :
  Quiet t.stopStream t.mediaQueue
  := by
  rw [stopStream]
  split
  · apply returns_quiet
  · apply dispatch_quiet

theorem disconnectCall_quiet (t : Transport) (fn : ApiFn) :
  Quiet (t.disconnectCall fn) t.mediaQueue
  := by
  rw [disconnectCall]
  split
  · apply returns_quiet
  · split
    · apply dispatch_quiet
    · apply dispatch_quiet

theorem stageFailed_quiet (t : Transport) (fn : ApiFn) :
  Quiet (t.stageFailed fn) t.mediaQueue
  := by
  rw [stageFailed.eq_def]
  split
  · apply disconnectCall_quiet
  · apply returns_quiet

theorem configureCall_quiet (t : Transport) (fn : ApiFn) (codec : AudioCodec)
    (sampleRate channels : Nat) :
  Quiet (t.configureCall fn codec sampleRate channels) t.mediaQueue
  := by
  rw [configureCall]
  split
  · apply stageFailed_quiet
  · simp only
    split
    · apply stageFailed_quiet
    · split
      · apply stageFailed_quiet
      · apply dispatch_quiet

theorem startCall_quiet (t : Transport) (fn : ApiFn) :
  Quiet (t.startCall fn) t.mediaQueue
  := by
  rw [startCall]
  split
  · apply stageFailed_quiet
  · apply dispatch_quiet

theorem afterDone_quiet (t : Transport) (fn : ApiFn) (kind : RequestKind) (number result : Nat) :
  Quiet (t.afterDone fn kind number result) t.mediaQueue
  := by
  rw [afterDone.eq_def]
  split
  · exact ⟨rfl, fun _ => rfl⟩
  · split
    · apply returns_quiet
    · exact ⟨rfl, fun _ => rfl⟩
  · apply returns_quiet
  · split
    · apply returns_quiet
    · exact ⟨rfl, fun _ => rfl⟩
  · split
    · apply stageFailed_quiet
    · exact ⟨rfl, fun _ => rfl⟩
  · split
    · apply stageFailed_quiet
    · exact ⟨rfl, fun _ => rfl⟩
  · split
    · apply returns_quiet
    · apply dispatch_quiet
  · exact ⟨rfl, fun _ => rfl⟩
  · exact ⟨rfl, fun _ => rfl⟩

theorem consumeAwaited_mediaQueue (t : Transport) (kind : RequestKind) :
  (t.consumeAwaited kind).mediaQueue = t.mediaQueue
  := by
  cases kind <;> rfl

theorem afterWait_quiet (t : Transport) (fn : ApiFn) (kind : RequestKind) (signalled : Bool) :
  Quiet (t.afterWait fn kind signalled) t.mediaQueue
  := by
  rw [afterWait.eq_def]
  split
  · split
    · apply returns_quiet
    · apply shutdownCall_quiet
  · split
    · apply returns_quiet
    · apply dispatch_quiet
  · apply shutdownEnd_quiet
  · split
    · split
      · apply configureCall_quiet
      · apply returns_quiet
    · apply returns_quiet
  · split
    · split
      · apply startCall_quiet
      · apply stageFailed_quiet
    · apply returns_quiet
  · split
    · split
      · apply returns_quiet
      · apply stageFailed_quiet
    · apply returns_quiet
  · apply returns_quiet
  · exact ⟨rfl, fun _ => rfl⟩
  · exact ⟨rfl, fun _ => rfl⟩

theorem answer_quiet (t : Transport) (number status : Nat) :
  Quiet (t.answer number status) t.mediaQueue
  := by
  rw [answer.eq_def]
  split
  · split
    · exact ⟨rfl, fun _ => rfl⟩
    · exact ⟨rfl, fun _ => rfl⟩
  · exact ⟨rfl, fun _ => rfl⟩

theorem mediaTrigger_quiet (t : Transport) :
  Quiet t.mediaTrigger t.mediaQueue
  := by
  constructor
  · rfl
  · intro h
    rw [mediaTrigger]
    split <;> rfl

theorem runCallback_quiet {t : Transport} {status : Nat} {cid : Option Nat}
    {r : Transport × List Obs} (hrun : t.runCallback status cid = some r) :
  Quiet r t.mediaQueue
  := by
  rw [runCallback.eq_def] at hrun
  split at hrun
  · contradiction
  · obtain rfl := Option.some.inj hrun
    apply mediaTrigger_quiet
  · split at hrun
    · obtain rfl := Option.some.inj hrun
      apply answer_quiet
    · obtain rfl := Option.some.inj hrun
      apply answer_quiet

end Transport

/-- The step `a` loses the connection of `t` and clears the queue by its counter alone. -/
def forgets (t : Transport) : Action → Bool
  | .event _ .hciDisconnectionComplete => t.connected || t.streaming
  | .event _ .signalingConnectionReleased => true
  | _ => false

/-- What the step `a` can do to the queue, and what is recorded of it. -/
inductive QueueEffect (t : Transport) (a : Action) (r : Transport × List Obs) : Prop
  | quiet (h : Quiet r t.mediaQueue) (hforget : forgets t a = false)
  | push (packet : MediaPacket)
      (hqueue : t.mediaQueue.push mediaQueueCapacity packet = some r.1.mediaQueue)
      (hnote : ∀ h : History, h.noteAll r.2 = h.note (.accepted packet))
      (hforget : forgets t a = false)
  | pop (packet : MediaPacket)
      (hqueue : t.mediaQueue.pop mediaQueueCapacity = some (packet, r.1.mediaQueue))
      (hnote : ∀ h : History, h.noteAll r.2 = h.note (.dequeued packet))
      (hforget : forgets t a = false)
  | reset (hqueue : r.1.mediaQueue = t.mediaQueue.reset)
      (hnote : ∀ h : History, h.noteAll r.2 = {})
      (hforget : forgets t a = false)
  | forget (hqueue : r.1.mediaQueue = t.mediaQueue.forget)
      (hnote : ∀ h : History, h.noteAll r.2 = {})
      (hforget : forgets t a = true)

/-- A piece of a step that leaves the queue alone is the effect of its step. -/
theorem Quiet.effect {t : Transport} {a : Action} {r : Transport × List Obs}
    (h : Quiet r t.mediaQueue) (hforget : forgets t a = false) :
  QueueEffect t a r
  := QueueEffect.quiet h hforget

namespace Transport

theorem enqueueMedia_effect (t : Transport) (data : List UInt8) (timestamp : Nat)
    (frames : UInt8) (codec : AudioCodec) :
  QueueEffect t (.sendEnqueue data timestamp frames codec)
    (t.enqueueMedia data timestamp frames codec)
  := by
  rw [enqueueMedia]
  split
  · exact QueueEffect.quiet ⟨rfl, fun _ => rfl⟩ rfl
  · split
    · exact QueueEffect.quiet ⟨rfl, fun _ => rfl⟩ rfl
    · split
      · exact QueueEffect.quiet ⟨rfl, fun _ => rfl⟩ rfl
      · split
        · exact QueueEffect.quiet ⟨rfl, fun _ => rfl⟩ rfl
        · rename_i packet _ _ queue hpush
          exact QueueEffect.push packet hpush (fun _ => rfl) rfl

theorem canSendNow_effect (t : Transport) (attempt : Nat) (maxPayload : Int) (status : Nat) :
  QueueEffect t (.event attempt (.canSendMediaPacketNow maxPayload status))
    (t.canSendNow maxPayload status)
  := by
  rw [canSendNow]
  split
  · exact QueueEffect.quiet ⟨rfl, fun _ => rfl⟩ rfl
  · rename_i packet queue hpop
    apply QueueEffect.pop packet hpop _ rfl
    intro h
    dsimp only
    split <;> rfl

theorem hciDisconnectionComplete_effect (t : Transport) (attempt : Nat) :
  QueueEffect t (.event attempt .hciDisconnectionComplete) t.hciDisconnectionComplete
  := by
  rw [hciDisconnectionComplete]
  split
  · rename_i h
    exact QueueEffect.forget rfl (fun _ => rfl) (by simpa [forgets] using h)
  · rename_i h
    exact QueueEffect.quiet ⟨rfl, fun _ => rfl⟩ (by simpa [forgets] using h)

theorem handleEvent_effect (t : Transport) (attempt : Nat) (e : Event) :
  QueueEffect t (.event attempt e) (t.handleEvent e)
  := by
  cases e with
  | hciDisconnectionComplete => apply hciDisconnectionComplete_effect
  | canSendMediaPacketNow maxPayload status => apply canSendNow_effect
  | signalingConnectionReleased =>
      exact QueueEffect.forget rfl (fun _ => rfl) rfl
  | signalingConnectionEstablished status cid =>
      apply QueueEffect.quiet _ rfl
      constructor
      · rw [handleEvent, signalingConnectionEstablished]
        split <;> rfl
      · intro h
        rfl
  | streamEstablished status localSeid remoteSeid maxPayload =>
      apply QueueEffect.quiet _ rfl
      constructor
      · rw [handleEvent, streamEstablished]
        split <;> rfl
      · intro h
        rfl
  | avrcpConnectionEstablished status cid =>
      apply QueueEffect.quiet _ rfl
      constructor
      · rw [handleEvent]
        split <;> rfl
      · intro h
        rfl
  | inquiryResult device =>
      apply QueueEffect.quiet _ rfl
      constructor
      · rw [handleEvent, inquiryResult]
        split <;> rfl
      · intro h
        rfl
  | hciWorking | hciOff | inquiryComplete | otherCapability | sbcCapability | aacCapability
  | capabilitiesComplete | streamStarted | streamSuspended | streamReleased | avrcpConnectionReleased =>
      exact QueueEffect.quiet ⟨rfl, fun _ => rfl⟩ rfl

theorem reconnect_effect (t : Transport) :
  QueueEffect t .reconnect t.reconnect
  := by
  rw [reconnect]
  split
  · apply QueueEffect.quiet (returns_quiet t .reconnect false) rfl
  · exact QueueEffect.reset rfl (fun _ => rfl) rfl

/-- Every step has one of the effects on the queue. -/
theorem step_effect {t : Transport} {a : Action} {r : Transport × List Obs}
    (hstep : t.step a = some r) :
  QueueEffect t a r
  := by
  cases step_inv hstep with
  | init => apply t.initCall_quiet.effect rfl
  | scanDevices durationSeconds => apply (scanCall_quiet t durationSeconds).effect rfl
  | shutdown => apply (shutdownCall_quiet t .shutdown).effect rfl
  | connectA2dp remoteAddr => apply (connectA2dp_quiet t remoteAddr).effect rfl
  | configureCodec codec sampleRate channels =>
      apply (configureCall_quiet t .configureCodec codec sampleRate channels).effect rfl
  | startStream => apply (startCall_quiet t .startStream).effect rfl
  | stopStream => apply t.stopStream_quiet.effect rfl
  | disconnect => apply (disconnectCall_quiet t .disconnect).effect rfl
  | reconnect => apply reconnect_effect
  | runCallback hrun => apply (runCallback_quiet hrun).effect rfl
  | doneWake | doneTimeout => apply (afterDone_quiet t _ _ _ _).effect rfl
  | eventWake => exact QueueEffect.quiet ⟨consumeAwaited_mediaQueue t _, fun _ => rfl⟩ rfl
  | waitCancelled | waitTimeout | cancelPendingWaits | checkDisconnected =>
      exact QueueEffect.quiet ⟨rfl, fun _ => rfl⟩ rfl
  | resume => apply (afterWait_quiet t _ _ _).effect rfl
  | event attempt e => apply handleEvent_effect
  | sendEnqueue data timestamp frames codec => apply enqueueMedia_effect
  | sendTrigger =>
      apply QueueEffect.quiet _ rfl
      constructor
      · rw [triggerMedia]
        split <;> rfl
      · intro h
        rfl

end Transport

/-! ### The recorded runs -/

/-- A transport with the history of its media queue. -/
structure Recorded where
  transport : Transport
  history : History

namespace Recorded

/-- One step, with its observations noted. -/
def next (s : Recorded) (a : Action) : Option Recorded :=
  (s.transport.step a).map (fun r => ⟨r.1, s.history.noteAll r.2⟩)

/-- The transport behind the registration of its stream endpoints. -/
def start (sbcSeid aacSeid sscSeid : Nat) : Recorded where
  transport := { sbcLocalSeid := sbcSeid, aacLocalSeid := aacSeid, sscLocalSeid := sscSeid }
  history := {}

/-- What is dequeued is a prefix of what was accepted, and the counter of the queue is
within bounds and agrees with the positions. -/
structure QueueLaw (s : Recorded) : Prop where
  prefix_accepted : s.history.dequeued <+: s.history.accepted
  count_nonneg : 0 ≤ s.transport.mediaQueue.count
  count_le : s.transport.mediaQueue.count ≤ mediaQueueCapacity
  positions : ((s.transport.mediaQueue.head : Int) - s.transport.mediaQueue.tail)
    % mediaQueueCapacity = s.transport.mediaQueue.count % mediaQueueCapacity

/-- A `send_media` that returns `false` leaves the queue as it was. -/
def RejectLaw (s : Recorded) (a : Action) (s' : Recorded) : Prop :=
  ∀ data timestamp frames codec, a = .sendEnqueue data timestamp frames codec →
    (s.transport.enqueueMedia data timestamp frames codec).2 = [.rejected] →
    s'.transport.mediaQueue = s.transport.mediaQueue

/-- Along the steps `as` from `s` the media queue works as a queue of one session. -/
def MediaQueueLaw (s : Recorded) (as : List Action) : Prop :=
  (∀ t, Passes next s as t → t.QueueLaw) ∧ ∀ t a u, Takes next s as t a u → t.RejectLaw a u

/-- A step that clears the queue by its counter alone finds the two positions at the same
slot: the queue is empty or full. -/
def ForgetsAligned (s : Recorded) (a : Action) : Prop :=
  forgets s.transport a = true → s.transport.mediaQueue.head = s.transport.mediaQueue.tail

instance (s : Recorded) (a : Action) : Decidable (s.ForgetsAligned a) :=
  inferInstanceAs (Decidable (_ → _))

/-- The queue holds what was accepted and not yet dequeued. -/
def Faithful (s : Recorded) : Prop :=
  ∃ l, s.history.accepted = s.history.dequeued ++ l
    ∧ s.transport.mediaQueue.Represents mediaQueueCapacity l

theorem start_faithful (sbcSeid aacSeid sscSeid : Nat) :
  (start sbcSeid aacSeid sscSeid).Faithful
  := by
  use []
  constructor
  · rfl
  · apply CircularQueue.represents_empty
    decide

theorem Faithful.queueLaw {s : Recorded} (h : s.Faithful) :
  s.QueueLaw
  := by
  obtain ⟨l, haccepted, hqueue⟩ := h
  constructor
  · rw [haccepted]
    apply List.prefix_append
  · apply hqueue.count_bounds.1
  · apply hqueue.count_bounds.2
  · apply hqueue.head_sub_tail

/-- The two positions of a faithful queue agree when its counter is 0 or at the capacity,
and not otherwise. -/
theorem Faithful.head_eq_tail_iff {s : Recorded} (h : s.Faithful) :
  s.transport.mediaQueue.head = s.transport.mediaQueue.tail
    ↔ s.transport.mediaQueue.count = 0 ∨ s.transport.mediaQueue.count = mediaQueueCapacity
  := by
  obtain ⟨l, -, hqueue⟩ := h
  rw [hqueue.head_eq_tail_iff, hqueue.count_eq]
  simp only [Int.natCast_eq_zero, Nat.cast_inj]

/-- The effect a step of a recorded run has on the queue. -/
theorem next_effect {s s' : Recorded} {a : Action} (h : s.next a = some s') :
  ∃ r, QueueEffect s.transport a r ∧ s' = ⟨r.1, s.history.noteAll r.2⟩
  := by
  obtain ⟨r, hstep, rfl⟩ := Option.map_eq_some_iff.mp h
  use r
  constructor
  · apply Transport.step_effect hstep
  · rfl

/-- A step keeps the queue faithful, unless it forgets a queue that is neither empty nor
full. -/
theorem Faithful.next {s s' : Recorded} {a : Action} (h : s.Faithful)
    (haligned : s.ForgetsAligned a) (hnext : s.next a = some s') :
  s'.Faithful
  := by
  obtain ⟨l, haccepted, hqueue⟩ := h
  obtain ⟨r, heffect, rfl⟩ := next_effect hnext
  cases heffect with
  | quiet hquiet _ =>
      use l
      simp only [hquiet.noteAll_eq, hquiet.queue_eq]
      constructor
      · apply haccepted
      · apply hqueue
  | push packet hpush hnote _ =>
      use l ++ [packet]
      simp only [hnote, History.note]
      constructor
      · rw [haccepted, List.append_assoc]
      · apply hqueue.push hpush
  | pop packet hpop hnote _ =>
      obtain ⟨rest, rfl, hrest⟩ := hqueue.pop hpop
      use rest
      simp only [hnote, History.note]
      constructor
      · rw [haccepted, List.append_assoc, List.singleton_append]
      · apply hrest
  | reset hreset hnote _ =>
      use []
      simp only [hnote, hreset]
      constructor
      · rfl
      · apply hqueue.reset
  | forget hforgotten hnote hforget =>
      use []
      simp only [hnote, hforgotten]
      constructor
      · rfl
      · apply hqueue.forget (haligned hforget)

/-- Forgetting a queue that is neither empty nor full leaves its counter behind its
positions. -/
theorem Faithful.not_queueLaw_of_forget {s s' : Recorded} {a : Action} (h : s.Faithful)
    (haligned : ¬ s.ForgetsAligned a) (hnext : s.next a = some s') :
  ¬ s'.QueueLaw
  := by
  obtain ⟨l, -, hqueue⟩ := h
  obtain ⟨hforget, hne⟩ := Classical.not_imp.mp haligned
  obtain ⟨r, heffect, rfl⟩ := next_effect hnext
  intro hlaw
  have hpositions := hlaw.positions
  cases heffect with
  | forget hforgotten _ _ =>
      simp only [hforgotten] at hpositions
      apply CircularQueue.forget_head_sub_tail hqueue.head_lt hqueue.tail_lt hne hpositions
  | quiet _ hno | push _ _ _ hno | pop _ _ _ hno | reset _ _ hno =>
      rw [hno] at hforget
      contradiction

/-- A rejected packet is not written to the queue. -/
theorem rejectLaw_next {s s' : Recorded} {a : Action} (hnext : s.next a = some s') :
  s.RejectLaw a s'
  := by
  rintro data timestamp frames codec rfl hrejected
  obtain ⟨r, hstep, rfl⟩ := Option.map_eq_some_iff.mp hnext
  obtain ⟨-, hr⟩ := Option.ite_none_left_eq_some.mp hstep
  obtain rfl := Option.some.inj hr
  cases Transport.enqueueMedia_effect s.transport data timestamp frames codec with
  | quiet hquiet _ => apply hquiet.queue_eq
  | push packet _ hnote _ =>
      have h := congrArg History.accepted (hnote {})
      rw [hrejected] at h
      simp [History.noteAll, History.note] at h
  | pop packet _ hnote _ =>
      have h := congrArg History.dequeued (hnote {})
      rw [hrejected] at h
      simp [History.noteAll, History.note] at h
  | reset _ hnote _ =>
      have h := congrArg History.accepted (hnote ⟨[{}], []⟩)
      rw [hrejected] at h
      simp [History.noteAll, History.note] at h
  | forget _ _ hforget => cases hforget

/-- The media queue works as a queue of one session along a run exactly when every lost
connection that is noticed finds the queue empty or full. -/
theorem mediaQueueLaw_iff {sbcSeid aacSeid sscSeid : Nat} {as : List Action} {s : Recorded}
    (h : Run next always (start sbcSeid aacSeid sscSeid) as s) :
  MediaQueueLaw (start sbcSeid aacSeid sscSeid) as
    ↔ Run next ForgetsAligned (start sbcSeid aacSeid sscSeid) as s
  := by
  rw [← passes_iff h (start_faithful sbcSeid aacSeid sscSeid) (fun _ hs => hs.queueLaw)
    (fun _ _ _ hs haligned hnext => hs.next haligned hnext)
    (fun _ _ _ hs haligned hnext => hs.not_queueLaw_of_forget haligned hnext)]
  constructor
  · intro hlaw
    apply hlaw.1
  · intro hlaw
    constructor
    · apply hlaw
    · rintro t a u ⟨_, _, _, _, hnext⟩
      apply rejectLaw_next hnext

/-- Two sessions: the first one loses its signaling connection with a packet in the
queue, and the second one sends a packet of its own. -/
def staleSession : List Action :=
  List.flatten [[.event 0 .hciWorking], sessionSetup 1 1,
    [.sendEnqueue [0x11] 0 1 .ssc, .sendTrigger, .event 1 .signalingConnectionReleased,
      .runCallback 0 none],
    sessionSetup 2 2,
    [.sendEnqueue [0x22] 0 1 .ssc, .sendTrigger, .runCallback 0 none,
      .event 2 (.canSendMediaPacketNow 672 0)]]

/-- The second session sends the packet of the first one. -/
theorem staleSession_history :
  (exec next (start 1 2 3) staleSession).map history
    = some ⟨[⟨[0x22], 1, 0, 1⟩], [⟨[0x11], 1, 0, 1⟩]⟩
  := by
  rfl

/-- A packet accepted in one session is sent in the next. -/
theorem not_mediaQueueLaw_stale :
  ¬ ∀ (sbcSeid aacSeid sscSeid : Nat) (as : List Action) (s : Recorded),
    Run next always (start sbcSeid aacSeid sscSeid) as s →
      MediaQueueLaw (start sbcSeid aacSeid sscSeid) as
  := by
  intro hall
  obtain ⟨s, hexec, hhistory⟩ := Option.map_eq_some_iff.mp staleSession_history
  have hrun := run_of_exec hexec
  have hlaw := (hall 1 2 3 staleSession s hrun).1 s ⟨staleSession, List.prefix_rfl, hrun⟩
  have hinitial := hlaw.prefix_accepted
  rw [hhistory] at hinitial
  contradiction

/-- A session that sends two packets, loses its connection with an empty queue, and is set up
again. -/
def sentSession : List Action :=
  List.flatten [[.event 0 .hciWorking], sessionSetup 1 1,
    [.sendEnqueue [0x11] 0 1 .ssc, .sendTrigger, .sendEnqueue [0x22] 480 1 .ssc, .sendTrigger,
      .runCallback 0 none, .event 1 (.canSendMediaPacketNow 672 0),
      .event 1 (.canSendMediaPacketNow 672 0), .event 1 .signalingConnectionReleased],
    sessionReconnect 2 2, [.sendEnqueue [0x33] 960 1 .ssc, .sendTrigger]]

/-- The law for that session. -/
theorem mediaQueueLaw_sentSession :
  MediaQueueLaw (start 1 2 3) sentSession
  := by
  have hsome : (exec (guarded next ForgetsAligned) (start 1 2 3) sentSession).isSome := by
    decide +kernel
  obtain ⟨s, hs⟩ := Option.isSome_iff_exists.mp hsome
  have hrun := run_of_exec_guarded hs
  apply (mediaQueueLaw_iff hrun.toAlways).mpr hrun

end Recorded

end Ssc
