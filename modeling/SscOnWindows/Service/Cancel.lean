import SscOnWindows.Service.Streaming
import SscOnWindows.Transport.Cancel

/-!
# The cancellation of a stop

`stop_streaming` cancels the waits of the transport, and the worker is to find the cancel event
set in each of its waits until the next start.  `connect_a2dp` and `reconnect` reset that event
on their way to their first wait; a stop that lands before the reset is lost.
-/

namespace Ssc

open Machine

namespace Transport

theorem abandon_cancelEvent (t : Transport) :
  t.abandon.cancelEvent = t.cancelEvent
  := by
  rw [abandon]
  split <;> rfl

/-- No step of a call in progress resets the cancel event. -/
theorem resetsCancel_of_inCall {t : Transport} {a : Action} (h : a.inCall = true) :
  t.resetsCancel a = false
  := by
  cases a with
  | connectA2dp | reconnect => contradiction
  | _ => rfl

end Transport

namespace Streaming

/-- Behind a stop that has cancelled the transport, a cancellable wait finds the cancel event
set. -/
def CancelLaw (s : Streaming) : Prop :=
  s.cancelled = true → ∀ t, s.transport = some t → ∀ c, t.call = some c → c.phase = .waiting →
    c.kind.cancellable = true → t.cancelEvent = true

/-- Behind such a stop no cancellable wait runs to its timeout. -/
def NoTimeout (s : Streaming) (a : StreamingAction) : Prop :=
  s.cancelled = true → a = .transport .waitTimeout → ∀ t, s.transport = some t →
    ∀ c, t.call = some c → c.kind.cancellable = false

/-- The step is a call that resets the cancel event. -/
def resets (s : Streaming) : StreamingAction → Bool
  | .call a => s.transport.any (fun t => t.resetsCancel a)
  | _ => false

/-- No call resets the cancel event behind a stop that has cancelled the transport. -/
def KeepsCancel (s : Streaming) (a : StreamingAction) : Prop :=
  s.cancelled = true → s.resets a = false

instance (s : Streaming) (a : StreamingAction) : Decidable (s.KeepsCancel a) :=
  inferInstanceAs (Decidable (_ → _))

/-- The transport that has been cancelled is there, with its cancel event set. -/
def CancelKept (s : Streaming) : Prop :=
  s.cancelled = true → ∃ t, s.transport = some t ∧ t.cancelEvent = true

theorem cancelKept_start :
  start.CancelKept
  := nofun

/-- A step that keeps the transport keeps the cancellation. -/
theorem CancelKept.of_transport {s s' : Streaming} (hs : s.CancelKept)
    (htransport : s'.transport = s.transport)
    (hcancelled : s'.cancelled = true → s.cancelled = true) :
  s'.CancelKept
  := by
  intro hset
  rw [htransport]
  apply hs (hcancelled hset)

/-- So does one that changes other fields of the transport. -/
theorem CancelKept.of_map {s s' : Streaming} (hs : s.CancelKept) {f : Transport → Transport}
    (hf : ∀ t, (f t).cancelEvent = t.cancelEvent) (htransport : s'.transport = s.transport.map f)
    (hcancelled : s'.cancelled = s.cancelled) :
  s'.CancelKept
  := by
  intro hset
  rw [hcancelled] at hset
  obtain ⟨t, ht, hcancel⟩ := hs hset
  use f t
  constructor
  · rw [htransport, ht, Option.map_some]
  · rw [hf t]
    apply hcancel

/-- So does a step of the transport that does not reset the event. -/
theorem CancelKept.after {s : Streaming} (hs : s.CancelKept) {a : Action} {t : Transport}
    {r : Transport × List Obs} (htransport : s.transport = some t) (hstep : t.step a = some r)
    (hresets : s.cancelled = true → t.resetsCancel a = false) :
  (s.after r).CancelKept
  := by
  intro hset
  rw [after_cancelled] at hset
  obtain ⟨t', ht', hcancel⟩ := hs hset
  rw [htransport] at ht'
  obtain rfl := Option.some.inj ht'
  use r.1
  constructor
  · apply after_transport
  · apply Transport.step_cancelEvent hstep (hresets hset) hcancel

/-- Every step keeps the cancellation when it does not reset the event. -/
theorem cancelKept_next {s s' : Streaming} {a : StreamingAction} (hs : s.CancelKept)
    (hC : s.KeepsCancel a) (h : s.next a = some s') :
  s'.CancelKept
  := by
  cases steps_next h with
  | startStreaming hservice =>
      apply hs.of_transport
      · rfl
      · intro hset
        apply (Bool.and_eq_true_iff.mp hset).1
  | stopStreaming | caller | stopClears | store | captureEnds =>
      apply hs.of_transport
      · rfl
      · apply id
  | stopCancels hstopping =>
      intro hset
      cases htransport : s.transport with
      | none =>
          rw [htransport] at hset
          obtain ⟨t, ht, -⟩ := hs (by simpa using hset)
          rw [htransport] at ht
          contradiction
      | some t => exact ⟨_, rfl, rfl⟩
  | createTransport htransport =>
      intro hset
      obtain ⟨t, ht, -⟩ := hs hset
      rw [htransport] at ht
      contradiction
  | call hworker hanswer hwants htransport hstep =>
      apply hs.after htransport hstep
      intro hset
      have hresets := hC hset
      rw [resets, htransport] at hresets
      apply hresets
  | transport hinCall htransport hstep =>
      apply hs.after htransport hstep
      intro _
      apply Transport.resetsCancel_of_inCall hinCall
  | release hworker hrelease hs' =>
      obtain ⟨-, htransport, hcancelled, -, -⟩ := release_eq hs'
      apply hs.of_transport htransport
      intro hset
      rw [← hcancelled]
      apply hset
  | @move ok w service hworker hstores hready hservice =>
      by_cases hpoint : w.point = .checkDisconnected
      · apply hs.of_map (f := fun t => { t with disconnectOccurred := false }) (fun _ => rfl)
        · rw [hpoint]
          rfl
        · rw [effect_cancelled]
      · apply hs.of_transport
        · apply effect_transport _ _ hpoint
        · intro hset
          rw [effect_cancelled] at hset
          apply hset
  | throw hworker hservice | crash hworker hservice =>
      apply hs.of_map Transport.abandon_cancelEvent
      · rfl
      · rfl
  | encode hthread hs' =>
      obtain ⟨_, _, -, rfl⟩ := nextEncode_eq hs'
      apply hs.of_transport
      · rfl
      · apply id

/-- A cancellation that is kept is found by the waits. -/
theorem CancelKept.cancelLaw {s : Streaming} (hs : s.CancelKept) :
  s.CancelLaw
  := by
  intro hset t htransport c hcall hphase hkind
  obtain ⟨t', ht', hcancel⟩ := hs hset
  rw [htransport] at ht'
  obtain rfl := Option.some.inj ht'
  apply hcancel

/-- A wait that finds the cancel event set does not run to its timeout. -/
theorem CancelKept.noTimeout {s s' : Streaming} {a : StreamingAction} (hs : s.CancelKept)
    (h : s.next a = some s') :
  s.NoTimeout a
  := by
  rintro hset rfl t htransport c hcall
  obtain ⟨t', ht', hcancel⟩ := hs hset
  rw [htransport] at ht'
  obtain rfl := Option.some.inj ht'
  cases steps_next h with
  | transport hinCall ht hstep =>
      rw [htransport] at ht
      obtain rfl := Option.some.inj ht
      cases Transport.step_inv hstep with
      | waitTimeout hwaiting hunset =>
          obtain rfl := Option.some.inj (hwaiting.symm.trans hcall)
          obtain ⟨-, hcancelled⟩ := hunset
          rw [Transport.cancelled_eq, hcancel, Bool.and_true] at hcancelled
          apply hcancelled

/-- In every run in which no call resets the cancel event behind a stop, the waits behind a stop
find it set, and none of them runs to its timeout. -/
theorem cancelLaw_of_keepsCancel {as : List StreamingAction} {s : Streaming}
    (h : Run next KeepsCancel start as s) :
  (∀ t, Passes next start as t → t.CancelLaw)
    ∧ ∀ t a u, Takes next start as t a u → t.NoTimeout a
  := by
  have hkept {bs : List StreamingAction} {t : Streaming}
      (hrun : Run next KeepsCancel start bs t) : t.CancelKept := by
    apply hrun.invariant cancelKept_start
    intro s a t hs hC hstep
    apply cancelKept_next hs hC hstep
  constructor
  · intro t hpasses
    obtain ⟨bs, hbs⟩ := h.of_passes hpasses
    apply (hkept hbs).cancelLaw
  · intro t a u htakes
    obtain ⟨⟨bs, hbs⟩, -, hstep⟩ := h.of_takes htakes
    apply (hkept hbs).noTimeout hstep

/-- A stop during the wait for the connection, which ends, and so does the worker. -/
def stopInConnect : List StreamingAction :=
  List.flatten [beforeConnect, connectWait, stop, [.transport .waitCancelled, .transport .resume],
    List.replicate 5 (.worker (.proceed false))]

theorem cancelLaw_stopInConnect :
  ∃ s, exec next start stopInConnect = some s
    ∧ (∀ t, Passes next start stopInConnect t → t.CancelLaw)
    ∧ ∀ t a u, Takes next start stopInConnect t a u → t.NoTimeout a
  := by
  have hsome : (exec (guarded next KeepsCancel) start stopInConnect).isSome := by
    decide +kernel
  obtain ⟨s, hs⟩ := Option.isSome_iff_exists.mp hsome
  have hrun := run_of_exec_guarded hs
  use s, hrun.exec_eq
  apply cancelLaw_of_keepsCancel hrun

/-- A stop just before `connect_a2dp` resets the cancel event. -/
def stopBeforeConnect : List StreamingAction :=
  List.flatten [beforeConnect, stop, connectWait]

theorem stopBeforeConnect_waits :
  (exec next start stopBeforeConnect).map (fun s => (s.cancelled, s.service.stopRequested,
      s.transport.map fun t => (t.call, t.cancelEvent)))
    = some (true, true,
        some (some ⟨.connectA2dp, .establishStream, 0, .waiting⟩, false))
  := by
  decide +kernel

/-- The worker waits for a connection behind a stop, and the cancel event is not set. -/
theorem not_cancelLaw_stopBeforeConnect :
  ¬ ∀ (as : List StreamingAction) (s : Streaming), Run next always start as s →
    (∀ t, Passes next start as t → t.CancelLaw)
      ∧ ∀ t a u, Takes next start as t a u → t.NoTimeout a
  := by
  intro hall
  obtain ⟨s, hs, hwaits⟩ := Option.map_eq_some_iff.mp stopBeforeConnect_waits
  have hrun := run_of_exec hs
  obtain ⟨hset, -, htransport⟩ : s.cancelled = true ∧ s.service.stopRequested = true
      ∧ s.transport.map (fun t => (t.call, t.cancelEvent))
        = some (some ⟨.connectA2dp, .establishStream, 0, .waiting⟩, false) := by
    simpa using hwaits
  obtain ⟨t, ht, hcall⟩ := Option.map_eq_some_iff.mp htransport
  obtain ⟨hcall, hcancel⟩ := Prod.mk.inj hcall
  have hlaw := (hall _ s hrun).1 s ⟨stopBeforeConnect, List.prefix_rfl, hrun⟩
  rw [hlaw hset t ht _ hcall rfl rfl] at hcancel
  contradiction

end Streaming

end Ssc
