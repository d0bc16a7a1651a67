import SscOnWindows.Service.Worker

/-!
# Starting and stopping the stream

`start_streaming` and `stop_streaming`, called one after the other from one thread, beside
the worker they share `running_`, `stop_requested_` and `state_` with.  The calls and the
worker take their loads and stores one at a time, in any order.

A call of `stop_streaming` waits for `running_` to fall at most a hundred times, and returns
while the worker is still there when it does not.  What `start_streaming` needs to know of
the worker it finds `running_` false for is `JoinsLeaving` and `KeepsFlag`.
-/

namespace Ssc

open Machine

/-- Where the caller is: outside, before a store of `start_streaming` or its join, or in the
wait of `stop_streaming` or before one of its stores. -/
inductive Caller where
  | outside
  | startReset
  | startRunning
  | startNotify
  | startJoin
  | startSpawn
  | stopWait (wait : Nat)
  | stopClear
  | stopNotify
  deriving DecidableEq

/-- What the caller and the worker share, with the two of them. -/
structure A2dpService where
  running : Bool := false
  stopRequested : Bool := false
  state : ServiceState := .idle
  caller : Caller := .outside
  worker : Option Worker := none

/-- The steps: a call, the next step of the call, a step of the worker. -/
inductive ServiceAction where
  | startStreaming
  | stopStreaming
  | caller
  | worker (a : WorkerAction)
  deriving DecidableEq

namespace A2dpService

/-- The effect of a store of the worker. -/
def store (s : A2dpService) : WorkerStore → A2dpService
  | .notifyState state => { s with state := state }
  | .clearRunning => { s with running := false }

/-- The store a step of the worker makes: the one it is before, when it proceeds. -/
def workerStore (w : Worker) : WorkerAction → Option WorkerStore
  | .proceed _ => w.stores.head?
  | _ => none

/-- The next step of the call the caller is in. -/
def nextCaller (s : A2dpService) : Option A2dpService :=
  match s.caller with
  | .outside => none
  | .startReset => some { s with stopRequested := false, caller := .startRunning }
  | .startRunning => some { s with running := true, caller := .startNotify }
  | .startNotify => some { s with state := .connecting, caller := .startJoin }
  | .startJoin =>
      match s.worker with
      | none => some { s with caller := .startSpawn }
      | some w =>
          if w.point = .ended then some { s with worker := none, caller := .startSpawn }
          else none
  | .startSpawn => some { s with worker := some {}, caller := .outside }
  | .stopWait wait =>
      if s.running = true ∧ wait < 100 then some { s with caller := .stopWait (wait + 1) }
      else some { s with caller := .stopClear }
  | .stopClear => some { s with running := false, caller := .stopNotify }
  | .stopNotify => some { s with state := .idle, caller := .outside }

/-- One step of the service. -/
def next (s : A2dpService) : ServiceAction → Option A2dpService
  | .startStreaming =>
      if s.caller = .outside then
        if s.running then some s else some { s with caller := .startReset }
      else none
  | .stopStreaming =>
      if s.caller = .outside then
        some { s with
          stopRequested := true
          caller := .stopWait 0
          worker := s.worker.map fun w => { w with stopped := true } }
      else none
  | .caller => s.nextCaller
  | .worker a =>
      match s.worker with
      | none => none
      | some w =>
          (w.next s.stopRequested a).map fun w' =>
            { (workerStore w a).elim s s.store with worker := some w' }

/-- The service as it is built. -/
def start : A2dpService := {}

/-! ### The steps -/

/-- A step of the worker leaves the caller and `stop_requested_` alone. -/
@[simp]
theorem store_caller (s : A2dpService) (o : Option WorkerStore) :
  (o.elim s s.store).caller = s.caller
  := by
  rcases o with _ | _ | _
  all_goals rfl

@[simp]
theorem store_stopRequested (s : A2dpService) (o : Option WorkerStore) :
  (o.elim s s.store).stopRequested = s.stopRequested
  := by
  rcases o with _ | _ | _
  all_goals rfl

/-- What each step does, and from where it is taken. -/
inductive Steps (s : A2dpService) : ServiceAction → A2dpService → Prop
  | startRefused (hcaller : s.caller = .outside) (hrunning : s.running = true) :
      Steps s .startStreaming s
  | startStreaming (hcaller : s.caller = .outside) (hrunning : s.running = false) :
      Steps s .startStreaming { s with caller := .startReset }
  | startReset (hcaller : s.caller = .startReset) :
      Steps s .caller { s with stopRequested := false, caller := .startRunning }
  | startRunning (hcaller : s.caller = .startRunning) :
      Steps s .caller { s with running := true, caller := .startNotify }
  | startNotify (hcaller : s.caller = .startNotify) :
      Steps s .caller { s with state := .connecting, caller := .startJoin }
  | startJoin (hcaller : s.caller = .startJoin)
      (hended : ∀ w, s.worker = some w → w.point = .ended) :
      Steps s .caller { s with worker := none, caller := .startSpawn }
  | startSpawn (hcaller : s.caller = .startSpawn) :
      Steps s .caller { s with worker := some {}, caller := .outside }
  | stopStreaming (hcaller : s.caller = .outside) :
      Steps s .stopStreaming { s with
        stopRequested := true
        caller := .stopWait 0
        worker := s.worker.map fun w => { w with stopped := true } }
  | stopWait {wait wait' : Nat} (hcaller : s.caller = .stopWait wait) :
      Steps s .caller { s with caller := .stopWait wait' }
  | stopWaited {wait : Nat} (hcaller : s.caller = .stopWait wait) :
      Steps s .caller { s with caller := .stopClear }
  | stopClear (hcaller : s.caller = .stopClear) :
      Steps s .caller { s with running := false, caller := .stopNotify }
  | stopNotify (hcaller : s.caller = .stopNotify) :
      Steps s .caller { s with state := .idle, caller := .outside }
  | worker {a : WorkerAction} {w w' : Worker} (hworker : s.worker = some w)
      (hnext : w.next s.stopRequested a = some w') :
      Steps s (.worker a) { (workerStore w a).elim s s.store with worker := some w' }

/-- Every step of the caller is one of these. -/
theorem steps_nextCaller {s s' : A2dpService} (h : s.nextCaller = some s') :
  s.Steps .caller s'
  := by
  rw [nextCaller] at h
  cases hcaller : s.caller with
  | outside =>
      rw [hcaller] at h
      contradiction
  | startReset =>
      rw [hcaller] at h
      obtain rfl := Option.some.inj h
      apply Steps.startReset hcaller
  | startRunning =>
      rw [hcaller] at h
      obtain rfl := Option.some.inj h
      apply Steps.startRunning hcaller
  | startNotify =>
      rw [hcaller] at h
      obtain rfl := Option.some.inj h
      apply Steps.startNotify hcaller
  | startJoin =>
      rw [hcaller] at h
      cases hworker : s.worker with
      | none =>
          rw [hworker] at h
          obtain rfl := Option.some.inj h
          apply Steps.startJoin hcaller
          simp [hworker]
      | some w =>
          rw [hworker] at h
          obtain ⟨hended, h⟩ := Option.ite_none_right_eq_some.mp h
          obtain rfl := Option.some.inj h
          apply Steps.startJoin hcaller
          rintro v hv
          rw [hworker] at hv
          rw [← Option.some.inj hv, hended]
  | startSpawn =>
      rw [hcaller] at h
      obtain rfl := Option.some.inj h
      apply Steps.startSpawn hcaller
  | stopWait wait =>
      rw [hcaller] at h
      dsimp only at h
      split at h
      · obtain rfl := Option.some.inj h
        apply Steps.stopWait hcaller
      · obtain rfl := Option.some.inj h
        apply Steps.stopWaited hcaller
  | stopClear =>
      rw [hcaller] at h
      obtain rfl := Option.some.inj h
      apply Steps.stopClear hcaller
  | stopNotify =>
      rw [hcaller] at h
      obtain rfl := Option.some.inj h
      apply Steps.stopNotify hcaller

/-- Every step is one of these. -/
theorem steps_next {s s' : A2dpService} {a : ServiceAction} (h : s.next a = some s') :
  s.Steps a s'
  := by
  cases a with
  | startStreaming =>
      obtain ⟨hcaller, h⟩ := Option.ite_none_right_eq_some.mp h
      split at h
      next hrunning =>
        obtain rfl := Option.some.inj h
        apply Steps.startRefused hcaller hrunning
      next hrunning =>
        obtain rfl := Option.some.inj h
        apply Steps.startStreaming hcaller (Bool.eq_false_iff.mpr hrunning)
  | stopStreaming =>
      obtain ⟨hcaller, h⟩ := Option.ite_none_right_eq_some.mp h
      obtain rfl := Option.some.inj h
      apply Steps.stopStreaming hcaller
  | caller => apply steps_nextCaller h
  | worker a =>
      cases hworker : s.worker with
      | none =>
          simp only [next, hworker] at h
          contradiction
      | some w =>
          simp only [next, hworker] at h
          obtain ⟨w', hnext, rfl⟩ := Option.map_eq_some_iff.mp h
          apply Steps.worker hworker hnext

/-! ### The stop request -/

/-- A worker that has been asked to stop finds `stop_requested_` set when it loads it. -/
def ObservesStop (s : A2dpService) (a : ServiceAction) : Prop :=
  ∀ ok w, a = .worker (.proceed ok) → s.worker = some w → w.stopped = true → w.stores = [] →
    w.point.loads = true → s.stopRequested = true

/-- A worker that has been asked to stop is going to end, and so is the one that
`start_streaming` joins. -/
def EndsStopped (s : A2dpService) : Prop :=
  ∀ w, s.worker = some w → (w.stopped = true ∨ s.caller = .startJoin) →
    w.Finishing s.stopRequested

/-- When `start_streaming` resets `stop_requested_`, a worker that is still there has loaded
it for the last time, or is in its cleanup without having been asked to stop. -/
def JoinsLeaving (s : A2dpService) (a : ServiceAction) : Prop :=
  a = .caller → s.caller = .startReset → ∀ w ∈ s.worker,
    w.point.pastLoads = true ∨ (w.stopped = false ∧ w.point.leaving = true)

instance (s : A2dpService) (a : ServiceAction) : Decidable (s.JoinsLeaving a) :=
  inferInstanceAs (Decidable (_ → _ → _))

/-- The request of a stopped worker stands until its last load of it, and the worker is
leaving from the reset to the join. -/
structure StopKept (s : A2dpService) : Prop where
  requested : ∀ w, s.worker = some w → w.stopped = true →
    s.stopRequested = true ∨ w.point.pastLoads = true
  leaving : s.caller = .startRunning ∨ s.caller = .startNotify ∨ s.caller = .startJoin →
    ∀ w, s.worker = some w → w.point.leaving = true

end A2dpService

theorem WorkerPoint.leaving_of_pastLoads {p : WorkerPoint} (h : p.pastLoads = true) :
  p.leaving = true
  := by
  cases p with
  | returning | ended => rfl
  | _ => contradiction

theorem WorkerPoint.pastLoads_of_loads {p : WorkerPoint} (h : p.loads = true) :
  p.pastLoads = false
  := by
  cases p with
  | returning | ended => contradiction
  | _ => rfl

namespace A2dpService

theorem stopKept_start : start.StopKept where
  requested w hworker := by contradiction
  leaving hcaller w hworker := by contradiction

/-- A step of the worker keeps the request. -/
theorem stopKept_worker
    {s : A2dpService} {a : WorkerAction} {w w' : Worker} (hs : s.StopKept)
    (hworker : s.worker = some w) (hnext : w.next s.stopRequested a = some w') :
  StopKept { (workerStore w a).elim s s.store with worker := some w' }
  := by
  constructor
  · rintro v ⟨⟩ hstopped
    rw [Worker.next_stopped hnext] at hstopped
    rw [store_stopRequested]
    apply (hs.requested w hworker hstopped).imp_right
    intro hpast
    apply Worker.pastLoads_next hpast hnext
  · rintro hcaller v ⟨⟩
    rw [store_caller] at hcaller
    apply Worker.leaving_next (hs.leaving hcaller w hworker) hnext

/-- Every step keeps the request when `start_streaming` resets it for a leaving worker
only. -/
theorem stopKept_next
    {s s' : A2dpService} {a : ServiceAction} (hs : s.StopKept) (hC : s.JoinsLeaving a)
    (h : s.next a = some s') :
  s'.StopKept
  := by
  cases steps_next h with
  | startRefused hcaller hrunning => apply hs
  | startStreaming hcaller hrunning =>
      exact ⟨hs.requested, by simp⟩
  | startReset hcaller =>
      constructor
      · intro w hworker hstopped
        right
        apply (hC rfl hcaller w hworker).resolve_right
        rintro ⟨hnot, -⟩
        rw [hstopped] at hnot
        contradiction
      · intro _ w hworker
        obtain hpast | ⟨-, hleaving⟩ := hC rfl hcaller w hworker
        · apply WorkerPoint.leaving_of_pastLoads hpast
        · apply hleaving
  | startRunning hcaller =>
      exact ⟨hs.requested, fun _ => hs.leaving (Or.inl hcaller)⟩
  | startNotify hcaller =>
      exact ⟨hs.requested, fun _ => hs.leaving (Or.inr (Or.inl hcaller))⟩
  | startJoin hcaller hended => exact ⟨by simp, by simp⟩
  | startSpawn hcaller => exact ⟨by simp, by simp⟩
  | stopStreaming hcaller => exact ⟨by simp, by simp⟩
  | stopWait hcaller => exact ⟨hs.requested, by simp⟩
  | stopWaited hcaller => exact ⟨hs.requested, by simp⟩
  | stopClear hcaller => exact ⟨hs.requested, by simp⟩
  | stopNotify hcaller => exact ⟨hs.requested, by simp⟩
  | worker hworker hnext => apply stopKept_worker hs hworker hnext

/-- A request that is kept is observed. -/
theorem StopKept.observesStop {s : A2dpService} (hs : s.StopKept) (a : ServiceAction) :
  s.ObservesStop a
  := by
  intro ok w _ hworker hstopped _ hloads
  apply (hs.requested w hworker hstopped).resolve_right
  rw [WorkerPoint.pastLoads_of_loads hloads]
  apply Bool.false_ne_true

/-- A worker whose request is kept is going to end. -/
theorem StopKept.endsStopped {s : A2dpService} (hs : s.StopKept) :
  s.EndsStopped
  := by
  rintro w hworker (hstopped | hcaller)
  · obtain hrequested | hpast := hs.requested w hworker hstopped
    · rw [hrequested]
      apply Worker.finishing_of_stopRequested
    · apply Worker.finishing_of_leaving
      apply WorkerPoint.leaving_of_pastLoads hpast
  · apply Worker.finishing_of_leaving
    apply hs.leaving (Or.inr (Or.inr hcaller)) w hworker

/-- In every run in which `start_streaming` resets `stop_requested_` for a leaving worker
only, every worker that has been asked to stop observes it at each of its loads, and the
workers asked to stop, as those that are joined, are going to end. -/
theorem stopLaw_of_joinsLeaving
    {as : List ServiceAction} {s : A2dpService} (h : Run next JoinsLeaving start as s) :
  (∀ t a u, Takes next start as t a u → t.ObservesStop a)
    ∧ (∀ t, Passes next start as t → t.EndsStopped)
  := by
  have hkept {bs : List ServiceAction} {t : A2dpService}
      (hrun : Run next JoinsLeaving start bs t) : t.StopKept := by
    apply hrun.invariant stopKept_start
    intro s a t hs hC hstep
    apply stopKept_next hs hC hstep
  constructor
  · intro t a u htakes
    obtain ⟨⟨bs, hbs⟩, -, -⟩ := h.of_takes htakes
    apply (hkept hbs).observesStop
  · intro t hpasses
    obtain ⟨bs, hbs⟩ := h.of_passes hpasses
    apply (hkept hbs).endsStopped

/-- A stream that is started and comes as far as its connection. -/
def connecting : List ServiceAction :=
  List.flatten [[.startStreaming], List.replicate 5 .caller,
    List.replicate 5 (.worker (.proceed true))]

/-- A stop that gives up on a worker waiting for its connection, and a start behind it; then
the connection is made. -/
def slowConnect : List ServiceAction :=
  List.flatten [connecting, [.stopStreaming], List.replicate 103 .caller,
    [.startStreaming, .caller, .worker (.proceed true)]]

/-- A stop the worker answers at once, and a start that joins the worker. -/
def answeredStop : List ServiceAction :=
  List.flatten [connecting,
    [.stopStreaming, .caller, .worker (.proceed false), .worker (.proceed true),
      .worker (.proceed true), .caller, .caller, .caller, .startStreaming, .caller,
      .worker (.proceed true), .caller, .worker (.proceed true)],
    List.replicate 3 .caller]

theorem stopLaw_answered :
  (∀ t a u, Takes next start answeredStop t a u → t.ObservesStop a)
    ∧ (∀ t, Passes next start answeredStop t → t.EndsStopped)
  := by
  have hsome : (exec (guarded next JoinsLeaving) start answeredStop).isSome := by
    decide +kernel
  obtain ⟨s, hs⟩ := Option.isSome_iff_exists.mp hsome
  apply stopLaw_of_joinsLeaving (run_of_exec_guarded hs)

theorem slowConnect_point :
  (exec next start slowConnect).map (fun s => (s.worker.map fun w =>
      (w.stores, w.point, w.stopped), s.stopRequested))
    = some (some ([], .afterConnect, true), false)
  := by
  decide +kernel

/-- The stopped worker does not observe the request behind its connection. -/
theorem not_stopLaw_slowConnect :
  ¬ ∀ (as : List ServiceAction) (s : A2dpService), Run next always start as s →
    (∀ t a u, Takes next start as t a u → t.ObservesStop a)
      ∧ (∀ t, Passes next start as t → t.EndsStopped)
  := by
  intro hall
  obtain ⟨t, ht, hpoint⟩ := Option.map_eq_some_iff.mp slowConnect_point
  obtain ⟨hworker, hrequested⟩ := Prod.mk.inj hpoint
  obtain ⟨w, hworker, hw⟩ := Option.map_eq_some_iff.mp hworker
  obtain ⟨hstores, hpoint, hstopped⟩ : w.stores = [] ∧ w.point = .afterConnect
      ∧ w.stopped = true := by
    simpa using hw
  obtain ⟨w', hnext⟩ := w.next_proceed t.stopRequested (by rw [hpoint]; exact nofun)
  have hstep : t.next (.worker (.proceed true))
      = some { (workerStore w (.proceed true)).elim t t.store with worker := some w' } := by
    simp only [next, hworker, hnext, Option.map_some]
  have hlaw := (hall _ _ ((run_of_exec ht).snoc trivial hstep)).1 t _ _
    ⟨slowConnect, [], rfl, run_of_exec ht, hstep⟩
  have hobserved := hlaw true w rfl hworker hstopped hstores (by rw [hpoint]; rfl)
  rw [hrequested] at hobserved
  contradiction

/-! ### The flag of the service -/

/-- A worker is there that is not past its own `running_.store(false)`. -/
def alive (s : A2dpService) : Bool :=
  s.worker.any fun w => !w.cleared

/-- `running_` is set while a worker is alive, and `Idle` is reported for none. -/
def FlagLaw (s : A2dpService) : Prop :=
  (s.alive = true → s.running = true) ∧ (s.state = .idle → s.alive = false)

/-- The store the worker is before. -/
def pending (s : A2dpService) : Option WorkerStore :=
  s.worker.bind fun w => w.stores.head?

end A2dpService

/-- `start_streaming` has set `running_` and not spawned its worker. -/
def Caller.starting : Caller → Bool
  | startNotify | startJoin | startSpawn => true
  | _ => false

/-- `start_streaming` has reported `Connecting` and not spawned its worker. -/
def Caller.joining : Caller → Bool
  | startJoin | startSpawn => true
  | _ => false

/-- The caller is where a worker may be alive. -/
def Caller.besideWorker : Caller → Bool
  | outside | stopWait _ | stopClear => true
  | _ => false

namespace A2dpService

/-- `stop_streaming` does not give up on a worker that is alive, no worker stores over what
`start_streaming` has stored for its successor, and none crashes behind its own
`running_.store(false)`. -/
def KeepsFlag (s : A2dpService) : ServiceAction → Prop
  | .caller => s.caller = .stopClear → s.alive = false
  | .worker (.proceed _) =>
      (s.pending = some .clearRunning → s.caller.starting = false)
        ∧ (s.pending = some (.notifyState .idle) → s.caller.joining = false)
  | .worker .crash => s.alive = true
  | _ => True

instance (s : A2dpService) : (a : ServiceAction) → Decidable (s.KeepsFlag a)
  | .caller => inferInstanceAs (Decidable (_ → _))
  | .worker (.proceed _) => inferInstanceAs (Decidable (_ ∧ _))
  | .worker .crash => inferInstanceAs (Decidable (_ = _))
  | .worker .throw => inferInstanceAs (Decidable True)
  | .startStreaming => inferInstanceAs (Decidable True)
  | .stopStreaming => inferInstanceAs (Decidable True)

/-- What the flag and the state are beside a worker that is alive, and what they are on the
way from one worker to the next. -/
structure FlagKept (s : A2dpService) : Prop where
  orderly : ∀ w, s.worker = some w → w.Orderly
  alive : ∀ w, s.worker = some w → w.cleared = false →
    s.running = true ∧ s.state ≠ .idle ∧ s.caller.besideWorker = true
  starting : s.caller.starting = true → s.running = true
  joining : s.caller.joining = true → s.state ≠ .idle

theorem alive_iff {s : A2dpService} :
  s.alive = true ↔ ∃ w, s.worker = some w ∧ w.cleared = false
  := by
  simp [alive, Option.any_eq_true]

/-- The invariant is the law, and more. -/
theorem FlagKept.flagLaw {s : A2dpService} (hs : s.FlagKept) :
  s.FlagLaw
  := by
  constructor
  · intro halive
    obtain ⟨w, hworker, hcleared⟩ := alive_iff.mp halive
    apply (hs.alive w hworker hcleared).1
  · intro hidle
    by_contra halive
    rw [Bool.not_eq_false] at halive
    obtain ⟨w, hworker, hcleared⟩ := alive_iff.mp halive
    apply (hs.alive w hworker hcleared).2.1 hidle

theorem flagKept_start : start.FlagKept where
  orderly w hworker := by contradiction
  alive w hworker := by contradiction
  starting hcaller := by contradiction
  joining hcaller := by contradiction

/-- Beside a worker that is past its own `running_.store(false)` nothing is asked of the
flag but on the way to the next worker. -/
theorem flagKept_of_cleared
    {s : A2dpService} (horderly : ∀ w, s.worker = some w → w.Orderly)
    (hcleared : ∀ w, s.worker = some w → w.cleared = true)
    (hstarting : s.caller.starting = true → s.running = true)
    (hjoining : s.caller.joining = true → s.state ≠ .idle) :
  s.FlagKept
  := by
  constructor
  · apply horderly
  · intro w hworker hnot
    rw [hcleared w hworker] at hnot
    contradiction
  · apply hstarting
  · apply hjoining

/-- A step at which the worker stores nothing. -/
theorem flagKept_silent
    {s : A2dpService} {w w' : Worker} (hs : s.FlagKept) (hworker : s.worker = some w)
    (horderly : w'.Orderly) (hcleared : w'.cleared = false → w.cleared = false) :
  FlagKept { s with worker := some w' }
  := by
  constructor
  · rintro v ⟨⟩
    apply horderly
  · rintro v ⟨⟩ hnot
    apply hs.alive w hworker (hcleared hnot)
  · apply hs.starting
  · apply hs.joining

/-- A step at which the worker reports a state. -/
theorem flagKept_notifyState
    {s : A2dpService} {state : ServiceState} {w w' : Worker} (hs : s.FlagKept)
    (hworker : s.worker = some w) (horderly : w'.Orderly)
    (hcleared : w'.cleared = false → w.cleared = false ∧ state ≠ .idle)
    (hjoining : state = .idle → s.caller.joining = false) :
  FlagKept { s with state := state, worker := some w' }
  := by
  constructor
  · rintro v ⟨⟩
    apply horderly
  · rintro v ⟨⟩ hnot
    obtain ⟨hnot, hidle⟩ := hcleared hnot
    obtain ⟨hrunning, -, hcaller⟩ := hs.alive w hworker hnot
    exact ⟨hrunning, hidle, hcaller⟩
  · apply hs.starting
  · intro hcaller hidle
    rw [hjoining hidle] at hcaller
    contradiction

/-- The step at which the worker clears `running_`. -/
theorem flagKept_clearRunning
    {s : A2dpService} {w' : Worker} (hs : s.FlagKept) (horderly : w'.Orderly)
    (hcleared : w'.cleared = true) (hstarting : s.caller.starting = false) :
  FlagKept { s with running := false, worker := some w' }
  := by
  apply flagKept_of_cleared
  · rintro v ⟨⟩
    apply horderly
  · rintro v ⟨⟩
    apply hcleared
  · intro hcaller
    rw [hstarting] at hcaller
    contradiction
  · apply hs.joining

/-- A step of the worker keeps the flag. -/
theorem flagKept_worker
    {s : A2dpService} {a : WorkerAction} {w w' : Worker} (hs : s.FlagKept)
    (hC : s.KeepsFlag (.worker a)) (hworker : s.worker = some w)
    (hnext : w.next s.stopRequested a = some w') :
  FlagKept { (workerStore w a).elim s s.store with worker := some w' }
  := by
  have horderly := Worker.orderly_next (hs.orderly w hworker) hnext
  rcases Worker.next_cases hnext with ⟨ok, store, rest, rfl, hstores, rfl⟩
      | ⟨ok, rfl, hstores, hended, rfl⟩ | ⟨rfl, hloop, rfl⟩ | ⟨rfl, hcrashed, hended, rfl⟩
  · have hpending : s.pending = some store := by
      rw [pending, hworker, Option.bind_some, hstores, List.head?_cons]
    rw [workerStore, hstores]
    cases store with
    | clearRunning =>
        apply flagKept_clearRunning hs horderly
        · simp
        · apply hC.1 hpending
    | notifyState state =>
        apply flagKept_notifyState hs hworker horderly
        · intro hcleared
          obtain ⟨hcleared, -⟩ := Bool.or_eq_false_iff.mp hcleared
          obtain ⟨hquiet, -⟩ := hs.orderly w hworker hcleared
          rw [hstores, Worker.quiet, Bool.and_eq_true] at hquiet
          exact ⟨hcleared, of_decide_eq_true hquiet.1⟩
        · rintro rfl
          apply hC.2 hpending
  · rw [workerStore, hstores]
    apply flagKept_silent hs hworker horderly id
  · apply flagKept_silent hs hworker horderly id
  · apply flagKept_silent hs hworker horderly
    intro _
    obtain ⟨v, hv, hcleared⟩ := alive_iff.mp hC
    rw [hworker] at hv
    obtain rfl := Option.some.inj hv
    apply hcleared

/-- A worker beside a caller that starts, or has given up, is past its own
`running_.store(false)`. -/
theorem FlagKept.cleared
    {s : A2dpService} (hs : s.FlagKept) (hcaller : s.caller.besideWorker = false) :
  ∀ w, s.worker = some w → w.cleared = true
  := by
  intro w hworker
  by_contra hcleared
  rw [Bool.not_eq_true] at hcleared
  obtain ⟨-, -, hbeside⟩ := hs.alive w hworker hcleared
  rw [hcaller] at hbeside
  contradiction

/-- Every step that `KeepsFlag` allows keeps the flag. -/
theorem flagKept_next
    {s s' : A2dpService} {a : ServiceAction} (hs : s.FlagKept) (hC : s.KeepsFlag a)
    (h : s.next a = some s') :
  s'.FlagKept
  := by
  cases steps_next h with
  | startRefused hcaller hrunning => apply hs
  | startStreaming hcaller hrunning =>
      constructor
      · apply hs.orderly
      · intro w hworker hcleared
        obtain ⟨hset, -, -⟩ := hs.alive w hworker hcleared
        rw [hrunning] at hset
        contradiction
      · exact nofun
      · exact nofun
  | startReset hcaller =>
      apply flagKept_of_cleared
      · apply hs.orderly
      · apply hs.cleared
        rw [hcaller]
        rfl
      · exact nofun
      · exact nofun
  | startRunning hcaller =>
      apply flagKept_of_cleared
      · apply hs.orderly
      · apply hs.cleared
        rw [hcaller]
        rfl
      · intro _
        rfl
      · exact nofun
  | startNotify hcaller =>
      apply flagKept_of_cleared
      · apply hs.orderly
      · apply hs.cleared
        rw [hcaller]
        rfl
      · intro _
        apply hs.starting
        rw [hcaller]
        rfl
      · exact nofun
  | startJoin hcaller hended =>
      constructor
      · exact nofun
      · exact nofun
      · intro _
        apply hs.starting
        rw [hcaller]
        rfl
      · intro _
        apply hs.joining
        rw [hcaller]
        rfl
  | startSpawn hcaller =>
      constructor
      · rintro w ⟨⟩ _
        exact ⟨rfl, nofun⟩
      · rintro w ⟨⟩ _
        refine ⟨hs.starting ?_, hs.joining ?_, rfl⟩
        · rw [hcaller]
          rfl
        · rw [hcaller]
          rfl
      · exact nofun
      · exact nofun
  | stopStreaming hcaller =>
      constructor
      · intro w hworker
        obtain ⟨v, hv, rfl⟩ := Option.map_eq_some_iff.mp hworker
        apply hs.orderly v hv
      · intro w hworker hcleared
        obtain ⟨v, hv, rfl⟩ := Option.map_eq_some_iff.mp hworker
        obtain ⟨hrunning, hidle, -⟩ := hs.alive v hv hcleared
        exact ⟨hrunning, hidle, rfl⟩
      · exact nofun
      · exact nofun
  | stopWait hcaller | stopWaited hcaller =>
      constructor
      · apply hs.orderly
      · intro w hworker hcleared
        obtain ⟨hrunning, hidle, -⟩ := hs.alive w hworker hcleared
        exact ⟨hrunning, hidle, rfl⟩
      · exact nofun
      · exact nofun
  | stopClear hcaller =>
      constructor
      · apply hs.orderly
      · intro w hworker hcleared
        have halive : s.alive = true := alive_iff.mpr ⟨w, hworker, hcleared⟩
        rw [hC hcaller] at halive
        contradiction
      · exact nofun
      · exact nofun
  | stopNotify hcaller =>
      apply flagKept_of_cleared
      · apply hs.orderly
      · apply hs.cleared
        rw [hcaller]
        rfl
      · exact nofun
      · exact nofun
  | worker hworker hnext => apply flagKept_worker hs hC hworker hnext

/-- In every run in which `stop_streaming` does not give up on a worker that is alive, no
worker stores over what `start_streaming` has stored for the next one and none crashes
behind its own `running_.store(false)`, the flag and the state are those of the worker in
every state. -/
theorem flagLaw_of_keepsFlag
    {as : List ServiceAction} {s : A2dpService} (h : Run next KeepsFlag start as s) :
  ∀ t, Passes next start as t → t.FlagLaw
  := by
  intro t hpasses
  obtain ⟨bs, hbs⟩ := h.of_passes hpasses
  apply FlagKept.flagLaw
  apply hbs.invariant flagKept_start
  intro s a t hs hC hstep
  apply flagKept_next hs hC hstep

/-- The stop that the worker answers at once, and the start behind it. -/
theorem flagLaw_answered :
  ∃ s, exec next start answeredStop = some s ∧ ∀ t, Passes next start answeredStop t → t.FlagLaw
  := by
  have hsome : (exec (guarded next KeepsFlag) start answeredStop).isSome := by
    decide +kernel
  obtain ⟨s, hs⟩ := Option.isSome_iff_exists.mp hsome
  have hrun := run_of_exec_guarded hs
  use s, hrun.exec_eq
  apply flagLaw_of_keepsFlag hrun

/-- A stop that gives up on a worker waiting for its connection. -/
def timedOutStop : List ServiceAction :=
  List.flatten [connecting, [.stopStreaming], List.replicate 103 .caller]

theorem timedOutStop_state :
  (exec next start timedOutStop).map (fun s => (s.alive, s.running, s.state))
    = some (true, false, .idle)
  := by
  decide +kernel

/-- Behind a stop that gives up the worker is alive, and the service says that it is
`Idle`. -/
theorem not_flagLaw_timedOut :
  ¬ ∀ (as : List ServiceAction) (s : A2dpService), Run next always start as s →
    ∀ t, Passes next start as t → t.FlagLaw
  := by
  intro hall
  obtain ⟨t, ht, hstate⟩ := Option.map_eq_some_iff.mp timedOutStop_state
  obtain ⟨halive, hrunning, hidle⟩ : t.alive = true ∧ t.running = false ∧ t.state = .idle := by
    simpa using hstate
  have hrun := run_of_exec ht
  obtain ⟨hflag, -⟩ := hall _ t hrun t ⟨timedOutStop, List.prefix_rfl, hrun⟩
  rw [hflag halive] at hrunning
  contradiction

end A2dpService

end Ssc
