import SscOnWindows.Lib.Machine

/-!
# The streaming worker

`streaming_thread_func` as far as the flags of the service see it: the points of the worker
between which it loads `stop_requested_`, waits for something outside of it, or is left
early, and the stores to `state_` and `running_` on the way from one point to the next.

What the worker waits for answers with `ok`: whether a call succeeded, whether the
connection was lost.  The worker can throw in its main loop, which the handler there
catches, and crash anywhere, which `seh_call` catches.
-/

namespace Ssc

open Machine

/-- `A2dpService::State`. -/
inductive ServiceState where
  | idle
  | connecting
  | streaming
  | reconnecting
  | error
  deriving DecidableEq

/-- A store of the worker to what it shares with the callers: `notify_state`, or
`running_.store(false)`. -/
inductive WorkerStore where
  | notifyState (s : ServiceState)
  | clearRunning
  deriving DecidableEq

/-- The points of the worker. -/
inductive WorkerPoint where
  | parseAddress
  | ensureBtstackInit
  | afterInit
  | connectA2dp
  | afterFailedConnect
  | afterConnect
  | resolveCodec
  | captureInit
  | uhqFallback
  | configureCodec
  | createEncoder
  | encoderInit
  | startStream
  | createThread
  | captureStart
  | mainLoop
  | checkDisconnected
  | reconnectAttempt (attempt : Nat)
  | reconnectSleep (attempt : Nat)
  | reconnect (attempt : Nat)
  | cleanup
  | returning
  | ended
  deriving DecidableEq

/-- What the worker stores on its way to its next point, and that point. -/
abbrev Branch := List WorkerStore × WorkerPoint

/-- The worker reports an error, clears `running_` and returns. -/
def Branch.fail : Branch :=
  ([.notifyState .error, .clearRunning], .returning)

/-- The worker was asked to stop before it streams: it clears `running_`, reports `Idle`
and returns. -/
def Branch.stop : Branch :=
  ([.clearRunning, .notifyState .idle], .returning)

namespace WorkerPoint

/-- The worker loads `stop_requested_` at the point. -/
def loads : WorkerPoint → Bool
  | afterInit | afterFailedConnect | afterConnect | mainLoop | reconnectSleep _ | cleanup => true
  | reconnectAttempt attempt => attempt ≤ 10
  | _ => false

/-- The point is in the `try` block of the main loop. -/
def inLoop : WorkerPoint → Bool
  | mainLoop | checkDisconnected | reconnectAttempt _ | reconnectSleep _ | reconnect _ => true
  | _ => false

/-- The worker does not return to its main loop from the point. -/
def leaving : WorkerPoint → Bool
  | cleanup | returning | ended => true
  | _ => false

/-- The worker loads `stop_requested_` no more from the point on. -/
def pastLoads : WorkerPoint → Bool
  | returning | ended => true
  | _ => false

/-- `streaming_thread_func_inner` from one point to the next. -/
def branch (stopRequested ok : Bool) : WorkerPoint → Branch
  | parseAddress =>
      if ok then ([.notifyState .connecting], ensureBtstackInit) else .fail
  | ensureBtstackInit =>
      if ok then ([], afterInit) else .fail
  | afterInit =>
      if stopRequested then .stop else ([.notifyState .connecting], connectA2dp)
  | connectA2dp =>
      if ok then ([], afterConnect) else ([], afterFailedConnect)
  | afterFailedConnect =>
      if stopRequested then .stop else .fail
  | afterConnect =>
      if stopRequested then .stop else ([], resolveCodec)
  | resolveCodec =>
      if ok then ([.notifyState .connecting], captureInit) else .fail
  | captureInit =>
      if ok then ([], uhqFallback) else .fail
  | uhqFallback =>
      if ok then ([.notifyState .connecting], configureCodec) else ([], configureCodec)
  | configureCodec =>
      if ok then ([], createEncoder) else .fail
  | createEncoder =>
      if ok then ([], encoderInit) else .fail
  | encoderInit =>
      if ok then ([], startStream) else .fail
  | startStream =>
      if ok then ([.notifyState .streaming], createThread) else .fail
  | createThread =>
      if ok then ([], captureStart) else .fail
  | captureStart =>
      if ok then ([], mainLoop) else .fail
  | mainLoop =>
      if stopRequested then ([.clearRunning], cleanup) else ([], checkDisconnected)
  | checkDisconnected =>
      if ok then ([.notifyState .reconnecting], reconnectAttempt 1) else ([], mainLoop)
  | reconnectAttempt attempt =>
      if attempt ≤ 10 ∧ stopRequested = false then
        ([.notifyState .reconnecting], reconnectSleep attempt)
      else ([.notifyState .error, .clearRunning], cleanup)
  | reconnectSleep attempt =>
      if stopRequested then ([.notifyState .error, .clearRunning], cleanup)
      else ([], reconnect attempt)
  | reconnect attempt =>
      if ok then ([.notifyState .streaming], mainLoop) else ([], reconnectAttempt (attempt + 1))
  | cleanup =>
      if stopRequested then ([.notifyState .idle], returning) else ([], returning)
  | returning => ([], ended)
  | ended => ([], ended)

/-- How far the worker is at most from its end, in stores and points, once it sees
`stop_requested_`. -/
def distance : WorkerPoint → Nat
  | parseAddress => 7
  | ensureBtstackInit => 5
  | afterInit => 4
  | connectA2dp => 5
  | afterFailedConnect => 4
  | afterConnect => 4
  | resolveCodec => 17
  | captureInit => 15
  | uhqFallback => 14
  | configureCodec => 12
  | createEncoder => 11
  | encoderInit => 10
  | startStream => 9
  | createThread => 7
  | captureStart => 6
  | mainLoop => 5
  | checkDisconnected => 8
  | reconnectAttempt _ => 6
  | reconnectSleep _ => 6
  | reconnect _ => 7
  | cleanup => 3
  | returning => 1
  | ended => 0

theorem distance_cleanup : distance cleanup = 3 := rfl

theorem distance_returning : distance returning = 1 := rfl

end WorkerPoint

/-- The worker thread: the stores ahead of its point, and whether it has crashed.  Of what
it did it is recorded whether it is past its own `running_.store(false)`, and of the
callers whether it has been asked to stop. -/
structure Worker where
  stores : List WorkerStore := []
  point : WorkerPoint := .parseAddress
  crashed : Bool := false
  cleared : Bool := false
  stopped : Bool := false

/-- The steps of the worker. -/
inductive WorkerAction where
  | proceed (ok : Bool)
  | throw
  | crash
  deriving DecidableEq

namespace Worker

/-- One step of the worker, which finds `stop_requested_` as given. -/
def next (stopRequested : Bool) (w : Worker) : WorkerAction → Option Worker
  | .proceed ok =>
      match w.stores with
      | store :: rest =>
          some { w with stores := rest, cleared := w.cleared || store = .clearRunning }
      | [] =>
          if w.point = .ended then none
          else some { w with
            stores := (w.point.branch stopRequested ok).1
            point := (w.point.branch stopRequested ok).2 }
  | .throw =>
      if w.point.inLoop then some { w with stores := [.clearRunning], point := .cleanup }
      else none
  | .crash =>
      if w.crashed = true ∨ w.point = .ended then none
      else some { w with
        stores := [.notifyState .error, .clearRunning]
        point := .returning
        crashed := true
        cleared := false }

/-- What a step of the worker can be: a store, a move to the next point, or one of the two
ways out. -/
theorem next_cases
    {stopRequested : Bool} {w w' : Worker} {a : WorkerAction}
    (h : w.next stopRequested a = some w') :
  (∃ ok store rest, a = .proceed ok ∧ w.stores = store :: rest
      ∧ w' = { w with stores := rest, cleared := w.cleared || store = .clearRunning })
    ∨ (∃ ok, a = .proceed ok ∧ w.stores = [] ∧ w.point ≠ .ended
      ∧ w' = { w with
          stores := (w.point.branch stopRequested ok).1
          point := (w.point.branch stopRequested ok).2 })
    ∨ (a = .throw ∧ w.point.inLoop = true
      ∧ w' = { w with stores := [.clearRunning], point := .cleanup })
    ∨ (a = .crash ∧ w.crashed = false ∧ w.point ≠ .ended
      ∧ w' = { w with
          stores := [.notifyState .error, .clearRunning]
          point := .returning
          crashed := true
          cleared := false })
  := by
  cases a with
  | proceed ok =>
      cases hstores : w.stores with
      | cons store rest =>
          rw [next, hstores] at h
          left
          use ok, store, rest
          exact ⟨rfl, rfl, (Option.some.inj h).symm⟩
      | nil =>
          rw [next, hstores] at h
          right; left
          use ok
          obtain ⟨hended, h⟩ := Option.ite_none_left_eq_some.mp h
          exact ⟨rfl, rfl, hended, (Option.some.inj h).symm⟩
  | throw =>
      right; right; left
      obtain ⟨hloop, h⟩ := Option.ite_none_right_eq_some.mp h
      exact ⟨rfl, hloop, (Option.some.inj h).symm⟩
  | crash =>
      right; right; right
      obtain ⟨hcrashed, h⟩ := Option.ite_none_left_eq_some.mp h
      rw [not_or, Bool.not_eq_true] at hcrashed
      exact ⟨rfl, hcrashed.1, hcrashed.2, (Option.some.inj h).symm⟩

/-- A worker with no store ahead goes on to its next point. -/
theorem branch_of_next {stopRequested ok : Bool} {w w' : Worker} (hstores : w.stores = [])
    (h : w.next stopRequested (.proceed ok) = some w') :
  (w'.stores, w'.point) = w.point.branch stopRequested ok
  := by
  rw [next, hstores] at h
  obtain ⟨-, hw'⟩ := Option.ite_none_left_eq_some.mp h
  obtain rfl := Option.some.inj hw'
  rfl

/-- A worker with stores ahead makes the first of them. -/
theorem store_of_next {stopRequested ok : Bool} {w w' : Worker} (hstores : w.stores ≠ [])
    (h : w.next stopRequested (.proceed ok) = some w') :
  ∃ store, w.stores = store :: w'.stores ∧ w'.point = w.point
  := by
  cases hw : w.stores with
  | nil => contradiction
  | cons store rest =>
      rw [next, hw] at h
      obtain rfl := Option.some.inj h
      use store

/-- A step of the worker leaves the record of the callers alone. -/
theorem next_stopped
    {stopRequested : Bool} {w w' : Worker} {a : WorkerAction}
    (h : w.next stopRequested a = some w') :
  w'.stopped = w.stopped
  := by
  rcases next_cases h with ⟨ok, store, rest, rfl, hstores, rfl⟩ | ⟨ok, rfl, hstores, hended, rfl⟩
      | ⟨rfl, hloop, rfl⟩ | ⟨rfl, hcrashed, hended, rfl⟩
  all_goals rfl

/-- A worker that is leaving keeps leaving. -/
theorem leaving_next
    {stopRequested : Bool} {w w' : Worker} {a : WorkerAction}
    (hleaving : w.point.leaving = true) (h : w.next stopRequested a = some w') :
  w'.point.leaving = true
  := by
  rcases next_cases h with ⟨ok, store, rest, rfl, hstores, rfl⟩ | ⟨ok, rfl, hstores, hended, rfl⟩
      | ⟨rfl, hloop, rfl⟩ | ⟨rfl, hcrashed, hended, rfl⟩
  · apply hleaving
  · cases hpoint : w.point with
    | cleanup => cases stopRequested <;> rfl
    | _ => simp_all [WorkerPoint.leaving, WorkerPoint.branch]
  · rfl
  · rfl

/-- A worker past its last load of `stop_requested_` stays past it. -/
theorem pastLoads_next
    {stopRequested : Bool} {w w' : Worker} {a : WorkerAction}
    (hpast : w.point.pastLoads = true) (h : w.next stopRequested a = some w') :
  w'.point.pastLoads = true
  := by
  rcases next_cases h with ⟨ok, store, rest, rfl, hstores, rfl⟩ | ⟨ok, rfl, hstores, hended, rfl⟩
      | ⟨rfl, hloop, rfl⟩ | ⟨rfl, hcrashed, hended, rfl⟩
  · apply hpast
  · cases hpoint : w.point with
    | returning => rfl
    | _ => simp_all [WorkerPoint.pastLoads]
  · cases hpoint : w.point with
    | _ => simp_all [WorkerPoint.pastLoads, WorkerPoint.inLoop]
  · rfl

/-! ### The end of a worker -/

/-- The distance to the end of the worker: its stores, its point, and the way a crash would
take. -/
def measure (w : Worker) : Nat :=
  w.stores.length + w.point.distance + if w.crashed then 0 else 3

/-- A worker that sees `stop_requested_`, or is leaving, gets closer to its end with every
point. -/
theorem branch_distance
    {stopRequested : Bool} (ok : Bool) {p : WorkerPoint}
    (hends : stopRequested = true ∨ p.leaving = true) (hended : p ≠ .ended) :
  (p.branch stopRequested ok).1.length + (p.branch stopRequested ok).2.distance < p.distance
  := by
  rcases hends with rfl | hleaving
  · cases ok with
    | true => cases p <;> simp [WorkerPoint.branch, WorkerPoint.distance, Branch.stop] at hended ⊢
    | false =>
        cases p <;>
          simp [WorkerPoint.branch, WorkerPoint.distance, Branch.stop, Branch.fail] at hended ⊢
  · cases p with
    | cleanup => cases stopRequested <;> simp [WorkerPoint.branch, WorkerPoint.distance]
    | returning => simp [WorkerPoint.branch, WorkerPoint.distance]
    | _ => contradiction

/-- A point of the main loop is further from the end than the handler of its exceptions. -/
theorem distance_of_inLoop {p : WorkerPoint} (h : p.inLoop = true) :
  5 ≤ p.distance
  := by
  cases p with
  | mainLoop | checkDisconnected | reconnectAttempt _ | reconnectSleep _ | reconnect _ =>
      simp [WorkerPoint.distance]
  | _ => contradiction

theorem distance_pos {p : WorkerPoint} (h : p ≠ .ended) :
  1 ≤ p.distance
  := by
  cases p with
  | ended => contradiction
  | _ => simp [WorkerPoint.distance]

/-- A worker that sees `stop_requested_`, or is leaving, gets closer to its end with every
step. -/
theorem measure_next
    {stopRequested : Bool} {w w' : Worker} {a : WorkerAction}
    (hends : stopRequested = true ∨ w.point.leaving = true)
    (h : w.next stopRequested a = some w') :
  w'.measure < w.measure
  := by
  rcases next_cases h with ⟨ok, store, rest, rfl, hstores, rfl⟩ | ⟨ok, rfl, hstores, hended, rfl⟩
      | ⟨rfl, hloop, rfl⟩ | ⟨rfl, hcrashed, hended, rfl⟩
  · simp only [measure, hstores, List.length_cons]
    omega
  · have hdistance := branch_distance ok hends hended
    simp only [measure, hstores, List.length_nil]
    omega
  · have hdistance := distance_of_inLoop hloop
    simp only [measure, List.length_singleton, WorkerPoint.distance_cleanup]
    omega
  · have hdistance := distance_pos hended
    simp only [measure, hcrashed, List.length_cons, List.length_nil,
      WorkerPoint.distance_returning, if_true, Bool.false_eq_true, if_false]
    omega

/-- A worker that has not ended can take a step. -/
theorem next_proceed (stopRequested : Bool) {w : Worker} (hended : w.point ≠ .ended) :
  ∃ w', w.next stopRequested (.proceed true) = some w'
  := by
  cases hstores : w.stores with
  | cons store rest =>
      simp only [next, hstores]
      exact ⟨_, rfl⟩
  | nil =>
      simp only [next, hstores, hended, if_false]
      exact ⟨_, rfl⟩

/-- The worker is going to end while `stop_requested_` stays as it is. -/
def Finishing (stopRequested : Bool) : Worker → Prop :=
  Inevitable (next stopRequested) (fun w => w.point = .ended)

/-- A worker that sees `stop_requested_` is going to end. -/
theorem finishing_of_stopRequested (w : Worker) :
  w.Finishing true
  := by
  apply inevitable_of_measure (I := fun _ => True) measure
  · intro s a t _ _
    trivial
  · intro s _ hended
    obtain ⟨t, ht⟩ := next_proceed true hended
    use .proceed true, t
  · intro s a t _ _ hstep
    apply measure_next (Or.inl rfl) hstep
  · trivial

/-- A worker that is leaving is going to end. -/
theorem finishing_of_leaving (stopRequested : Bool) {w : Worker} (h : w.point.leaving = true) :
  w.Finishing stopRequested
  := by
  apply inevitable_of_measure (I := fun w => w.point.leaving = true) measure
  · intro s a t hs hstep
    apply leaving_next hs hstep
  · intro s _ hended
    obtain ⟨t, ht⟩ := next_proceed stopRequested hended
    use .proceed true, t
  · intro s a t hs _ hstep
    apply measure_next (Or.inr hs) hstep
  · apply h

/-! ### The order of the stores -/

/-- `Idle` is stored behind `running_.store(false)` only. -/
def quiet : List WorkerStore → Bool
  | [] => true
  | .clearRunning :: _ => true
  | .notifyState s :: rest => s ≠ .idle && quiet rest

/-- A worker that is not past its own `running_.store(false)` has it ahead, and does not
report `Idle` before. -/
def Orderly (w : Worker) : Prop :=
  w.cleared = false →
    quiet w.stores = true ∧ (w.point.leaving = true → .clearRunning ∈ w.stores)

/-- Every way from a point at which the worker is not leaving has the store of `running_`
on it when it leads out of the loop, and no report of `Idle` before it. -/
theorem branch_orderly {stopRequested ok : Bool} {p : WorkerPoint} (hp : p.leaving = false) :
  quiet (p.branch stopRequested ok).1 = true
    ∧ ((p.branch stopRequested ok).2.leaving = true →
      .clearRunning ∈ (p.branch stopRequested ok).1)
  := by
  cases p with
  | cleanup | returning | ended => contradiction
  | reconnectAttempt attempt =>
      rw [WorkerPoint.branch]
      split
      · simp [quiet, WorkerPoint.leaving]
      · simp [quiet]
  | _ =>
      cases stopRequested <;> cases ok <;>
        simp [WorkerPoint.branch, Branch.fail, Branch.stop, quiet, WorkerPoint.leaving]

theorem orderly_next
    {stopRequested : Bool} {w w' : Worker} {a : WorkerAction} (hw : w.Orderly)
    (h : w.next stopRequested a = some w') :
  w'.Orderly
  := by
  intro hcleared
  rcases next_cases h with ⟨ok, store, rest, rfl, hstores, rfl⟩ | ⟨ok, rfl, hstores, hended, rfl⟩
      | ⟨rfl, hloop, rfl⟩ | ⟨rfl, hcrashed, hended, rfl⟩
  · obtain ⟨hcleared, hstore⟩ := Bool.or_eq_false_iff.mp hcleared
    obtain ⟨hquiet, hleaving⟩ := hw hcleared
    rw [hstores] at hquiet hleaving
    cases store with
    | clearRunning => contradiction
    | notifyState s =>
        simp only [quiet, Bool.and_eq_true] at hquiet
        constructor
        · apply hquiet.2
        · intro hpoint
          simpa using hleaving hpoint
  · obtain ⟨-, hleaving⟩ := hw hcleared
    rw [hstores] at hleaving
    apply branch_orderly
    by_contra hpoint
    rw [Bool.not_eq_false] at hpoint
    simpa using hleaving hpoint
  · constructor
    · rfl
    · simp
  · constructor
    · rfl
    · simp

end Worker

end Ssc
