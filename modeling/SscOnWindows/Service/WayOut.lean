import SscOnWindows.Service.Streaming

/-!
# The worker on its way out

What the worker does before it clears `running_` is done by a worker that is leaving and has
its store to `running_` ahead, in an order in which the wait for the encode thread comes before
everything that takes down what the thread uses.
-/

namespace Ssc

open Machine

namespace A2dpService

/-- The next worker is spawned when there is none, and a worker that has ended has no store
left. -/
structure Joined (s : A2dpService) : Prop where
  spawning : s.caller = .startSpawn → s.worker = none
  ended : ∀ w, s.worker = some w → w.point = .ended → w.stores = []

theorem joined_start :
  start.Joined
  where
  spawning := nofun
  ended := nofun

/-- A worker that ends has no store left. -/
theorem ended_next {stopRequested : Bool} {w w' : Worker} {a : WorkerAction}
    (hw : w.point = .ended → w.stores = []) (h : w.next stopRequested a = some w')
    (hended : w'.point = .ended) :
  w'.stores = []
  := by
  rcases Worker.next_cases h with ⟨ok, store, rest, rfl, hstores, rfl⟩
      | ⟨ok, rfl, hstores, hnot, rfl⟩ | ⟨rfl, hloop, rfl⟩ | ⟨rfl, hcrashed, hnot, rfl⟩
  · rw [hw hended] at hstores
    contradiction
  · cases hpoint : w.point with
    | returning => rfl
    | ended => contradiction
    | reconnectAttempt attempt =>
        rw [hpoint, WorkerPoint.branch] at hended
        split at hended <;> contradiction
    | _ =>
        rw [hpoint] at hended
        cases stopRequested <;> cases ok <;> contradiction
  · contradiction
  · contradiction

theorem joined_next {s s' : A2dpService} {a : ServiceAction} (hs : s.Joined)
    (h : s.next a = some s') :
  s'.Joined
  := by
  cases steps_next h with
  | startRefused => apply hs
  | startStreaming | startReset | startRunning | startNotify | stopWait | stopWaited | stopClear
  | stopNotify => exact ⟨nofun, hs.ended⟩
  | startJoin => exact ⟨fun _ => rfl, nofun⟩
  | startSpawn =>
      constructor
      · nofun
      · rintro w ⟨⟩ _
        rfl
  | stopStreaming =>
      constructor
      · nofun
      · intro w hworker hended
        obtain ⟨v, hv, rfl⟩ := Option.map_eq_some_iff.mp hworker
        apply hs.ended v hv hended
  | worker hworker hnext =>
      constructor
      · intro hcaller
        rw [store_caller] at hcaller
        rw [hs.spawning hcaller] at hworker
        contradiction
      · rintro w ⟨⟩ hended
        apply ended_next (hs.ended _ hworker) hnext hended

/-- The worker behind a step of its own. -/
theorem worker_of_next {s s' : A2dpService} {a : WorkerAction} {w : Worker}
    (hworker : s.worker = some w) (h : s.next (.worker a) = some s') :
  ∃ w', w.next s.stopRequested a = some w' ∧ s'.worker = some w'
  := by
  cases steps_next h with
  | worker hv hnext =>
      rw [hworker] at hv
      obtain rfl := Option.some.inj hv
      exact ⟨_, hnext, rfl⟩

/-- What a step of the caller does to the worker: it keeps its point and the stores ahead of it,
or takes away one that has ended, or spawns one where there is none. -/
theorem worker_of_caller {s s' : A2dpService} {a : ServiceAction} (hs : s.Joined)
    (h : s.next a = some s') (ha : ∀ b, a ≠ .worker b) :
  (∀ w', s'.worker = some w' → ∃ w, s.worker = some w ∧ w'.point = w.point ∧ w'.stores = w.stores)
      ∧ (∀ w, s.worker = some w → w.point = .ended
        ∨ ∃ w', s'.worker = some w' ∧ w'.point = w.point ∧ w'.stores = w.stores)
    ∨ s.worker = none ∧ s'.worker = some {}
  := by
  cases steps_next h with
  | startRefused | startStreaming | startReset | startRunning | startNotify | stopWait | stopWaited
  | stopClear | stopNotify =>
      left
      constructor
      · intro w hworker
        use w, hworker
      · intro w hworker
        right
        use w, hworker
  | stopStreaming =>
      left
      constructor
      · intro w' hworker
        obtain ⟨w, hw, rfl⟩ := Option.map_eq_some_iff.mp hworker
        use w, hw
      · intro w hworker
        right
        use { w with stopped := true }
        constructor
        · dsimp only
          rw [hworker, Option.map_some]
        · exact ⟨rfl, rfl⟩
  | startJoin hcaller hended =>
      left
      constructor
      · nofun
      · intro w hworker
        left
        apply hended w hworker
  | startSpawn hcaller =>
      right
      exact ⟨hs.spawning hcaller, rfl⟩
  | worker => exact absurd rfl (ha _)

end A2dpService

namespace Release

/-- What the encode thread uses is taken down. -/
def takesDown : Release → Bool
  | destroyRing | stopStream | disconnect | shutdownEncoder => true
  | _ => false

/-- The wait for the encode thread comes before everything that takes down what it uses. -/
def ordered : List Release → Bool
  | [] => true
  | r :: rest => !(r.takesDown && rest.contains waitEncode) && ordered rest

theorem ordered_tail {releases : List Release} (h : ordered releases = true) :
  ordered releases.tail = true
  := by
  cases releases with
  | nil => rfl
  | cons r rest => apply (Bool.and_eq_true_iff.mp h).2

/-- Behind what takes down there is no wait any more. -/
theorem not_mem_of_ordered {r : Release} {rest : List Release} (h : ordered (r :: rest) = true)
    (hdown : r.takesDown = true) :
  waitEncode ∉ rest
  := by
  have hfirst := (Bool.and_eq_true_iff.mp h).1
  rw [hdown, Bool.true_and, Bool.not_eq_true', List.contains_eq_mem] at hfirst
  apply of_decide_eq_false hfirst

end Release

namespace WorkerPoint

/-- What the worker does before it clears `running_` is on a way out that clears it. -/
theorem clearRunning_of_releases {stopRequested ok : Bool} {p : WorkerPoint}
    (h : p.releases stopRequested ok ≠ []) :
  .clearRunning ∈ (p.branch stopRequested ok).1
    ∧ (p.branch stopRequested ok).2.leaving = true
  := by
  cases p with
  | reconnectAttempt attempt =>
      by_cases hagain : attempt ≤ 10 ∧ stopRequested = false
      · rw [releases, if_pos hagain] at h
        contradiction
      · rw [branch, if_neg hagain]
        decide
  | reconnectSleep attempt =>
      cases stopRequested with
      | true => simp [branch, leaving]
      | false => contradiction
  | reconnect attempt => contradiction
  | _ =>
      revert h
      cases stopRequested <;> cases ok <;> decide

theorem releases_ordered (stopRequested ok : Bool) (p : WorkerPoint) :
  Release.ordered (p.releases stopRequested ok) = true
  := by
  cases p with
  | reconnectAttempt attempt =>
      rw [releases]
      split <;> rfl
  | _ => cases stopRequested <;> cases ok <;> rfl

end WorkerPoint

namespace Streaming

/-- The worker is before what comes next when it is before its store to `running_`. -/
theorem nextRelease_eq_some {s : Streaming} {w : Worker} {r : Release}
    (h : s.nextRelease w = some r) :
  w.stores.head? = some .clearRunning ∧ ∃ rest, s.releases = r :: rest
  := by
  obtain ⟨hhead, hr⟩ := Option.ite_none_right_eq_some.mp h
  constructor
  · apply hhead
  · cases hreleases : s.releases with
    | nil =>
        rw [hreleases] at hr
        contradiction
    | cons r' rest =>
        rw [hreleases] at hr
        obtain rfl := Option.some.inj hr
        use rest

/-- A worker without stores has nothing to do before one. -/
theorem nextRelease_of_stores (s : Streaming) {w : Worker} (hstores : w.stores = []) :
  s.nextRelease w = none
  := by
  rw [nextRelease, hstores, if_neg (by nofun)]

/-- What is to be done before `running_` is cleared is done, in its order, by a worker that is
leaving and has not cleared it. -/
structure OnWayOut (s : Streaming) : Prop where
  joined : s.service.Joined
  releasing : s.releases ≠ [] → ∃ w, s.service.worker = some w ∧ .clearRunning ∈ w.stores
    ∧ w.point.leaving = true
  ordered : Release.ordered s.releases = true

theorem onWayOut_start :
  start.OnWayOut
  where
  joined := A2dpService.joined_start
  releasing h := absurd rfl h
  ordered := rfl

namespace OnWayOut

variable {s s' : Streaming} {w : Worker}

/-- A worker with no store left has nothing to do before one. -/
theorem releases_eq_nil (hs : s.OnWayOut) (hworker : s.service.worker = some w)
    (hstores : w.stores = []) :
  s.releases = []
  := by
  by_contra hreleases
  obtain ⟨w', hw', hmem, -⟩ := hs.releasing hreleases
  rw [hworker] at hw'
  obtain rfl := Option.some.inj hw'
  rw [hstores] at hmem
  contradiction

/-- A worker that is before something is leaving. -/
theorem leaving_of_release (hs : s.OnWayOut) (hworker : s.service.worker = some w) {r : Release}
    (hrelease : s.nextRelease w = some r) :
  w.point.leaving = true
  := by
  obtain ⟨-, rest, hreleases⟩ := nextRelease_eq_some hrelease
  obtain ⟨v, hv, -, hleaving⟩ := hs.releasing (by rw [hreleases]; nofun)
  rw [hworker] at hv
  obtain rfl := Option.some.inj hv
  apply hleaving

/-- A step that changes neither the service nor what is on the way. -/
theorem of_same (hs : s.OnWayOut) (hservice : s'.service = s.service)
    (hreleases : s'.releases = s.releases) :
  s'.OnWayOut
  := by
  constructor
  · rw [hservice]
    apply hs.joined
  · rw [hservice, hreleases]
    apply hs.releasing
  · rw [hreleases]
    apply hs.ordered

/-- A step of the service that leaves the store to `running_` ahead of the worker that has
something to do before it. -/
theorem of_service (hs : s.OnWayOut) (hjoined : s'.service.Joined)
    (hreleases : s'.releases = s.releases)
    (hworker : s.releases ≠ [] → ∀ w, s.service.worker = some w → .clearRunning ∈ w.stores →
      ∃ w', s'.service.worker = some w' ∧ w'.point = w.point ∧ .clearRunning ∈ w'.stores) :
  s'.OnWayOut
  := by
  constructor
  · apply hjoined
  · intro h
    rw [hreleases] at h
    obtain ⟨w, hw, hmem, hleaving⟩ := hs.releasing h
    obtain ⟨w', hw', hpoint, hmem'⟩ := hworker h w hw hmem
    use w', hw', hmem'
    rw [hpoint]
    apply hleaving
  · rw [hreleases]
    apply hs.ordered

/-- The calls of the service. -/
theorem caller (hs : s.OnWayOut) {a : ServiceAction} (hservice : s.service.next a = some s'.service)
    (ha : ∀ b, a ≠ .worker b) (hreleases : s'.releases = s.releases) :
  s'.OnWayOut
  := by
  apply hs.of_service (A2dpService.joined_next hs.joined hservice) hreleases
  intro _ w hw hmem
  cases A2dpService.worker_of_caller hs.joined hservice ha with
  | inl hkeeps =>
      cases hkeeps.2 w hw with
      | inl hended =>
          rw [hs.joined.ended w hw hended] at hmem
          contradiction
      | inr hsame =>
          obtain ⟨w', hw', hpoint, hstores⟩ := hsame
          use w', hw', hpoint
          rw [hstores]
          apply hmem
  | inr hspawn =>
      rw [hspawn.1] at hw
      contradiction

/-- What the worker has done is off its way. -/
theorem release (hs : s.OnWayOut) {ok : Bool} {r : Release} (hrelease : s.nextRelease w = some r)
    (hs' : s.release ok r = some s') :
  s'.OnWayOut
  := by
  obtain ⟨-, rest, hreleases⟩ := nextRelease_eq_some hrelease
  obtain ⟨hservice, -, -, htail, -⟩ := release_eq hs'
  constructor
  · rw [hservice]
    apply hs.joined
  · intro _
    rw [hservice]
    apply hs.releasing
    rw [hreleases]
    nofun
  · rw [htail]
    apply Release.ordered_tail hs.ordered

/-- A worker goes on with what its way out has. -/
theorem move (hs : s.OnWayOut) {ok : Bool} (hworker : s.service.worker = some w)
    (hstores : w.stores = [])
    (hservice : s.service.next (.worker (.proceed ok)) = some s'.service)
    (hreleases : s'.releases = w.point.releases s.service.stopRequested ok) :
  s'.OnWayOut
  := by
  obtain ⟨w', hnext, hworker'⟩ := A2dpService.worker_of_next hworker hservice
  obtain ⟨hstores', hpoint'⟩ := Prod.mk.inj (Worker.branch_of_next hstores hnext)
  constructor
  · apply A2dpService.joined_next hs.joined hservice
  · intro h
    rw [hreleases] at h
    use w', hworker'
    rw [hstores', hpoint']
    apply WorkerPoint.clearRunning_of_releases h
  · rw [hreleases]
    apply WorkerPoint.releases_ordered

/-- The store the worker makes is not the one it has something to do before. -/
theorem store (hs : s.OnWayOut) {ok : Bool} (hworker : s.service.worker = some w)
    (hrelease : s.nextRelease w = none) (hstores : w.stores ≠ [])
    (hservice : s.service.next (.worker (.proceed ok)) = some s'.service)
    (hreleases : s'.releases = s.releases) :
  s'.OnWayOut
  := by
  obtain ⟨w', hnext, hworker'⟩ := A2dpService.worker_of_next hworker hservice
  obtain ⟨store, hstore, hpoint⟩ := Worker.store_of_next hstores hnext
  apply hs.of_service (A2dpService.joined_next hs.joined hservice) hreleases
  intro h v hv hmem
  rw [hworker] at hv
  obtain rfl := Option.some.inj hv
  use w', hworker', hpoint
  rw [hstore] at hmem
  apply (List.mem_cons.mp hmem).resolve_left
  rintro rfl
  rw [nextRelease, hstore, List.head?_cons, if_pos rfl] at hrelease
  apply h (List.head?_eq_none_iff.mp hrelease)

/-- A worker that is thrown out is before its store to `running_`. -/
theorem thrown (hs : s.OnWayOut) {a : WorkerAction} {service : A2dpService}
    {releases : List Release} (hworker : s.service.worker = some w)
    (hservice : s.service.next (.worker a) = some service)
    (hnext : ∀ w', w.next s.service.stopRequested a = some w' →
      .clearRunning ∈ w'.stores ∧ w'.point.leaving = true)
    (hordered : Release.ordered releases = true) :
  (s.thrown service releases).OnWayOut
  := by
  obtain ⟨w', hw', hworker'⟩ := A2dpService.worker_of_next hworker hservice
  constructor
  · apply A2dpService.joined_next hs.joined hservice
  · intro _
    use w', hworker'
    apply hnext w' hw'
  · apply hordered

end OnWayOut

end Streaming

namespace Worker

/-- Behind an exception the worker is before its store to `running_`. -/
theorem leaving_of_throw {stopRequested : Bool} {w w' : Worker}
    (h : w.next stopRequested .throw = some w') :
  .clearRunning ∈ w'.stores ∧ w'.point.leaving = true
  := by
  obtain ⟨-, hw'⟩ := Option.ite_none_right_eq_some.mp h
  obtain rfl := Option.some.inj hw'
  simp [WorkerPoint.leaving]

/-- So it is behind a crash. -/
theorem leaving_of_crash {stopRequested : Bool} {w w' : Worker}
    (h : w.next stopRequested .crash = some w') :
  .clearRunning ∈ w'.stores ∧ w'.point.leaving = true
  := by
  obtain ⟨-, hw'⟩ := Option.ite_none_left_eq_some.mp h
  obtain rfl := Option.some.inj hw'
  simp [WorkerPoint.leaving]

end Worker

namespace Streaming

/-- Every step keeps the order of the way out. -/
theorem onWayOut_next {s s' : Streaming} {a : StreamingAction} (hs : s.OnWayOut)
    (h : s.next a = some s') :
  s'.OnWayOut
  := by
  cases steps_next h with
  | startStreaming hservice | stopStreaming hservice | caller _ hservice =>
      apply hs.caller
      · apply hservice
      · nofun
      · rfl
  | stopClears | stopCancels | createTransport | captureEnds =>
      apply hs.of_same
      · rfl
      · rfl
  | @call a w t r | @transport a t r =>
      obtain ⟨_, _, heq⟩ := s.after_eq r
      rw [heq]
      apply hs.of_same
      · rfl
      · rfl
  | release hworker hrelease hs' => apply hs.release hrelease hs'
  | move hworker hstores hready hservice =>
      apply hs.move hworker hstores hservice
      rfl
  | store hworker hrelease hstores hservice =>
      apply hs.store hworker hrelease hstores hservice
      rfl
  | throw hworker hservice =>
      apply hs.thrown hworker hservice
      · intro _ hnext
        apply Worker.leaving_of_throw hnext
      · rfl
  | crash hworker hservice =>
      apply hs.thrown hworker hservice
      · intro _ hnext
        apply Worker.leaving_of_crash hnext
      · rfl
  | encode hthread hs' =>
      obtain ⟨_, _, -, rfl⟩ := nextEncode_eq hs'
      apply hs.of_same
      · rfl
      · rfl

end Streaming

end Ssc
