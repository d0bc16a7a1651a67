import SscOnWindows.Service.WayOut

/-!
# The encode threads and the teardown

The worker waits for its encode thread before it destroys the ring, stops the stream and shuts
the encoder down, but it waits for a bounded time and does not look at how the wait ended.  An
`encode` that takes longer is still at work when the teardown goes on, and when the next start
creates another encode thread.
-/

namespace Ssc

open Machine

/-- The worker has created its encode thread and is not on its way out. -/
def WorkerPoint.pipelined : WorkerPoint → Bool
  | captureStart | mainLoop | checkDisconnected | reconnectAttempt _ | reconnectSleep _
  | reconnect _ => true
  | _ => false

namespace Streaming

/-- The step takes down or takes over what an encode thread uses: it destroys the ring, shuts
the encoder down or destroys it at the end of the worker, calls the transport but for a
reconnection of the stream, or creates an encode thread. -/
def takesOver (s : Streaming) : StreamingAction → Bool
  | .call a => a ≠ .reconnect
  | .worker (.proceed _) =>
      s.service.worker.any fun w =>
        match s.nextRelease w with
        | some .destroyRing => true
        | some .shutdownEncoder => true
        | some _ => false
        | none =>
            w.stores = [] && (w.point = .createThread || (w.point = .returning && !w.crashed))
  | _ => false

/-- All encode threads have exited. -/
def AllExited (s : Streaming) : Prop :=
  ∀ thread ∈ s.encodeThreads, thread = .exited

instance (s : Streaming) : Decidable s.AllExited :=
  inferInstanceAs (Decidable (∀ _ ∈ _, _))

/-- What an encode thread uses is taken down or taken over behind its end. -/
def ExitsFirst (s : Streaming) (a : StreamingAction) : Prop :=
  s.takesOver a = true → s.AllExited

/-- There is one encode thread at most that has not exited. -/
def OneThread (s : Streaming) : Prop :=
  ∀ i, i + 1 < s.encodeThreads.length → s.encodeThreads[i]? = some .exited

/-- The worker is before its wait for the encode thread. -/
def waits (s : Streaming) : Bool :=
  s.service.worker.any fun w => s.nextRelease w = some .waitEncode

/-- The wait for the encode thread ends because the thread has exited, and the worker does not
crash before its encode thread has. -/
def EndsInTime (s : Streaming) : StreamingAction → Prop
  | .worker (.proceed ok) => s.waits = true → ok = true
  | .worker .crash => s.AllExited
  | _ => True

instance (s : Streaming) : (a : StreamingAction) → Decidable (s.EndsInTime a)
  | .worker (.proceed _) => inferInstanceAs (Decidable (_ → _))
  | .worker .crash => inferInstanceAs (Decidable (AllExited _))
  | .worker .throw | .startStreaming | .stopStreaming | .caller | .createTransport _ _ _
  | .call _ | .transport _ | .encode _ _ | .captureEnds => inferInstanceAs (Decidable True)

end Streaming

namespace WorkerPoint

/-- From a point with an encode thread the worker goes on with it, or is going to wait for it;
it gets one when it creates one. -/
theorem holds_branch (stopRequested ok : Bool) (p : WorkerPoint) :
  ((p.branch stopRequested ok).2.pipelined
      || (p.releases stopRequested ok).contains .waitEncode)
    = if p = .createThread then ok else p.pipelined
  := by
  cases p with
  | reconnectAttempt attempt =>
      by_cases hagain : attempt ≤ 10 ∧ stopRequested = false
      · rw [branch, if_pos hagain]
        rfl
      · rw [branch, releases, if_neg hagain, if_neg hagain]
        rfl
  | _ => cases stopRequested <;> cases ok <;> rfl

/-- A worker that is leaving has no point with an encode thread. -/
theorem pipelined_of_leaving {p : WorkerPoint} (h : p.leaving = true) :
  p.pipelined = false
  := by
  cases p with
  | cleanup | returning | ended => rfl
  | _ => contradiction

/-- Only a reconnection is called with an encode thread there. -/
theorem pipelined_of_calls {p : WorkerPoint} {a : Action} (h : p.calls a = true)
    (ha : a ≠ .reconnect) :
  p.pipelined = false
  := by
  cases p with
  | connectA2dp | configureCodec | startStream => rfl
  | reconnect attempt =>
      cases a with
      | reconnect => contradiction
      | _ => contradiction
  | _ => contradiction

end WorkerPoint

namespace Streaming

/-! ### The invariant -/

/-- The worker has an encode thread that it has not waited for. -/
def holding (s : Streaming) : Bool :=
  s.service.worker.any fun w => w.point.pipelined || s.releases.contains .waitEncode

/-- All encode threads have exited but the one the worker has not waited for. -/
structure ExitsKept (s : Streaming) : Prop where
  onWayOut : s.OnWayOut
  exited : s.holding = false → s.AllExited
  older : s.OneThread

theorem exitsKept_start :
  start.ExitsKept
  where
  onWayOut := onWayOut_start
  exited _ := nofun
  older _ := nofun

namespace ExitsKept

variable {s s' : Streaming} {w : Worker}

/-- A worker with no store left holds an encode thread only at a point that has one. -/
theorem holding_of_stores (hs : s.ExitsKept) (hworker : s.service.worker = some w)
    (hstores : w.stores = []) :
  s.holding = w.point.pipelined
  := by
  rw [holding, hworker, hs.onWayOut.releases_eq_nil hworker hstores, Option.any_some]
  apply Bool.or_false

/-- A worker that is before something holds an encode thread only when the wait is still
ahead. -/
theorem holding_of_release (hs : s.ExitsKept) (hworker : s.service.worker = some w) {r : Release}
    (hrelease : s.nextRelease w = some r) :
  s.holding = s.releases.contains .waitEncode
  := by
  have hleaving := hs.onWayOut.leaving_of_release hworker hrelease
  rw [holding, hworker, Option.any_some, WorkerPoint.pipelined_of_leaving hleaving]
  apply Bool.false_or

/-- What takes down is behind the wait. -/
theorem allExited_of_takesDown (hs : s.ExitsKept) (hworker : s.service.worker = some w)
    {r : Release} (hrelease : s.nextRelease w = some r) (hdown : r.takesDown = true) :
  s.AllExited
  := by
  obtain ⟨-, rest, hreleases⟩ := nextRelease_eq_some hrelease
  apply hs.exited
  have hordered := hs.onWayOut.ordered
  rw [hreleases] at hordered
  have hrest := Release.not_mem_of_ordered hordered hdown
  rw [hs.holding_of_release hworker hrelease, hreleases, List.contains_eq_mem]
  apply decide_eq_false
  intro hmem
  cases List.mem_cons.mp hmem with
  | inl heq =>
      rw [← heq] at hdown
      contradiction
  | inr hmem => apply hrest hmem

/-- The only thread that may not have exited is the last one. -/
theorem allExited_of_last (hs : s.ExitsKept)
    (hlast : s.encodeThreads.getLast? = some .exited) :
  s.AllExited
  := by
  intro thread hmem
  obtain ⟨i, hi, rfl⟩ := List.getElem_of_mem hmem
  by_cases hbefore : i + 1 < s.encodeThreads.length
  · have hthread := hs.older i hbefore
    rw [List.getElem?_eq_getElem hi] at hthread
    apply Option.some.inj hthread
  · rw [List.getLast?_eq_getElem?] at hlast
    have hindex : s.encodeThreads.length - 1 = i := by omega
    rw [hindex, List.getElem?_eq_getElem hi] at hlast
    apply Option.some.inj hlast

/-! ### The steps -/

/-- A step that keeps the threads, and does not let go of one that has not been waited for. -/
theorem of_threads (hs : s.ExitsKept) (hway : s'.OnWayOut)
    (hthreads : s'.encodeThreads = s.encodeThreads)
    (hexited : s'.holding = false → s.holding = false ∨ s.AllExited) :
  s'.ExitsKept
  := by
  constructor
  · apply hway
  · intro h
    rw [AllExited, hthreads]
    cases hexited h with
    | inl hholding => apply hs.exited hholding
    | inr hall => apply hall
  · rw [OneThread, hthreads]
    apply hs.older

/-- A step that keeps the worker and what is on its way. -/
theorem of_same (hs : s.ExitsKept) (hway : s'.OnWayOut) (hservice : s'.service = s.service)
    (hreleases : s'.releases = s.releases) (hthreads : s'.encodeThreads = s.encodeThreads) :
  s'.ExitsKept
  := by
  apply hs.of_threads hway hthreads
  rw [holding, holding, hservice, hreleases]
  apply Or.inl

/-- The calls of the service. -/
theorem caller (hs : s.ExitsKept) (hway : s'.OnWayOut) {a : ServiceAction}
    (hservice : s.service.next a = some s'.service) (ha : ∀ b, a ≠ .worker b)
    (hreleases : s'.releases = s.releases) (hthreads : s'.encodeThreads = s.encodeThreads) :
  s'.ExitsKept
  := by
  apply hs.of_threads hway hthreads
  intro h
  left
  rw [holding, hreleases] at h
  rw [holding]
  cases hworker : s.service.worker with
  | none => rfl
  | some w =>
      rw [Option.any_some]
      cases A2dpService.worker_of_caller hs.onWayOut.joined hservice ha with
      | inl hkeeps =>
          cases hkeeps.2 w hworker with
          | inl hended =>
              have hstores := hs.onWayOut.joined.ended w hworker hended
              rw [hended, hs.onWayOut.releases_eq_nil hworker hstores]
              rfl
          | inr hsame =>
              obtain ⟨w', hw', hpoint, -⟩ := hsame
              rw [hw', Option.any_some, hpoint] at h
              apply h
      | inr hspawn =>
          rw [hspawn.1] at hworker
          contradiction

/-- What the worker has done before it clears `running_` is off its way.  When it was the wait,
the thread has exited. -/
theorem release (hs : s.ExitsKept) (hway : s'.OnWayOut) {ok : Bool} {r : Release}
    (hworker : s.service.worker = some w) (hrelease : s.nextRelease w = some r)
    (hwait : s.waits = true → ok = true) (hs' : s.release ok r = some s') :
  s'.ExitsKept
  := by
  obtain ⟨-, rest, hreleases⟩ := nextRelease_eq_some hrelease
  obtain ⟨hservice, -, -, htail, hthreads⟩ := release_eq hs'
  rw [hreleases, List.tail_cons] at htail
  apply hs.of_threads hway hthreads
  intro h
  by_cases hr : r = .waitEncode
  · right
    obtain rfl := hr
    apply hs.allExited_of_last
    have hok : ok = true := by
      apply hwait
      rw [waits, hworker, Option.any_some, hrelease]
      rfl
    obtain ⟨hlast, -⟩ := Option.ite_none_right_eq_some.mp hs'
    rw [hok] at hlast
    apply of_decide_eq_true hlast.symm
  · left
    rw [hs.holding_of_release hworker hrelease, hreleases, List.contains_cons,
      beq_eq_false_iff_ne.mpr (Ne.symm hr), Bool.false_or]
    rw [holding, hservice, hworker, Option.any_some, htail] at h
    apply (Bool.or_eq_false_iff.mp h).2

/-- A worker that goes on to its next point goes on with its encode thread, creates one when all
others have exited, or is going to wait for it. -/
theorem move (hs : s.ExitsKept) (hway : s'.OnWayOut) {w' : Worker} {stopRequested ok : Bool}
    (hworker : s.service.worker = some w) (hstores : w.stores = [])
    (hworker' : s'.service.worker = some w')
    (hbranch : (w'.stores, w'.point) = w.point.branch stopRequested ok)
    (hreleases : s'.releases = w.point.releases stopRequested ok)
    (hthreads : s'.encodeThreads
      = if w.point = .createThread ∧ ok = true then s.encodeThreads ++ [.looping]
        else s.encodeThreads) :
  s'.ExitsKept
  := by
  have hholding := hs.holding_of_stores hworker hstores
  have hholding' : s'.holding = if w.point = .createThread then ok else w.point.pipelined := by
    rw [holding, hworker', Option.any_some, hreleases, (Prod.mk.inj hbranch).2]
    apply WorkerPoint.holds_branch
  by_cases hcreate : w.point = .createThread ∧ ok = true
  · rw [if_pos hcreate] at hthreads
    have hexited : s.AllExited := by
      apply hs.exited
      rw [hholding, hcreate.1]
      rfl
    constructor
    · apply hway
    · intro h
      rw [hholding', if_pos hcreate.1, hcreate.2] at h
      contradiction
    · intro i hi
      rw [hthreads, List.length_append, List.length_singleton, Nat.add_lt_add_iff_right] at hi
      rw [hthreads, List.getElem?_append_left hi, List.getElem?_eq_getElem hi,
        hexited _ (List.getElem_mem hi)]
  · rw [if_neg hcreate] at hthreads
    apply hs.of_threads hway hthreads
    intro h
    left
    rw [hholding]
    by_cases hpoint : w.point = .createThread
    · rw [hpoint]
      rfl
    · rw [hholding', if_neg hpoint] at h
      apply h

/-- A worker that makes a store keeps its point. -/
theorem store (hs : s.ExitsKept) (hway : s'.OnWayOut) {w' : Worker}
    (hworker : s.service.worker = some w) (hworker' : s'.service.worker = some w')
    (hpoint : w'.point = w.point) (hreleases : s'.releases = s.releases)
    (hthreads : s'.encodeThreads = s.encodeThreads) :
  s'.ExitsKept
  := by
  apply hs.of_threads hway hthreads
  rw [holding, holding, hworker, hworker', hreleases, Option.any_some, Option.any_some, hpoint]
  apply Or.inl

/-- A thread that takes a step has not exited, and is the last one. -/
theorem encode (hs : s.ExitsKept) {i : Nat} {thread : EncodeThread} {step : EncodeStep}
    (hway : s'.OnWayOut) (hthread : s.encodeThreads[i]? = some thread)
    (hs' : s.nextEncode i thread step = some s') :
  s'.ExitsKept
  := by
  obtain ⟨thread', contextRunning, hnot, rfl⟩ := nextEncode_eq hs'
  constructor
  · apply hway
  · intro hholding
    exact absurd (hs.exited hholding thread (List.mem_of_getElem? hthread)) hnot
  · intro j hj
    rw [List.length_set] at hj
    have hold := hs.older j hj
    by_cases hij : i = j
    · rw [hij, hold] at hthread
      exact absurd (Option.some.inj hthread).symm hnot
    · rw [List.getElem?_set_ne hij]
      apply hold

end ExitsKept

/-- Every step keeps the threads in order when the waits for them end in time. -/
theorem exitsKept_next {s s' : Streaming} {a : StreamingAction} (hs : s.ExitsKept)
    (hC : s.EndsInTime a) (h : s.next a = some s') :
  s'.ExitsKept
  := by
  have hway := onWayOut_next hs.onWayOut h
  cases steps_next h with
  | startStreaming hservice | stopStreaming hservice | caller _ hservice =>
      apply hs.caller hway
      · apply hservice
      · nofun
      · rfl
      · rfl
  | stopClears | stopCancels | createTransport | captureEnds =>
      apply hs.of_same hway
      · rfl
      · rfl
      · rfl
  | @call a w t r | @transport a t r =>
      obtain ⟨_, _, heq⟩ := s.after_eq r
      rw [heq] at hway ⊢
      apply hs.of_same hway
      · rfl
      · rfl
      · rfl
  | release hworker hrelease hs' => apply hs.release hway hworker hrelease hC hs'
  | @move ok w service hworker hstores hready hservice =>
      obtain ⟨w', hnext, hworker'⟩ := A2dpService.worker_of_next hworker hservice
      apply hs.move hway hworker hstores hworker'
      · apply Worker.branch_of_next hstores hnext
      · rfl
      · apply effect_encodeThreads
  | @store ok w service hworker hrelease hstores hservice =>
      obtain ⟨w', hnext, hworker'⟩ := A2dpService.worker_of_next hworker hservice
      obtain ⟨_, -, hpoint⟩ := Worker.store_of_next hstores hnext
      apply hs.store hway hworker hworker' hpoint
      · rfl
      · rfl
  | @throw w service hworker hservice =>
      obtain ⟨w', -, hworker'⟩ := A2dpService.worker_of_next hworker hservice
      apply hs.of_threads hway
      · rfl
      · intro hholding
        rw [thrown, holding, hworker', Option.any_some, Bool.or_eq_false_iff] at hholding
        cases hholding.2
  | crash hworker hservice =>
      apply hs.of_threads hway
      · rfl
      · intro _
        right
        apply hC
  | encode hthread hs' => apply hs.encode hway hthread hs'

/-! ### The law -/

/-- A call is made from a point without an encode thread, or behind the wait for it; the calls
for a reconnection apart. -/
theorem ExitsKept.allExited_of_wants {s : Streaming} (hs : s.ExitsKept) {w : Worker} {a : Action}
    (hworker : s.service.worker = some w) (hwants : s.wants w a = true) (ha : a ≠ .reconnect) :
  s.AllExited
  := by
  rw [wants] at hwants
  split at hwants
  next hrelease => apply hs.allExited_of_takesDown hworker hrelease rfl
  next hrelease => apply hs.allExited_of_takesDown hworker hrelease rfl
  next => contradiction
  next =>
    obtain ⟨hstores, hpoint⟩ := Bool.and_eq_true_iff.mp hwants
    apply hs.exited
    rw [hs.holding_of_stores hworker (of_decide_eq_true hstores)]
    apply WorkerPoint.pipelined_of_calls hpoint ha

/-- Threads in order have exited before what they use is taken down or taken over. -/
theorem ExitsKept.exitsFirst {s s' : Streaming} {a : StreamingAction} (hs : s.ExitsKept)
    (h : s.next a = some s') :
  s.ExitsFirst a
  := by
  intro htakes
  cases a with
  | call a =>
      cases steps_next h with
      | call hworker hanswer hwants =>
          apply hs.allExited_of_wants hworker hwants (of_decide_eq_true htakes)
  | worker a =>
      cases a with
      | proceed ok =>
          obtain ⟨w, hworker, hw⟩ := (Option.any_eq_true _ _).mp htakes
          split at hw
          next hrelease => apply hs.allExited_of_takesDown hworker hrelease rfl
          next hrelease => apply hs.allExited_of_takesDown hworker hrelease rfl
          next => contradiction
          next =>
            obtain ⟨hstores, hpoint⟩ := Bool.and_eq_true_iff.mp hw
            apply hs.exited
            rw [hs.holding_of_stores hworker (of_decide_eq_true hstores)]
            cases Bool.or_eq_true_iff.mp hpoint with
            | inl hcreate =>
                rw [of_decide_eq_true hcreate]
                rfl
            | inr hreturning =>
                rw [of_decide_eq_true (Bool.and_eq_true_iff.mp hreturning).1]
                rfl
      | throw | crash => contradiction
  | startStreaming | stopStreaming | caller | createTransport | transport | encode
  | captureEnds => contradiction

/-- In every run in which the waits for the encode threads end because they have exited, and no
worker crashes beside one that has not, what an encode thread uses is taken down or taken over
behind its end, and there is one thread at most that has not exited. -/
theorem exitsFirst_of_endsInTime {as : List StreamingAction} {s : Streaming}
    (h : Run next EndsInTime start as s) :
  (∀ t a u, Takes next start as t a u → t.ExitsFirst a)
    ∧ ∀ t, Passes next start as t → t.OneThread
  := by
  have hkept {bs : List StreamingAction} {t : Streaming}
      (hrun : Run next EndsInTime start bs t) : t.ExitsKept := by
    apply hrun.invariant exitsKept_start
    intro s a t hs hC hstep
    apply exitsKept_next hs hC hstep
  constructor
  · intro t a u htakes
    obtain ⟨⟨bs, hbs⟩, -, hstep⟩ := h.of_takes htakes
    apply (hkept hbs).exitsFirst hstep
  · intro t hpasses
    obtain ⟨bs, hbs⟩ := h.of_passes hpasses
    apply (hkept hbs).older

/-- A stop of the stream, the worker of which waits for its encode thread. -/
def stopOrderly : List StreamingAction :=
  List.flatten [streaming, stop, List.replicate 3 (.worker (.proceed true)),
    [.encode 0 .leave, .encode 0 .exit], List.replicate 3 (.worker (.proceed true)),
    [.call .stopStream, .transport (.runCallback 0 none), .transport .doneWake,
      .worker (.proceed true), .call .disconnect, .transport (.runCallback 0 none)],
    [.doneWake, .waitCancelled, .resume].map .transport, List.replicate 6 (.worker (.proceed true)),
    List.replicate 3 .caller]

/-- The next start, up to its encode thread. -/
def startAgain : List StreamingAction :=
  List.flatten [[.startStreaming], List.replicate 5 .caller,
    List.replicate 5 (.worker (.proceed true)), connectWait, connection, [.worker (.proceed true)]]

theorem stopOrderly_startAgain :
  (exec (guarded next EndsInTime) start (stopOrderly ++ startAgain)).map (fun s => s.encodeThreads)
    = some [.exited, .looping]
  := by
  decide +kernel

/-- The law for a stop and a start behind it. -/
theorem exitsFirst_startAgain :
  ∃ s, exec next start (stopOrderly ++ startAgain) = some s
    ∧ s.encodeThreads = [.exited, .looping]
    ∧ (∀ t a u, Takes next start (stopOrderly ++ startAgain) t a u → t.ExitsFirst a)
    ∧ ∀ t, Passes next start (stopOrderly ++ startAgain) t → t.OneThread
  := by
  obtain ⟨s, hs, hthreads⟩ := Option.map_eq_some_iff.mp stopOrderly_startAgain
  have hrun := run_of_exec_guarded hs
  use s, hrun.exec_eq, hthreads
  apply exitsFirst_of_endsInTime hrun

/-- A stop while `encode` takes longer than the worker waits. -/
def stopBlocked : List StreamingAction :=
  List.flatten [streaming, stop, List.replicate 3 (.worker (.proceed true)),
    [.worker (.proceed false), .worker (.proceed true)]]

theorem stopBlocked_threads :
  (exec next start stopBlocked).map (fun s => (s.encodeThreads,
      s.takesOver (.worker (.proceed true)), (s.next (.worker (.proceed true))).isSome))
    = some ([.encoding], true, true)
  := by
  decide +kernel

/-- The worker destroys the ring beside an encode thread in `encode`. -/
theorem not_exitsFirst_stopBlocked :
  ¬ ∀ (as : List StreamingAction) (s : Streaming), Run next always start as s →
    (∀ t a u, Takes next start as t a u → t.ExitsFirst a)
      ∧ ∀ t, Passes next start as t → t.OneThread
  := by
  intro hall
  obtain ⟨s, hs, hthreads⟩ := Option.map_eq_some_iff.mp stopBlocked_threads
  obtain ⟨hthreads, htakes, hsome⟩ : s.encodeThreads = [.encoding]
      ∧ s.takesOver (.worker (.proceed true)) = true
      ∧ (s.next (.worker (.proceed true))).isSome = true := by
    simpa using hthreads
  obtain ⟨s', hs'⟩ := Option.isSome_iff_exists.mp hsome
  have hlaw := (hall _ _ ((run_of_exec hs).snoc trivial hs')).1 s _ _
    ⟨stopBlocked, [], rfl, run_of_exec hs, hs'⟩
  have hexited := hlaw htakes .encoding
  rw [hthreads] at hexited
  have hnot := hexited (List.mem_singleton_self _)
  contradiction

end Streaming

end Ssc
