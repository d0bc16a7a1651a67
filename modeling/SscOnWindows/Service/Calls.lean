import SscOnWindows.Service.WayOut

/-!
# The calls of the worker

The worker waits for every call it makes: the transport is in a call only while the worker is
where it has made it, and there is an answer only there.  `init` is the exception.  A worker
that crashes leaves it running; it is over before any worker gets behind it.
-/

namespace Ssc

open Machine

namespace WorkerPoint

/-- BTstack is initialised when a worker is at the point. -/
def initialised : WorkerPoint → Bool
  | parseAddress | ensureBtstackInit | returning | ended => false
  | _ => true

/-- The call the worker makes at the point. -/
def fn? : WorkerPoint → Option ApiFn
  | connectA2dp => some .connectA2dp
  | configureCodec => some .configureCodec
  | startStream => some .startStream
  | reconnect _ => some .reconnect
  | _ => none

/-- Before BTstack is initialised the worker gets to its initialisation at most. -/
theorem initialised_branch {p : WorkerPoint} (stopRequested ok : Bool)
    (hp : p.initialised = false) (hinit : p ≠ .ensureBtstackInit) :
  (p.branch stopRequested ok).2.initialised = false
  := by
  cases p with
  | parseAddress => cases ok <;> rfl
  | returning | ended => rfl
  | ensureBtstackInit => contradiction
  | _ => contradiction

theorem fn_of_calls {p : WorkerPoint} {a : Action} (h : p.calls a = true) :
  p.fn? = a.fn? ∧ a.fn? ≠ none
  := by
  cases p with
  | connectA2dp =>
      cases a with
      | connectA2dp remoteAddr => exact ⟨rfl, nofun⟩
      | _ => contradiction
  | configureCodec =>
      cases a with
      | configureCodec codec sampleRate channels => exact ⟨rfl, nofun⟩
      | _ => contradiction
  | startStream =>
      cases a with
      | startStream => exact ⟨rfl, nofun⟩
      | _ => contradiction
  | reconnect attempt =>
      cases a with
      | reconnect => exact ⟨rfl, nofun⟩
      | _ => contradiction
  | _ => contradiction

theorem fn_ne_init (p : WorkerPoint) :
  p.fn? ≠ some .init
  := by
  cases p <;> nofun

end WorkerPoint

/-- The call that is made on the way out. -/
def Release.fn? : Release → Option ApiFn
  | stopStream => some .stopStream
  | disconnect => some .disconnect
  | _ => none

theorem Release.fn_ne_init (r : Release) :
  r.fn? ≠ some .init
  := by
  cases r <;> nofun

namespace Streaming

/-- The call the worker makes where it is. -/
def fn? (s : Streaming) (w : Worker) : Option ApiFn :=
  match s.nextRelease w with
  | some r => r.fn?
  | none => if w.stores = [] then w.point.fn? else none

/-- A worker without stores ahead makes the call of its point. -/
theorem fn_of_stores (s : Streaming) {w : Worker} (hstores : w.stores = []) :
  s.fn? w = w.point.fn?
  := by
  rw [fn?, nextRelease_of_stores s hstores]
  dsimp only
  rw [if_pos hstores]

theorem fn_ne_init (s : Streaming) (w : Worker) :
  s.fn? w ≠ some .init
  := by
  rw [fn?]
  split
  · apply Release.fn_ne_init
  · split
    · apply WorkerPoint.fn_ne_init
    · nofun

theorem fn_of_wants {s : Streaming} {w : Worker} {a : Action} (h : s.wants w a = true) :
  ∃ fn, a.fn? = some fn ∧ s.fn? w = some fn
  := by
  rw [wants] at h
  rw [fn?]
  split at h
  next hrelease =>
    obtain rfl := of_decide_eq_true h
    rw [hrelease]
    exact ⟨_, rfl, rfl⟩
  next hrelease =>
    obtain rfl := of_decide_eq_true h
    rw [hrelease]
    exact ⟨_, rfl, rfl⟩
  next => contradiction
  next hrelease =>
    obtain ⟨hstores, hcalls⟩ := Bool.and_eq_true_iff.mp h
    obtain ⟨heq, hsome⟩ := WorkerPoint.fn_of_calls hcalls
    obtain ⟨fn, hfn⟩ := Option.ne_none_iff_exists'.mp hsome
    use fn, hfn
    rw [hrelease]
    dsimp only
    rw [if_pos (of_decide_eq_true hstores), heq, hfn]

/-- The worker waits for the call, or it is `init`, which has not returned. -/
inductive Calling (s : Streaming) : ApiFn → Prop
  | init (hbtstack : s.btstack = none) : Calling s .init
  | worker {w : Worker} {fn : ApiFn} (hanswer : s.answer = none)
      (hworker : s.service.worker = some w) (hfn : s.fn? w = some fn) : Calling s fn

/-- A call is in progress, or has been answered, only where the worker has made it. -/
structure Placed (s : Streaming) : Prop where
  uncreated : s.transport = none → s.btstack = none
  uninitialised : ∀ w, s.service.worker = some w → s.btstack = none → w.point.initialised = false
  answered : s.answer ≠ none → ∃ w, s.service.worker = some w ∧ s.fn? w ≠ none
  calling : ∀ t c, s.transport = some t → t.call = some c → t.InStage c ∧ s.Calling c.fn

theorem placed_start :
  start.Placed
  where
  uncreated _ := rfl
  uninitialised := nofun
  answered h := absurd rfl h
  calling t c h := by contradiction

/-- The worker waits for nothing: at most `init` is in progress. -/
structure Idle (s : Streaming) : Prop where
  answer_eq : s.answer = none
  init_of_call : ∀ t c, s.transport = some t → t.call = some c → c.fn = .init ∧ s.btstack = none

theorem inStage_of_init {t : Transport} {c : Call} (h : c.fn = .init) :
  t.InStage c
  := by
  constructor
  · rw [Call.staged, h]
  · rw [Call.starting, h]
    intro h
    contradiction

/-- Where the worker waits for nothing, the calls are in their place. -/
theorem Idle.placed {s : Streaming} (h : s.Idle)
    (huncreated : s.transport = none → s.btstack = none)
    (huninitialised : ∀ w, s.service.worker = some w → s.btstack = none →
      w.point.initialised = false) :
  s.Placed
  := by
  constructor
  · apply huncreated
  · apply huninitialised
  · intro hanswer
    exact absurd h.answer_eq hanswer
  · intro t c htransport hcall
    obtain ⟨hfn, hbtstack⟩ := h.init_of_call t c htransport hcall
    constructor
    · apply inStage_of_init hfn
    · rw [hfn]
      apply Calling.init hbtstack

/-- What the worker does on its way keeps the call in progress. -/
theorem effect_call (s : Streaming) (ok : Bool) (p : WorkerPoint) :
  ∃ f : Transport → Transport, (s.effect ok p).transport = s.transport.map f
    ∧ ∀ t, (f t).call = t.call
  := by
  cases p with
  | checkDisconnected => exact ⟨_, rfl, fun _ => rfl⟩
  | _ =>
      use id
      rw [Option.map_id]
      exact ⟨rfl, fun _ => rfl⟩

theorem effect_btstack (s : Streaming) (ok : Bool) (p : WorkerPoint) :
  (s.effect ok p).btstack = s.btstack
  := by
  cases p <;> rfl

/-- The answer is taken where there is one. -/
theorem effect_answer (s : Streaming) (ok : Bool) (p : WorkerPoint) :
  (s.effect ok p).answer = if p.fn? = none then s.answer else none
  := by
  cases p <;> rfl

/-- A call on the way out is over when there is an answer, which is taken. -/
theorem release_answer {s s' : Streaming} {ok : Bool} {r : Release}
    (h : s.release ok r = some s') :
  s'.btstack = s.btstack
    ∧ (r.fn? = none ∧ s'.answer = s.answer ∨ s.answer ≠ none ∧ s'.answer = none)
  := by
  cases r with
  | stopCapture | clearContext | clearPointers | destroyRing | shutdownEncoder =>
      obtain rfl := Option.some.inj h
      exact ⟨rfl, Or.inl ⟨rfl, rfl⟩⟩
  | waitEncode =>
      obtain ⟨-, h⟩ := Option.ite_none_right_eq_some.mp h
      obtain rfl := Option.some.inj h
      exact ⟨rfl, Or.inl ⟨rfl, rfl⟩⟩
  | stopStream | disconnect =>
      obtain ⟨hanswer, h⟩ := Option.ite_none_right_eq_some.mp h
      obtain rfl := Option.some.inj h
      rw [hanswer]
      exact ⟨rfl, Or.inr ⟨nofun, rfl⟩⟩

namespace Placed

variable {s s' : Streaming} {w : Worker}

/-- A worker that has its answer waits for nothing, nor does one that has made no call. -/
theorem init_of_call (hs : s.Placed) (hworker : s.service.worker = some w)
    (h : s.fn? w = none ∨ s.answer ≠ none) {t : Transport} {c : Call}
    (htransport : s.transport = some t) (hcall : t.call = some c) :
  c.fn = .init ∧ s.btstack = none
  := by
  obtain ⟨-, hcalling⟩ := hs.calling t c htransport hcall
  generalize hfn : c.fn = fn at hcalling
  cases hcalling with
  | init hbtstack => exact ⟨rfl, hbtstack⟩
  | worker hanswer hw hfn' =>
      rw [hworker] at hw
      obtain rfl := Option.some.inj hw
      cases h with
      | inl hnone =>
          rw [hnone] at hfn'
          contradiction
      | inr hsome => contradiction

/-- A worker that has made no call has no answer. -/
theorem answer_eq_none (hs : s.Placed) (hworker : s.service.worker = some w)
    (hfn : s.fn? w = none) :
  s.answer = none
  := by
  by_contra hanswer
  obtain ⟨v, hv, hsome⟩ := hs.answered hanswer
  rw [hworker] at hv
  obtain rfl := Option.some.inj hv
  contradiction

theorem idle_of_fn (hs : s.Placed) (hworker : s.service.worker = some w)
    (hfn : s.fn? w = none) :
  s.Idle
  := by
  constructor
  · apply hs.answer_eq_none hworker hfn
  · intro t c htransport hcall
    apply hs.init_of_call hworker (Or.inl hfn) htransport hcall

/-- A step that leaves the worker where it is, and the calls alone. -/
theorem of_same (hs : s.Placed) (f : Transport → Transport)
    (hcall : ∀ t, (f t).call = t.call ∧ Transport.SameStream t (f t))
    (htransport : s'.transport = s.transport.map f) (hbtstack : s'.btstack = s.btstack)
    (hanswer : s'.answer = s.answer)
    (hpoint : ∀ w', s'.service.worker = some w' → w'.point.initialised = true →
      ∃ w, s.service.worker = some w ∧ w.point.initialised = true)
    (hworker : ∀ w, s.service.worker = some w → s.fn? w ≠ none →
      ∃ w', s'.service.worker = some w' ∧ s'.fn? w' = s.fn? w) :
  s'.Placed
  := by
  constructor
  · intro h
    rw [hbtstack]
    apply hs.uncreated
    rw [htransport] at h
    apply Option.map_eq_none_iff.mp h
  · intro w' hw' hnone
    rw [hbtstack] at hnone
    by_contra hinitialised
    rw [Bool.not_eq_false] at hinitialised
    obtain ⟨w, hw, hw₁⟩ := hpoint w' hw' hinitialised
    rw [hs.uninitialised w hw hnone] at hw₁
    contradiction
  · rw [hanswer]
    intro h
    obtain ⟨w, hw, hfn⟩ := hs.answered h
    obtain ⟨w', hw', heq⟩ := hworker w hw hfn
    use w', hw'
    rw [heq]
    apply hfn
  · intro t' c htransport' hcall'
    rw [htransport] at htransport'
    obtain ⟨t, ht, rfl⟩ := Option.map_eq_some_iff.mp htransport'
    obtain ⟨hcalleq, hsame⟩ := hcall t
    rw [hcalleq] at hcall'
    obtain ⟨hstage, hcalling⟩ := hs.calling t c ht hcall'
    constructor
    · constructor
      · apply hstage.staged
      · intro hstarting hresult
        rw [hsame.startResult_eq] at hresult
        apply hsame.up (hstage.up hstarting hresult)
    · generalize c.fn = fn at hcalling
      cases hcalling with
      | init hnone =>
          apply Calling.init
          rw [hbtstack, hnone]
      | worker hnone hw hfn =>
          obtain ⟨w', hw', heq⟩ := hworker _ hw (by rw [hfn]; nofun)
          apply Calling.worker _ hw'
          · rw [heq, hfn]
          · rw [hanswer, hnone]

/-- A step of another party, which touches the flags of the transport at most. -/
theorem of_service (hs : s.Placed) (f : Transport → Transport)
    (hcall : ∀ t, (f t).call = t.call ∧ Transport.SameStream t (f t))
    (htransport : s'.transport = s.transport.map f) (hservice : s'.service = s.service)
    (hreleases : s'.releases = s.releases) (hbtstack : s'.btstack = s.btstack)
    (hanswer : s'.answer = s.answer) :
  s'.Placed
  := by
  apply hs.of_same f hcall htransport hbtstack hanswer
  · intro w hw hinitialised
    rw [hservice] at hw
    use w, hw
  · intro w hw _
    use w
    rw [hservice, fn?, fn?, nextRelease, nextRelease, hreleases]
    exact ⟨hw, rfl⟩

/-- A step that does not touch the transport. -/
theorem of_eq (hs : s.Placed) (htransport : s'.transport = s.transport)
    (hservice : s'.service = s.service) (hreleases : s'.releases = s.releases)
    (hbtstack : s'.btstack = s.btstack) (hanswer : s'.answer = s.answer) :
  s'.Placed
  := by
  apply hs.of_service id _ _ hservice hreleases hbtstack hanswer
  · intro t
    exact ⟨rfl, rfl, rfl, rfl⟩
  · rw [htransport, Option.map_id]
    rfl

/-! ### The transport -/

/-- `init` is called on a new transport. -/
theorem createTransport (hs : s.Placed) (sbcSeid aacSeid sscSeid : Nat)
    (htransport : s.transport = none) (hworker : s.service.worker = some w)
    (hstores : w.stores = []) (hpoint : w.point = .ensureBtstackInit) :
  Placed { s with
    transport := some ({
      sbcLocalSeid := sbcSeid
      aacLocalSeid := aacSeid
      sscLocalSeid := sscSeid : Transport }.initCall).1 }
  := by
  apply Idle.placed
  · constructor
    · apply hs.answer_eq_none hworker
      rw [s.fn_of_stores hstores, hpoint]
      rfl
    · rintro _ c ⟨⟩ ⟨⟩
      exact ⟨rfl, hs.uncreated htransport⟩
  · nofun
  · apply hs.uninitialised

/-- A call that goes on, or returns, is one the worker waits for, or `init`. -/
theorem of_proceeds (hs : s.Placed) {r : Transport × List Obs} {fn : ApiFn}
    (hcalling : s.Calling fn) (h : Transport.Proceeds fn r) :
  (s.after r).Placed
  := by
  cases h with
  | goesOn c hcall hfn hstage hobs =>
      rw [after_of_none s r hobs]
      constructor
      · nofun
      · apply hs.uninitialised
      · apply hs.answered
      · rintro _ c' ⟨⟩ hcall'
        rw [hcall] at hcall'
        obtain rfl := Option.some.inj hcall'
        constructor
        · apply hstage
        · rw [hfn]
          cases hcalling with
          | init hbtstack =>
              apply Calling.init
              apply hbtstack
          | worker hanswer hworker hfn' =>
              apply Calling.worker
              · apply hanswer
              · apply hworker
              · apply hfn'
  | returns ok hcall hobs =>
      cases hcalling with
      | init hbtstack =>
          rw [after_of_init s r ok hobs]
          constructor
          · nofun
          · nofun
          · apply hs.answered
          · rintro _ c' ⟨⟩ hcall'
            rw [hcall] at hcall'
            contradiction
      | @worker w _ hanswer hworker hfn =>
          have hsome : s.fn? w ≠ none := by
            rw [hfn]
            nofun
          have hinit : fn ≠ .init := by
            rintro rfl
            apply s.fn_ne_init w hfn
          rw [after_of_returned s r ok hinit hobs]
          constructor
          · nofun
          · apply hs.uninitialised
          · intro _
            use w, hworker
            apply hsome
          · rintro _ c' ⟨⟩ hcall'
            rw [hcall] at hcall'
            contradiction

/-- Beside no call, none is begun. -/
theorem of_keeps (hs : s.Placed) {t : Transport} {a : Action} {r : Transport × List Obs}
    (hcall : t.call = none) (h : Transport.Keeps t a r) :
  (s.after r).Placed
  := by
  have hnone := h.stage_eq
  rw [Transport.stage, Transport.stage, hcall, Option.map_none, Option.map_eq_none_iff] at hnone
  rw [after_of_none s r h.returned]
  constructor
  · intro h
    contradiction
  · apply hs.uninitialised
  · apply hs.answered
  · rintro _ c ⟨⟩ hcall'
    rw [hnone] at hcall'
    contradiction

/-- A step of the transport, or of a call of it. -/
theorem transport (hs : s.Placed) {t : Transport} {a : Action} {r : Transport × List Obs}
    (hinCall : a.inCall = true) (htransport : s.transport = some t)
    (hspared : ∀ c, t.call = some c → c.starting = true → t.startResult = true →
      a.halts = true → t.disconnectOccurred = true)
    (hstep : t.step a = some r) :
  (s.after r).Placed
  := by
  cases hcall : t.call with
  | none => apply hs.of_keeps hcall (Transport.step_of_none hinCall hcall hstep)
  | some c =>
      obtain ⟨hstage, hcalling⟩ := hs.calling t c htransport hcall
      apply hs.of_proceeds hcalling
      apply Transport.step_proceeds hinCall hcall hstage (hspared c hcall) hstep

/-- The worker makes a call. -/
theorem call (hs : s.Placed) {t : Transport} {a : Action} {r : Transport × List Obs}
    (hworker : s.service.worker = some w) (hanswer : s.answer = none)
    (hwants : s.wants w a = true) (hstep : t.step a = some r) :
  (s.after r).Placed
  := by
  obtain ⟨fn, hfn, hwaits⟩ := fn_of_wants hwants
  apply hs.of_proceeds
  · apply Calling.worker hanswer hworker hwaits
  · apply Transport.call_proceeds hfn hstep

/-! ### The worker -/

/-- A worker that may go on waits for nothing any more. -/
theorem init_of_ready (hs : s.Placed) {ok : Bool} (hworker : s.service.worker = some w)
    (hfn : s.fn? w = w.point.fn?) (hready : s.ready ok w.point = true) {t : Transport} {c : Call}
    (htransport : s.transport = some t) (hcall : t.call = some c) :
  c.fn = .init ∧ s.btstack = none
  := by
  apply hs.init_of_call hworker _ htransport hcall
  rw [hfn]
  cases hpoint : w.point with
  | connectA2dp | configureCodec | startStream | reconnect attempt =>
      right
      rw [hpoint] at hready
      rw [of_decide_eq_true hready]
      nofun
  | _ =>
      left
      rfl

/-- Behind a point of the worker there is no answer any more. -/
theorem effect_answer_eq_none (hs : s.Placed) (ok : Bool) (hworker : s.service.worker = some w)
    (hfn : s.fn? w = w.point.fn?) :
  (s.effect ok w.point).answer = none
  := by
  rw [effect_answer]
  split
  next hnone =>
    apply hs.answer_eq_none hworker
    rw [hfn, hnone]
  next => rfl

/-- A worker goes on to its next point with no call in progress but `init`. -/
theorem move (hs : s.Placed) {ok stopRequested : Bool} {w' : Worker}
    (hworker : s.service.worker = some w) (hfn : s.fn? w = w.point.fn?)
    (hready : s.ready ok w.point = true) (hworker' : s'.service.worker = some w')
    (hpoint : w'.point = (w.point.branch stopRequested ok).2)
    (htransport : s'.transport = (s.effect ok w.point).transport)
    (hanswer : s'.answer = (s.effect ok w.point).answer) (hbtstack : s'.btstack = s.btstack) :
  s'.Placed
  := by
  obtain ⟨f, hf, hcalls⟩ := s.effect_call ok w.point
  rw [hf] at htransport
  apply Idle.placed
  · constructor
    · rw [hanswer]
      apply hs.effect_answer_eq_none ok hworker hfn
    · intro t' c htransport' hcall
      rw [htransport] at htransport'
      obtain ⟨t, ht, rfl⟩ := Option.map_eq_some_iff.mp htransport'
      rw [hcalls] at hcall
      rw [hbtstack]
      apply hs.init_of_ready hworker hfn hready ht hcall
  · intro h
    rw [hbtstack]
    apply hs.uncreated
    rw [htransport] at h
    apply Option.map_eq_none_iff.mp h
  · intro v hv hnone
    rw [hworker'] at hv
    obtain rfl := Option.some.inj hv
    rw [hbtstack] at hnone
    rw [hpoint]
    apply WorkerPoint.initialised_branch
    · apply hs.uninitialised w hworker hnone
    · intro hinit
      rw [hinit] at hready
      rw [of_decide_eq_true hready] at hnone
      contradiction

/-- What the worker has done on its way out it waits for no more. -/
theorem release (hs : s.Placed) {ok : Bool} {r : Release} (hworker : s.service.worker = some w)
    (hrelease : s.nextRelease w = some r) (hs' : s.release ok r = some s') :
  s'.Placed
  := by
  obtain ⟨hservice, htransport, -, -, -⟩ := release_eq hs'
  obtain ⟨hbtstack, hdone⟩ := release_answer hs'
  have hfn : s.fn? w = r.fn? := by
    rw [fn?, hrelease]
  apply Idle.placed
  · constructor
    · cases hdone with
      | inl hnone =>
          rw [hnone.2]
          apply hs.answer_eq_none hworker
          rw [hfn, hnone.1]
      | inr hsome => apply hsome.2
    · intro t c ht hcall
      rw [htransport] at ht
      rw [hbtstack]
      apply hs.init_of_call hworker _ ht hcall
      rw [hfn]
      apply hdone.imp And.left And.left
  · rw [htransport, hbtstack]
    apply hs.uncreated
  · rw [hservice, hbtstack]
    apply hs.uninitialised

/-- A worker that makes a store waits for nothing. -/
theorem store (hs : s.Placed) {w' : Worker} {service : A2dpService}
    (hworker : s.service.worker = some w) (hfn : s.fn? w = none)
    (hworker' : service.worker = some w') (hpoint : w'.point = w.point) :
  Placed { s with service := service }
  := by
  obtain ⟨hanswer, hinit⟩ := hs.idle_of_fn hworker hfn
  apply Idle.placed
  · exact ⟨hanswer, hinit⟩
  · apply hs.uncreated
  · intro v hv
    rw [hworker'] at hv
    obtain rfl := Option.some.inj hv
    rw [hpoint]
    apply hs.uninitialised w hworker

/-- A worker that is thrown out leaves its call. -/
theorem thrown (hs : s.Placed) {w' : Worker} {service : A2dpService} (releases : List Release)
    (hworker' : service.worker = some w')
    (hinitialised : s.btstack = none → w'.point.initialised = false) :
  (s.thrown service releases).Placed
  := by
  apply Idle.placed
  · constructor
    · rfl
    · intro t' c htransport' hcall
      obtain ⟨t, ht, rfl⟩ := Option.map_eq_some_iff.mp htransport'
      rw [Transport.abandon] at hcall
      split at hcall
      next hany =>
        rw [hcall, Option.any_some] at hany
        have hfn := of_decide_eq_true hany
        obtain ⟨-, hcalling⟩ := hs.calling t c ht hcall
        rw [hfn] at hcalling
        cases hcalling with
        | init hbtstack => exact ⟨hfn, hbtstack⟩
        | worker _ _ hfn' => exact absurd hfn' (s.fn_ne_init _)
      next => contradiction
  · intro h
    apply hs.uncreated
    apply Option.map_eq_none_iff.mp h
  · intro v hv
    obtain rfl := Option.some.inj (hworker'.symm.trans hv)
    apply hinitialised

/-! ### The calls of the service -/

/-- The caller of the service leaves the worker where it is, takes away one that has ended, or
spawns one. -/
theorem caller (hs : s.Placed) (hway : s.OnWayOut) {a : ServiceAction} {s' : Streaming}
    (hservice : s.service.next a = some s'.service) (ha : ∀ b, a ≠ .worker b)
    (htransport : s'.transport = s.transport) (hbtstack : s'.btstack = s.btstack)
    (hanswer : s'.answer = s.answer) (hreleases : s'.releases = s.releases) :
  s'.Placed
  := by
  have hended (w : Worker) (hworker : s.service.worker = some w) (hpoint : w.point = .ended) :
      s.fn? w = none := by
    have hstores := hway.joined.ended w hworker hpoint
    rw [s.fn_of_stores hstores, hpoint]
    rfl
  apply hs.of_same id
  · intro t
    exact ⟨rfl, rfl, rfl, rfl⟩
  · rw [htransport, Option.map_id]
    rfl
  · apply hbtstack
  · apply hanswer
  · intro w' hw' hinitialised
    cases A2dpService.worker_of_caller hway.joined hservice ha with
    | inl hkeeps =>
        obtain ⟨w, hw, hpoint, -⟩ := hkeeps.1 w' hw'
        use w, hw
        rw [← hpoint]
        apply hinitialised
    | inr hspawn =>
        rw [hspawn.2] at hw'
        obtain rfl := Option.some.inj hw'
        contradiction
  · intro w hw hfn
    cases A2dpService.worker_of_caller hway.joined hservice ha with
    | inl hkeeps =>
        cases hkeeps.2 w hw with
        | inl hpoint => exact absurd (hended w hw hpoint) hfn
        | inr hsame =>
            obtain ⟨w', hw', hpoint, hstores⟩ := hsame
            use w', hw'
            rw [fn?, fn?, nextRelease, nextRelease, hpoint, hstores, hreleases]
    | inr hspawn =>
        rw [hspawn.1] at hw
        contradiction

end Placed

end Streaming

namespace Worker

/-- A worker is thrown out of its main loop, behind the initialisation of BTstack. -/
theorem initialised_of_throw {stopRequested : Bool} {w w' : Worker}
    (h : w.next stopRequested .throw = some w') :
  w.point.initialised = true
  := by
  obtain ⟨hloop, -⟩ := Option.ite_none_right_eq_some.mp h
  cases hpoint : w.point with
  | mainLoop | checkDisconnected | reconnectAttempt attempt | reconnectSleep attempt
  | reconnect attempt => rfl
  | _ =>
      rw [hpoint] at hloop
      contradiction

/-- A worker that has crashed returns. -/
theorem initialised_of_crash {stopRequested : Bool} {w w' : Worker}
    (h : w.next stopRequested .crash = some w') :
  w'.point.initialised = false
  := by
  obtain ⟨-, hw'⟩ := Option.ite_none_left_eq_some.mp h
  obtain rfl := Option.some.inj hw'
  rfl

end Worker

namespace Streaming

/-- The remote halts no stream whose start is about to return. -/
def SparesStart (s : Streaming) (a : StreamingAction) : Prop :=
  ∀ b t c, a = .transport b → s.transport = some t → t.call = some c → c.starting = true →
    t.startResult = true → b.halts = true → t.disconnectOccurred = true

/-- Every step keeps the calls where the worker has made them. -/
theorem placed_next {s s' : Streaming} {a : StreamingAction} (hs : s.Placed) (hway : s.OnWayOut)
    (hspared : s.SparesStart a) (h : s.next a = some s') :
  s'.Placed
  := by
  cases steps_next h with
  | startStreaming hservice | stopStreaming hservice | caller _ hservice =>
      apply hs.caller hway
      · apply hservice
      · nofun
      · rfl
      · rfl
      · rfl
      · rfl
  | stopClears | captureEnds =>
      apply hs.of_eq
      · rfl
      · rfl
      · rfl
      · rfl
      · rfl
  | stopCancels hstopping =>
      apply hs.of_service (fun t => { t with cancelEvent := true })
      · intro t
        exact ⟨rfl, rfl, rfl, rfl⟩
      · rfl
      · rfl
      · rfl
      · rfl
      · rfl
  | createTransport htransport hworker hstores hpoint =>
      apply hs.createTransport _ _ _ htransport hworker hstores hpoint
  | call hworker hanswer hwants htransport hstep => apply hs.call hworker hanswer hwants hstep
  | transport hinCall htransport hstep =>
      apply hs.transport hinCall htransport _ hstep
      intro c hcall
      apply hspared _ _ c rfl htransport hcall
  | release hworker hrelease hs' => apply hs.release hworker hrelease hs'
  | move hworker hstores hready hservice =>
      obtain ⟨w', hnext, hworker'⟩ := A2dpService.worker_of_next hworker hservice
      apply hs.move hworker _ hready hworker'
      · apply (Prod.mk.inj (Worker.branch_of_next hstores hnext)).2
      · rfl
      · rfl
      · apply effect_btstack
      · apply s.fn_of_stores hstores
  | store hworker hrelease hstores hservice =>
      obtain ⟨w', hnext, hworker'⟩ := A2dpService.worker_of_next hworker hservice
      obtain ⟨_, -, hpoint⟩ := Worker.store_of_next hstores hnext
      apply hs.store hworker _ hworker' hpoint
      rw [fn?, hrelease]
      dsimp only
      rw [if_neg hstores]
  | throw hworker hservice =>
      obtain ⟨w', hnext, hworker'⟩ := A2dpService.worker_of_next hworker hservice
      apply hs.thrown _ hworker'
      intro hbtstack
      have hnot := hs.uninitialised _ hworker hbtstack
      rw [Worker.initialised_of_throw hnext] at hnot
      contradiction
  | crash hworker hservice =>
      obtain ⟨w', hnext, hworker'⟩ := A2dpService.worker_of_next hworker hservice
      apply hs.thrown _ hworker'
      intro _
      apply Worker.initialised_of_crash hnext
  | encode hthread hs' =>
      obtain ⟨_, _, -, rfl⟩ := nextEncode_eq hs'
      apply hs.of_eq
      · rfl
      · rfl
      · rfl
      · rfl
      · rfl

end Streaming

end Ssc
