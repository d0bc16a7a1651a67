import SscOnWindows.Service.Lifecycle
import SscOnWindows.Transport.State

/-!
# What the service knows of the device

The worker publishes the capabilities of the device in front of `resolve_codec`, and
`stop_streaming` writes an empty set over them before it reports `Idle`.  Nothing else touches
them.  `set_device_caps` sets the bit that says the capabilities are known in every case, also
for the empty set.

The two stores of `set_device_caps` are one step: up to the second the bits are those of before.
-/

namespace Ssc

open Machine

/-! ### The published capabilities -/

/-- `A2dpService::DeviceCaps`. -/
structure DeviceCaps where
  known : Bool := false
  sbc : Bool := false
  aac : Bool := false
  ssc : Bool := false
  sscUhq : Bool := false
  sscCap : UInt8 := 0
  deriving DecidableEq

/-- `device_caps_bits_` and `device_ssc_cap_`. -/
structure CapsBits where
  bits : BitVec 32 := 0
  sscCap : UInt8 := 0

/-- `set_device_caps`. -/
def setDeviceCaps (sbc aac ssc sscUhq : Bool) (sscCap : UInt8) : CapsBits :=
  let bits : BitVec 32 := 1
  let bits := if sbc then bits ||| 1 <<< 1 else bits
  let bits := if aac then bits ||| 1 <<< 2 else bits
  let bits := if ssc then bits ||| 1 <<< 3 else bits
  let bits := if sscUhq then bits ||| 1 <<< 4 else bits
  { bits := bits, sscCap := sscCap }

/-- `get_device_caps`. -/
def CapsBits.getDeviceCaps (c : CapsBits) : DeviceCaps where
  known := c.bits &&& 1 != 0
  sbc := c.bits &&& 1 <<< 1 != 0
  aac := c.bits &&& 1 <<< 2 != 0
  ssc := c.bits &&& 1 <<< 3 != 0
  sscUhq := c.bits &&& 1 <<< 4 != 0
  sscCap := c.sscCap

/-- Whatever is set is known. -/
theorem getDeviceCaps_setDeviceCaps (sbc aac ssc sscUhq : Bool) (sscCap : UInt8) :
  (setDeviceCaps sbc aac ssc sscUhq sscCap).getDeviceCaps
    = { known := true, sbc := sbc, aac := aac, ssc := ssc, sscUhq := sscUhq, sscCap := sscCap }
  := by
  cases sbc <;> cases aac <;> cases ssc <;> cases sscUhq <;>
    simp [setDeviceCaps, CapsBits.getDeviceCaps]

/-- What the service has to report of a device with the capabilities. -/
def RemoteCodecCaps.reported (c : RemoteCodecCaps) : DeviceCaps where
  known := true
  sbc := c.sbc
  aac := c.aac
  ssc := c.ssc
  sscUhq := c.sscUhq
  sscCap := c.sscCap

/-- A link session is up. -/
def ServiceState.live : ServiceState → Bool
  | connecting | streaming | reconnecting => true
  | idle | error => false

/-- The caller is in `start_streaming`, in front of the next worker. -/
def Caller.inStart : Caller → Bool
  | startReset | startRunning | startNotify | startJoin | startSpawn => true
  | _ => false

/-- On its way to the codec the worker reports `Connecting`. -/
def WorkerPoint.connects : WorkerPoint → Bool
  | ensureBtstackInit | afterInit | connectA2dp | afterFailedConnect | afterConnect
  | resolveCodec => true
  | _ => false

/-! ### The service -/

/-- The service with the capabilities it reports, whether the worker has published them, and
whether `stop_streaming` is in front of clearing them.  It is recorded what the device of the
session has: the session begins with the call of `start_streaming`, and its worker is the one
spawned by it. -/
structure ReportingService where
  service : A2dpService := .start
  caps : CapsBits := {}
  published : Bool := false
  clearing : Bool := false
  link : Option RemoteCodecCaps := none

/-- A step of the service, or the worker publishes what the transport has discovered. -/
inductive ReportingAction where
  | service (a : ServiceAction)
  | publish (rawCaps : RemoteCodecCaps)
  deriving DecidableEq

namespace ReportingService

/-- The service as it is built. -/
def start : ReportingService := {}

/-- The worker is in front of `set_device_caps`. -/
def publishes (s : ReportingService) : Bool :=
  s.service.worker.any fun w =>
    w.stores.isEmpty && w.point = .resolveCodec && !s.published

/-- One step. -/
def next (s : ReportingService) : ReportingAction → Option ReportingService
  | .publish rawCaps =>
      if s.publishes then
        some { s with
          caps := setDeviceCaps rawCaps.sbc rawCaps.aac rawCaps.ssc rawCaps.sscUhq rawCaps.sscCap
          published := true
          link := if s.service.caller.inStart then s.link else some rawCaps }
      else none
  | .service .startStreaming =>
      (s.service.next .startStreaming).map fun service =>
        { s with service := service, link := if s.service.running then s.link else none }
  | .service .stopStreaming =>
      (s.service.next .stopStreaming).map fun service => { s with service := service }
  | .service .caller =>
      if s.clearing then
        some { s with caps := setDeviceCaps false false false false 0, clearing := false }
      else
        (s.service.next .caller).map fun service =>
          { s with
            service := service
            published := s.published && s.service.caller ≠ .startSpawn
            clearing := s.service.caller = .stopClear }
  | .service (.worker a) =>
      if s.publishes && a matches .proceed _ then none
      else (s.service.next (.worker a)).map fun service => { s with service := service }

/-- What each step does, and from where it is taken. -/
inductive Steps (s : ReportingService) : ReportingAction → ReportingService → Prop
  | publish {rawCaps : RemoteCodecCaps} {w : Worker} (hworker : s.service.worker = some w)
      (hstores : w.stores = []) (hpoint : w.point = .resolveCodec) :
      Steps s (.publish rawCaps) { s with
        caps := setDeviceCaps rawCaps.sbc rawCaps.aac rawCaps.ssc rawCaps.sscUhq rawCaps.sscCap
        published := true
        link := if s.service.caller.inStart then s.link else some rawCaps }
  | startStreaming {service : A2dpService}
      (hservice : s.service.next .startStreaming = some service) :
      Steps s (.service .startStreaming)
        { s with service := service, link := if s.service.running then s.link else none }
  | stopStreaming {service : A2dpService}
      (hservice : s.service.next .stopStreaming = some service) :
      Steps s (.service .stopStreaming) { s with service := service }
  | clear (hclearing : s.clearing = true) :
      Steps s (.service .caller)
        { s with caps := setDeviceCaps false false false false 0, clearing := false }
  | caller {service : A2dpService} (hclearing : s.clearing = false)
      (hservice : s.service.next .caller = some service) :
      Steps s (.service .caller) { s with
        service := service
        published := s.published && s.service.caller ≠ .startSpawn
        clearing := s.service.caller = .stopClear }
  | worker {a : WorkerAction} {service : A2dpService}
      (hservice : s.service.next (.worker a) = some service) :
      Steps s (.service (.worker a)) { s with service := service }

variable {s t : ReportingService}

/-- Every step is one of these. -/
theorem steps_next {a : ReportingAction} (h : s.next a = some t) :
  s.Steps a t
  := by
  cases a with
  | publish rawCaps =>
      obtain ⟨hpublishes, h⟩ := Option.ite_none_right_eq_some.mp h
      obtain rfl := Option.some.inj h
      obtain ⟨w, hworker, hw⟩ := (Option.any_eq_true _ _).mp hpublishes
      simp only [Bool.and_eq_true, List.isEmpty_iff, decide_eq_true_eq] at hw
      apply Steps.publish hworker hw.1.1 hw.1.2
  | service b =>
      cases b with
      | startStreaming =>
          obtain ⟨service, hservice, rfl⟩ := Option.map_eq_some_iff.mp h
          apply Steps.startStreaming hservice
      | stopStreaming =>
          obtain ⟨service, hservice, rfl⟩ := Option.map_eq_some_iff.mp h
          apply Steps.stopStreaming hservice
      | caller =>
          rw [next] at h
          cases hclearing : s.clearing with
          | true =>
              rw [hclearing, if_pos rfl] at h
              obtain rfl := Option.some.inj h
              apply Steps.clear hclearing
          | false =>
              rw [hclearing, if_neg Bool.false_ne_true] at h
              obtain ⟨service, hservice, rfl⟩ := Option.map_eq_some_iff.mp h
              apply Steps.caller hclearing hservice
      | worker b =>
          obtain ⟨-, h⟩ := Option.ite_none_left_eq_some.mp h
          obtain ⟨service, hservice, rfl⟩ := Option.map_eq_some_iff.mp h
          apply Steps.worker hservice

/-! ### Knowing the device -/

/-- The capabilities are known only while a link session is up, and are those of its device. -/
def Truthful (s : ReportingService) : Prop :=
  s.caps.getDeviceCaps.known = true →
    s.service.state.live = true ∧ s.link.map RemoteCodecCaps.reported = some s.caps.getDeviceCaps

instance (s : ReportingService) : Decidable s.Truthful :=
  inferInstanceAs (Decidable (_ → _ ∧ _))

/-- The worker reports that it has ended. -/
def reportsEnd (s : ReportingService) (a : WorkerAction) : Bool :=
  s.service.worker.any fun w =>
    match A2dpService.workerStore w a with
    | some (.notifyState state) => !state.live
    | _ => false

/-- A step that does not make `known` wrong.  The worker publishes for its own session, and
once the capabilities are known no session begins, no worker reports that it has ended, and
`stop_streaming` does not report `Idle`; it clears only the capabilities of a device without
any. -/
def Honest (s : ReportingService) : ReportingAction → Prop
  | .publish _ => s.service.caller.inStart = false
  | .service .startStreaming =>
      s.caps.getDeviceCaps.known = true → s.service.running = true
  | .service .stopStreaming => True
  | .service .caller =>
      (s.clearing = true → s.link.map RemoteCodecCaps.reported = some { known := true })
        ∧ (s.clearing = false → s.service.caller = .stopNotify →
          s.caps.getDeviceCaps.known = false)
  | .service (.worker a) => s.caps.getDeviceCaps.known = true → s.reportsEnd a = false

instance (s : ReportingService) (a : ReportingAction) : Decidable (s.Honest a) :=
  match a with
  | .publish _ => inferInstanceAs (Decidable (_ = _))
  | .service .startStreaming => inferInstanceAs (Decidable (_ → _))
  | .service .stopStreaming => inferInstanceAs (Decidable True)
  | .service .caller => inferInstanceAs (Decidable ((_ → _) ∧ (_ → _ → _)))
  | .service (.worker _) => inferInstanceAs (Decidable (_ → _))

/-- What carries the law from step to step. -/
structure Sound (s : ReportingService) : Prop where
  truthful : s.Truthful
  starting : s.service.caller.inStart = true → s.link = none
  link : s.caps.getDeviceCaps.known = false → s.link = none
  cleared : s.service.caller = .stopNotify → s.clearing = false →
    s.caps.getDeviceCaps.known = true
  connecting : ∀ w, s.service.worker = some w → w.point.connects = true →
    w.stores = [.notifyState .connecting] ∨ w.stores = [] ∧ s.service.state = .connecting

theorem sound_start :
  start.Sound
  where
  truthful := nofun
  starting := nofun
  link := fun _ => rfl
  cleared := nofun
  connecting := nofun

/-- Behind `set_device_caps` the capabilities are known, whatever they are. -/
theorem getDeviceCaps_publish (c : RemoteCodecCaps) :
  (setDeviceCaps c.sbc c.aac c.ssc c.sscUhq c.sscCap).getDeviceCaps = c.reported
  := getDeviceCaps_setDeviceCaps c.sbc c.aac c.ssc c.sscUhq c.sscCap

/-- A worker between its first report and the codec keeps the state at `Connecting` in front
of every point it waits at. -/
theorem connects_branch {stopRequested ok : Bool} {p : WorkerPoint}
    (h : (p.branch stopRequested ok).2.connects = true) :
  (p.branch stopRequested ok).1 = [.notifyState .connecting]
    ∨ (p.branch stopRequested ok).1 = [] ∧ p.connects = true
  := by
  cases p with
  | reconnectAttempt attempt =>
      rw [WorkerPoint.branch] at h
      split at h <;> contradiction
  | reconnectSleep attempt | reconnect attempt =>
      cases stopRequested <;> cases ok <;> contradiction
  | _ =>
      revert h
      cases stopRequested <;> cases ok <;> decide

/-- A step of the worker keeps the state at `Connecting` up to the codec. -/
theorem connecting_worker {service service' : A2dpService} {a : WorkerAction}
    (hconnecting : ∀ w, service.worker = some w → w.point.connects = true →
      w.stores = [.notifyState .connecting] ∨ w.stores = [] ∧ service.state = .connecting)
    (h : service.next (.worker a) = some service') {w : Worker} (hworker : service'.worker = some w)
    (hconnects : w.point.connects = true) :
  w.stores = [.notifyState .connecting] ∨ w.stores = [] ∧ service'.state = .connecting
  := by
  cases A2dpService.steps_next h with
  | @worker _ v v' hv hnext =>
      obtain rfl := Option.some.inj hworker
      rcases Worker.next_cases hnext with ⟨ok, store, rest, rfl, hstores, rfl⟩
          | ⟨ok, rfl, hstores, hended, rfl⟩ | ⟨rfl, hloop, rfl⟩ | ⟨rfl, hcrashed, hended, rfl⟩
      · right
        rcases hconnecting v hv hconnects with hall | ⟨hnone, -⟩
        · rw [hstores] at hall
          obtain ⟨rfl, rfl⟩ := List.cons.inj hall
          simp [A2dpService.workerStore, hstores, A2dpService.store]
        · rw [hstores] at hnone
          contradiction
      · apply (connects_branch hconnects).imp_right
        rintro ⟨hnone, hpoint⟩
        constructor
        · apply hnone
        · rcases hconnecting v hv hpoint with hall | ⟨-, hstate⟩
          · rw [hstores] at hall
            contradiction
          · simpa [A2dpService.workerStore, hstores] using hstate
      · contradiction
      · contradiction

/-- A step of the caller leaves the worker as it is up to the request to stop it, or takes it
away, or spawns one that has not begun. -/
theorem connecting_caller {service service' : A2dpService}
    (hconnecting : ∀ w, service.worker = some w → w.point.connects = true →
      w.stores = [.notifyState .connecting] ∨ w.stores = [] ∧ service.state = .connecting)
    (h : service.next .caller = some service') (hnotify : service.caller ≠ .stopNotify) {w : Worker}
    (hworker : service'.worker = some w) (hconnects : w.point.connects = true) :
  w.stores = [.notifyState .connecting] ∨ w.stores = [] ∧ service'.state = .connecting
  := by
  cases A2dpService.steps_next h with
  | startReset | startRunning | stopWait | stopWaited | stopClear =>
      apply hconnecting w hworker hconnects
  | startNotify =>
      apply (hconnecting w hworker hconnects).imp_right
      rintro ⟨hnone, -⟩
      exact ⟨hnone, rfl⟩
  | startJoin => contradiction
  | startSpawn =>
      obtain rfl := Option.some.inj hworker
      contradiction
  | stopNotify hcaller => contradiction

/-- A step of the caller other than its report of `Idle` keeps a state that is live. -/
theorem live_caller {service service' : A2dpService} (h : service.next .caller = some service')
    (hnotify : service.caller ≠ .stopNotify) (hlive : service.state.live = true) :
  service'.state.live = true
  := by
  cases A2dpService.steps_next h with
  | startReset | startRunning | stopWait | stopWaited | stopClear | startJoin | startSpawn =>
      apply hlive
  | startNotify => rfl
  | stopNotify hcaller => contradiction

/-- Only the caller's store to `running_` comes in front of its report of `Idle`. -/
theorem stopClear_of_stopNotify {service service' : A2dpService}
    (h : service.next .caller = some service') (hnotify : service'.caller = .stopNotify) :
  service.caller = .stopClear
  := by
  cases A2dpService.steps_next h with
  | stopClear hcaller => apply hcaller
  | _ => contradiction

/-- `start_streaming` is entered by its call only. -/
theorem inStart_of_caller {service service' : A2dpService}
    (h : service.next .caller = some service') (hstart : service'.caller.inStart = true) :
  service.caller.inStart = true
  := by
  cases A2dpService.steps_next h with
  | startReset hcaller | startRunning hcaller | startNotify hcaller | startJoin hcaller =>
      rw [hcaller]
      rfl
  | _ => contradiction

/-- What is known is known of a link. -/
theorem Sound.known_of_link (hs : s.Sound) {c : RemoteCodecCaps} (hlink : s.link = some c) :
  s.caps.getDeviceCaps.known = true
  := by
  rw [← Bool.not_eq_false]
  intro hknown
  rw [hs.link hknown] at hlink
  contradiction

/-- At the codec the state is `Connecting`. -/
theorem Sound.state_of_resolveCodec (hs : s.Sound) {w : Worker}
    (hworker : s.service.worker = some w) (hstores : w.stores = [])
    (hpoint : w.point = .resolveCodec) :
  s.service.state = .connecting
  := by
  have hconnects : w.point.connects = true := by
    rw [hpoint]
    rfl
  rcases hs.connecting w hworker hconnects with hall | ⟨-, hstate⟩
  · rw [hstores] at hall
    contradiction
  · apply hstate

/-- The state after a step of the worker is the one before, or the one it reports. -/
theorem state_worker {service service' : A2dpService} {a : WorkerAction}
    (h : service.next (.worker a) = some service') :
  service'.caller = service.caller
    ∧ (service'.state = service.state
      ∨ ∃ w, service.worker = some w
        ∧ A2dpService.workerStore w a = some (.notifyState service'.state))
  := by
  cases A2dpService.steps_next h with
  | @worker _ w w' hworker hnext =>
      constructor
      · apply A2dpService.store_caller
      · cases hstore : A2dpService.workerStore w a with
        | none =>
            left
            rfl
        | some store =>
            cases store with
            | notifyState state =>
                right
                use w, hworker, hstore
            | clearRunning =>
                left
                rfl

/-- The state is what a worker reports. -/
theorem state_of_workerStore {service service' : A2dpService} {a : WorkerAction} {w : Worker}
    {state : ServiceState} (h : service.next (.worker a) = some service')
    (hworker : service.worker = some w)
    (hstore : A2dpService.workerStore w a = some (.notifyState state)) :
  service'.state = state
  := by
  cases A2dpService.steps_next h with
  | worker hv hnext =>
      obtain rfl := Option.some.inj (hworker.symm.trans hv)
      rw [hstore]
      rfl

/-- Honest steps keep the law. -/
theorem sound_next {a : ReportingAction} (hs : s.Sound) (hhonest : s.Honest a)
    (h : s.next a = some t) :
  t.Sound
  := by
  cases steps_next h with
  | @publish rawCaps w hworker hstores hpoint =>
      have hknown : (setDeviceCaps rawCaps.sbc rawCaps.aac rawCaps.ssc rawCaps.sscUhq
          rawCaps.sscCap).getDeviceCaps.known = true := by
        rw [getDeviceCaps_publish]
        rfl
      have hstarting : s.service.caller.inStart = false := hhonest
      constructor
      · intro _
        dsimp only
        rw [hs.state_of_resolveCodec hworker hstores hpoint, hstarting, getDeviceCaps_publish]
        exact ⟨rfl, rfl⟩
      · intro hstart
        rw [hstarting] at hstart
        contradiction
      · intro hunknown
        rw [hknown] at hunknown
        contradiction
      · intro _ _
        apply hknown
      · apply hs.connecting
  | startStreaming hservice =>
      cases A2dpService.steps_next hservice with
      | startRefused hcaller hrunning =>
          rw [if_pos hrunning]
          apply hs
      | startStreaming hcaller hrunning =>
          have hunknown : s.caps.getDeviceCaps.known = false := by
            rw [← Bool.not_eq_true]
            intro hknown
            have hset : s.service.running = true := hhonest hknown
            rw [hrunning] at hset
            contradiction
          constructor
          · intro hknown
            rw [hunknown] at hknown
            contradiction
          · intro _
            rw [hrunning]
            rfl
          · intro _
            rw [hrunning]
            rfl
          · nofun
          · apply hs.connecting
  | stopStreaming hservice =>
      cases A2dpService.steps_next hservice with
      | stopStreaming hcaller =>
          constructor
          · apply hs.truthful
          · nofun
          · apply hs.link
          · nofun
          · intro w hworker hconnects
            obtain ⟨v, hv, rfl⟩ := Option.map_eq_some_iff.mp hworker
            apply hs.connecting v hv hconnects
  | clear hclearing =>
      have hlink : s.link.map RemoteCodecCaps.reported = some { known := true } :=
        hhonest.1 hclearing
      obtain ⟨c, hc, -⟩ := Option.map_eq_some_iff.mp hlink
      constructor
      · intro _
        dsimp only
        rw [getDeviceCaps_setDeviceCaps]
        constructor
        · apply (hs.truthful (hs.known_of_link hc)).1
        · apply hlink
      · apply hs.starting
      · intro hunknown
        rw [getDeviceCaps_setDeviceCaps] at hunknown
        contradiction
      · intro _ _
        rw [getDeviceCaps_setDeviceCaps]
      · apply hs.connecting
  | caller hclearing hservice =>
      have hnotify : s.service.caller ≠ .stopNotify := by
        intro hcaller
        have hknown := hs.cleared hcaller hclearing
        rw [hhonest.2 hclearing hcaller] at hknown
        contradiction
      constructor
      · intro hknown
        obtain ⟨hlive, hlink⟩ := hs.truthful hknown
        constructor
        · apply live_caller hservice hnotify hlive
        · apply hlink
      · intro hstart
        apply hs.starting (inStart_of_caller hservice hstart)
      · apply hs.link
      · intro hcaller hnot
        rw [decide_eq_false_iff_not] at hnot
        apply absurd (stopClear_of_stopNotify hservice hcaller) hnot
      · intro w hworker hconnects
        apply connecting_caller hs.connecting hservice hnotify hworker hconnects
  | worker hservice =>
      obtain ⟨hcaller, hstate⟩ := state_worker hservice
      constructor
      · intro hknown
        obtain ⟨hlive, hlink⟩ := hs.truthful hknown
        constructor
        · rcases hstate with hstate | ⟨w, hworker, hstore⟩
          · dsimp only
            rw [hstate, hlive]
          · have hreports : s.reportsEnd _ = false := hhonest hknown
            rw [reportsEnd, hworker, Option.any_some, hstore, Bool.not_eq_false'] at hreports
            apply hreports
        · apply hlink
      · intro hstart
        rw [hcaller] at hstart
        apply hs.starting hstart
      · apply hs.link
      · intro hnotify
        apply hs.cleared
        rw [← hcaller, hnotify]
      · intro w hworker hconnects
        apply connecting_worker hs.connecting hservice hworker hconnects

/-- Every other step breaks it. -/
theorem not_truthful_of_not_honest {a : ReportingAction} (hs : s.Sound) (hhonest : ¬ s.Honest a)
    (h : s.next a = some t) :
  ¬ t.Truthful
  := by
  cases steps_next h with
  | publish hworker hstores hpoint =>
      have hstart : s.service.caller.inStart = true := Bool.of_not_eq_false hhonest
      intro htruthful
      obtain ⟨-, hlink⟩ := htruthful (by rw [getDeviceCaps_publish]; rfl)
      rw [if_pos hstart, hs.starting hstart] at hlink
      contradiction
  | startStreaming hservice =>
      have hrefused : ¬ (s.caps.getDeviceCaps.known = true → s.service.running = true) := hhonest
      rw [Classical.not_imp] at hrefused
      intro htruthful
      obtain ⟨-, hlink⟩ := htruthful hrefused.1
      rw [if_neg hrefused.2] at hlink
      contradiction
  | stopStreaming hservice => apply absurd trivial hhonest
  | clear hclearing =>
      intro htruthful
      apply hhonest
      obtain ⟨-, hlink⟩ := htruthful (by rw [getDeviceCaps_setDeviceCaps])
      rw [getDeviceCaps_setDeviceCaps] at hlink
      constructor
      · intro _
        apply hlink
      · intro hnot
        rw [hclearing] at hnot
        contradiction
  | caller hclearing hservice =>
      intro htruthful
      apply hhonest
      constructor
      · intro hset
        rw [hclearing] at hset
        contradiction
      · intro _ hcaller
        rw [← Bool.not_eq_true]
        intro hknown
        obtain ⟨hlive, -⟩ := htruthful hknown
        rw [A2dpService.next, A2dpService.nextCaller, hcaller] at hservice
        obtain rfl := Option.some.inj hservice
        contradiction
  | @worker b service hservice =>
      intro htruthful
      apply hhonest
      intro hknown
      obtain ⟨hlive, -⟩ := htruthful hknown
      cases hworker : s.service.worker with
      | none => rw [reportsEnd, hworker, Option.any_none]
      | some w =>
          rw [reportsEnd, hworker, Option.any_some]
          cases hstore : A2dpService.workerStore w b with
          | none => rfl
          | some store =>
              cases store with
              | notifyState state =>
                  rw [← state_of_workerStore hservice hworker hstore, Bool.not_eq_false']
                  apply hlive
              | clearRunning => rfl

/-- In every state of a run the capabilities of the device are known only while a link session
is up, and are those of its device, exactly when every step of the run is honest: no
`stop_streaming` clears them, unless they are empty, and once they are known no worker reports
that it has ended and no session begins. -/
theorem truthful_iff {as : List ReportingAction} (h : Run next always start as t) :
  (∀ u, Passes next start as u → u.Truthful) ↔ Run next Honest start as t
  := by
  apply passes_iff h sound_start
  · intro s hs
    apply hs.truthful
  · intro s a t hs hhonest hstep
    apply sound_next hs hhonest hstep
  · intro s a t hs hhonest hstep
    apply not_truthful_of_not_honest hs hhonest hstep

/-- A session up to the capabilities of a device that knows SBC, and up to its main loop. -/
def session : List ReportingAction :=
  List.flatten [[.service .startStreaming], List.replicate 5 (.service .caller),
    List.replicate 7 (.service (.worker (.proceed true))), [.publish { sbc := true }],
    List.replicate 12 (.service (.worker (.proceed true)))]

/-- In a session that goes on all that is reported is true. -/
theorem truthful_session :
  ∃ t, Run next Honest start session t ∧ ∀ u, Passes next start session u → u.Truthful
  := by
  have hrun : Run next Honest start session _ := run_of_exec_guarded rfl
  refine ⟨_, hrun, ?_⟩
  apply (truthful_iff hrun.toAlways).mpr hrun

/-- A service that is stopped without ever having been started knows a device. -/
theorem not_truthful_stop :
  ¬ ∀ as t, Run next always start as t → ∀ u, Passes next start as u → u.Truthful
  := by
  intro h
  have hrun : Run next always start
      [.service .stopStreaming, .service .caller, .service .caller, .service .caller,
        .service .caller] _ :=
    run_of_exec rfl
  have htruthful := h _ _ hrun _ ⟨_, List.prefix_rfl, hrun⟩
  revert htruthful
  decide

end ReportingService

end Ssc
