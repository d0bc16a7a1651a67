import SscOnWindows.Lib.Loan
import SscOnWindows.Service.WayOut

/-!
# The default playback device in a session of the service

A session in `VirtualDevice` mode with `auto_switch_device` makes the virtual device the
default endpoint and captures from it.  `original_default_device_` remembers the endpoint that
was the default, as `get_default_device_id` reported it: the empty string, modelled by `none`,
when it could not tell or there was no endpoint.

Windows has a default endpoint for each role.  `get_default_device_id` asks for the one for
`eConsole`; `set_default_device`, which succeeds here, sets the ones for `eConsole` and for
`eMultimedia`.
-/

namespace Ssc

open Machine Loan

/-- The default endpoints for the roles `eConsole` and `eMultimedia`. -/
structure DefaultEndpoints (δ : Type*) where
  console : Option δ
  multimedia : Option δ
  deriving DecidableEq

namespace DefaultEndpoints

variable {δ : Type*}

/-- `AudioDeviceEnumerator::get_default_device_id`. -/
def getDefaultDeviceId (e : DefaultEndpoints δ) : Option δ :=
  e.console

/-- The endpoints behind `AudioDeviceEnumerator::set_default_device`. -/
def setDefaultDevice (device : δ) : DefaultEndpoints δ where
  console := some device
  multimedia := some device

end DefaultEndpoints

/-- How a program gets at the default endpoints. -/
def endpoints {δ : Type*} : Access δ (DefaultEndpoints δ) where
  read := DefaultEndpoints.getDefaultDeviceId
  write := DefaultEndpoints.setDefaultDevice
  read_write _ := rfl

/-- What is written back is what was there when the role that is asked for has an endpoint, and
the other role has the same. -/
theorem endpoints_remembers_iff {δ : Type*} {l : Setting δ (DefaultEndpoints δ)}
    {answered : Bool} :
  (Op.switch answered).Remembers endpoints l
    ↔ answered = true ∧ l.current.console.isSome = true
      ∧ l.current.multimedia = l.current.console
  := by
  obtain ⟨⟨console, multimedia⟩, original⟩ := l
  cases console with
  | none => simp [Op.Remembers, endpoints, DefaultEndpoints.getDefaultDeviceId]
  | some device => simp [Op.Remembers, endpoints, DefaultEndpoints.getDefaultDeviceId,
      DefaultEndpoints.setDefaultDevice, eq_comm]

namespace WorkerPoint

/-- The point is not before the switch of the default device. -/
def pastSwitch : WorkerPoint → Bool
  | parseAddress | ensureBtstackInit | afterInit | connectA2dp | afterFailedConnect
  | afterConnect | resolveCodec => false
  | _ => true

/-- The way the worker takes from the point restores the default device before its store to
`running_`: it gives up the capture or the encode thread, or leads out of the main loop. -/
def restores (stopRequested ok : Bool) : WorkerPoint → Bool
  | captureInit | createThread | captureStart => !ok
  | p => (p.branch stopRequested ok).2 = cleanup

/-- A failure at the point makes the worker return without restoring the default device. -/
def abandons : WorkerPoint → Bool
  | configureCodec | createEncoder | encoderInit | startStream => true
  | _ => false

/-- Behind the switch the worker does not come before it again. -/
theorem branch_pastSwitch {stopRequested ok : Bool} {p : WorkerPoint} (hp : p.pastSwitch = true) :
  (p.branch stopRequested ok).2.pastSwitch = true
  := by
  cases p with
  | reconnectAttempt attempt =>
      rw [branch]
      split <;> rfl
  | _ => cases stopRequested <;> cases ok <;> first | rfl | contradiction

theorem restores_reconnectAttempt (stopRequested ok : Bool) (attempt : Nat) :
  restores stopRequested ok (reconnectAttempt attempt)
    = decide ((branch stopRequested ok (reconnectAttempt attempt)).2 = cleanup)
  := rfl

/-- A way that restores the default device leads out of the session, with the store to
`running_` on it. -/
theorem branch_restores {stopRequested ok : Bool} {p : WorkerPoint}
    (hp : p.restores stopRequested ok = true) :
  (p.branch stopRequested ok).2.leaving = true ∧ .clearRunning ∈ (p.branch stopRequested ok).1
  := by
  cases p with
  | reconnectAttempt attempt =>
      rw [restores_reconnectAttempt, branch] at hp
      rw [branch]
      split at hp
      · contradiction
      · rename_i hattempt
        rw [if_neg hattempt]
        simp [leaving]
  | _ =>
      cases stopRequested <;> cases ok <;>
        first | contradiction | simp [branch, Branch.fail, leaving]

/-- A failure the worker returns from at once restores nothing. -/
theorem branch_abandons {stopRequested : Bool} {p : WorkerPoint} (hp : p.abandons = true) :
  p.leaving = false ∧ (p.branch stopRequested false).2.leaving = true
    ∧ p.restores stopRequested false = false
  := by
  cases p with
  | configureCodec | createEncoder | encoderInit | startStream => exact ⟨rfl, rfl, rfl⟩
  | _ => contradiction

/-- Every other way behind the switch that leads out of the session restores the default
device. -/
theorem branch_stays {stopRequested ok : Bool} {p : WorkerPoint} (hpast : p.pastSwitch = true)
    (hleaving : p.leaving = false) (hrestores : p.restores stopRequested ok = false)
    (habandons : (p.abandons && !ok) = false) :
  (p.branch stopRequested ok).2.leaving = false
  := by
  cases p with
  | reconnectAttempt attempt =>
      rw [restores_reconnectAttempt, branch] at hrestores
      rw [branch]
      split at hrestores
      · rename_i hattempt
        rw [if_pos hattempt]
        rfl
      · contradiction
  | _ => cases stopRequested <;> cases ok <;> first | rfl | contradiction

/-- A worker that is leaving is on no new way that restores the default device. -/
theorem restores_of_leaving {stopRequested ok : Bool} {p : WorkerPoint}
    (hleaving : p.leaving = true) :
  p.restores stopRequested ok = false
  := by
  cases p with
  | cleanup | returning | ended => cases stopRequested <;> rfl
  | _ => contradiction

theorem pastSwitch_of_inLoop {p : WorkerPoint} (h : p.inLoop = true) :
  p.pastSwitch = true ∧ p.leaving = false
  := by
  cases p with
  | mainLoop | checkDisconnected | reconnectAttempt _ | reconnectSleep _ | reconnect _ =>
      exact ⟨rfl, rfl⟩
  | _ => contradiction

end WorkerPoint

/-- A worker in `VirtualDevice` mode with automatic switching: whether it has switched the
default device, and whether it is on a way that restores it. -/
structure SwitchingWorker where
  worker : Worker := {}
  stopRequested : Bool := false
  switched : Bool := false
  restores : Bool := false

/-- The steps of the worker, with the answer to `get_default_device_id` in the step that
switches, and the callers' request to stop. -/
inductive SwitchingAction where
  | requestStop
  | switch (answered : Bool)
  | worker (a : WorkerAction)
  deriving DecidableEq

namespace SwitchingWorker

/-- The worker is in front of `wasapi_capture.init`. -/
def atCapture (s : SwitchingWorker) : Bool :=
  s.worker.stores.isEmpty && s.worker.point = .captureInit

/-- The worker is on a way that restores the default device after the step. -/
def restoresAfter (s : SwitchingWorker) : WorkerAction → Bool
  | .proceed ok =>
      match s.worker.stores with
      | store :: _ => s.restores && store ≠ .clearRunning
      | [] => s.switched && s.worker.point.restores s.stopRequested ok
  | .throw => s.switched
  | .crash => false

/-- One step.  The capture is initialised after the switch; what fails there before is the
lookup of the virtual device. -/
def step (s : SwitchingWorker) : SwitchingAction → Option SwitchingWorker
  | .requestStop => some { s with stopRequested := true }
  | .switch _ =>
      if s.atCapture && !s.switched then some { s with switched := true } else none
  | .worker a =>
      if s.atCapture && !s.switched && a = .proceed true then none
      else (s.worker.next s.stopRequested a).map fun w =>
        { s with worker := w, restores := s.restoresAfter a }

/-- What a step does to the default device.  It is restored in front of the store to
`running_`. -/
def op (s : SwitchingWorker) : SwitchingAction → Op
  | .switch answered => .switch answered
  | .worker (.proceed _) =>
      if s.restores && s.worker.stores.head? = some .clearRunning then .restore true else .keep
  | _ => .keep

/-- Where the worker is with the default device. -/
def phase (s : SwitchingWorker) : Loan.Phase :=
  if s.switched then
    if s.worker.point.leaving && !s.restores then .after else .away
  else .before

/-- The step makes the worker leave with the default device switched: a failure in between the
start of the capture and the stream, or a crash. -/
def forgets (s : SwitchingWorker) : SwitchingAction → Bool
  | .worker (.proceed ok) =>
      s.switched && s.worker.stores.isEmpty && s.worker.point.abandons && !ok
  | .worker .crash => s.phase = .away
  | _ => false

/-- The worker as a program that switches the default device and restores it. -/
def program : Loan.Program SwitchingWorker SwitchingAction where
  step := step
  op := op
  phase := phase
  forgets := forgets

/-- What holds in every run: a worker that is going to restore the default device has switched
it and has its store to `running_` ahead. -/
structure Sound (s : SwitchingWorker) : Prop where
  restoring : s.restores = true →
    s.switched = true ∧ s.worker.point.leaving = true ∧ .clearRunning ∈ s.worker.stores
  past : s.switched = true → s.worker.point.pastSwitch = true
  ended : s.worker.point = .ended → s.worker.stores = []

theorem sound_start :
  Sound {}
  where
  restoring := nofun
  past := nofun
  ended := nofun

/-- What a step can be: a request to stop, the switch, or a step of the worker. -/
theorem step_cases {s t : SwitchingWorker} {a : SwitchingAction} (h : s.step a = some t) :
  (a = .requestStop ∧ t = { s with stopRequested := true })
    ∨ (∃ answered, a = .switch answered ∧ s.worker.point = .captureInit ∧ s.switched = false
      ∧ t = { s with switched := true })
    ∨ (∃ b w, a = .worker b ∧ s.worker.next s.stopRequested b = some w
      ∧ t = { s with worker := w, restores := s.restoresAfter b })
  := by
  cases a with
  | requestStop =>
      left
      exact ⟨rfl, (Option.some.inj h).symm⟩
  | switch answered =>
      right; left
      obtain ⟨hswitch, h⟩ := Option.ite_none_right_eq_some.mp h
      simp only [atCapture, Bool.and_eq_true, decide_eq_true_eq, Bool.not_eq_true'] at hswitch
      use answered
      exact ⟨rfl, hswitch.1.2, hswitch.2, (Option.some.inj h).symm⟩
  | worker b =>
      right; right
      obtain ⟨-, h⟩ := Option.ite_none_left_eq_some.mp h
      obtain ⟨w, hw, rfl⟩ := Option.map_eq_some_iff.mp h
      use b, w

/-- In front of the switch the worker is on no way that restores the default device. -/
theorem Sound.restores_of_not_switched {s : SwitchingWorker} (hs : s.Sound)
    (hswitched : s.switched = false) :
  s.restores = false
  := by
  rw [← Bool.not_eq_true]
  intro hrestores
  apply absurd (hs.restoring hrestores).1
  simp [hswitched]

/-- The steps of the worker keep what holds in every run. -/
theorem sound_step {s t : SwitchingWorker} {a : SwitchingAction} (hs : s.Sound)
    (h : s.step a = some t) :
  t.Sound
  := by
  rcases step_cases h with ⟨rfl, rfl⟩ | ⟨answered, rfl, hpoint, hswitched, rfl⟩
      | ⟨b, w, rfl, hw, rfl⟩
  · exact ⟨hs.restoring, hs.past, hs.ended⟩
  · constructor
    · intro hrestores
      rw [hs.restores_of_not_switched hswitched] at hrestores
      contradiction
    · intro _
      simp only [hpoint, WorkerPoint.pastSwitch]
    · apply hs.ended
  · constructor
    · intro hrestores
      simp only [restoresAfter] at hrestores
      rcases Worker.next_cases hw with ⟨ok, store, rest, rfl, hstores, rfl⟩
          | ⟨ok, rfl, hstores, hended, rfl⟩ | ⟨rfl, hloop, rfl⟩ | ⟨rfl, hcrashed, hended, rfl⟩
      · simp only [hstores, Bool.and_eq_true, decide_eq_true_eq] at hrestores
        obtain ⟨hswitched, hleaving, hmem⟩ := hs.restoring hrestores.1
        rw [hstores, List.mem_cons, or_iff_right hrestores.2.symm] at hmem
        exact ⟨hswitched, hleaving, hmem⟩
      · simp only [hstores, Bool.and_eq_true] at hrestores
        exact ⟨hrestores.1, WorkerPoint.branch_restores hrestores.2⟩
      · exact ⟨hrestores, rfl, List.mem_singleton_self _⟩
      · contradiction
    · intro hswitched
      rcases Worker.next_cases hw with ⟨ok, store, rest, rfl, hstores, rfl⟩
          | ⟨ok, rfl, hstores, hended, rfl⟩ | ⟨rfl, hloop, rfl⟩ | ⟨rfl, hcrashed, hended, rfl⟩
      · apply hs.past hswitched
      · apply WorkerPoint.branch_pastSwitch (hs.past hswitched)
      · rfl
      · rfl
    · apply A2dpService.ended_next hs.ended hw

/-! ### The phases -/

variable {s t : SwitchingWorker}

theorem phase_before (hswitched : s.switched = false) :
  s.phase = .before
  := by
  rw [phase, hswitched]
  rfl

theorem phase_restoring (hswitched : s.switched = true) (hrestores : s.restores = true) :
  s.phase = .away
  := by
  rw [phase, hswitched, hrestores, Bool.not_true, Bool.and_false]
  rfl

theorem phase_staying (hswitched : s.switched = true) (hleaving : s.worker.point.leaving = false) :
  s.phase = .away
  := by
  rw [phase, hswitched, hleaving, Bool.false_and]
  rfl

theorem phase_after (hswitched : s.switched = true) (hleaving : s.worker.point.leaving = true)
    (hrestores : s.restores = false) :
  s.phase = .after
  := by
  rw [phase, hswitched, hleaving, hrestores]
  rfl

/-- A worker with no store ahead is on no way that restores the default device. -/
theorem Sound.restores_of_nil (hs : s.Sound) (hstores : s.worker.stores = []) :
  s.restores = false
  := by
  rw [← Bool.not_eq_true]
  intro hrestores
  obtain ⟨-, -, hmem⟩ := hs.restoring hrestores
  rw [hstores] at hmem
  contradiction

/-- A store restores the default device when it is the one to `running_` on a way that
restores it, and does nothing to it else. -/
theorem moves_store {ok : Bool} {store : WorkerStore} {rest : List WorkerStore} (hs : s.Sound)
    (hstores : s.worker.stores = store :: rest) (hswitched : t.switched = s.switched)
    (hpoint : t.worker.point = s.worker.point)
    (hrestores : t.restores = (s.restores && store ≠ .clearRunning)) :
  Moves s.phase (s.op (.worker (.proceed ok))) (s.forgets (.worker (.proceed ok))) t.phase
  := by
  have hforgets : s.forgets (.worker (.proceed ok)) = false := by
    simp [forgets, hstores]
  rw [hforgets]
  cases hrestoring : s.restores with
  | false =>
      have hphase : t.phase = s.phase := by
        rw [phase, phase, hswitched, hpoint, hrestores, hrestoring, Bool.false_and]
      rw [hphase, op, hrestoring, Bool.false_and]
      apply Moves.keep
  | true =>
      obtain ⟨hs_switched, hleaving, -⟩ := hs.restoring hrestoring
      rw [hs_switched] at hswitched
      rw [phase_restoring hs_switched hrestoring]
      cases store with
      | clearRunning =>
          rw [phase_after hswitched (by rw [hpoint, hleaving]) (by simp [hrestores]), op, hstores,
            hrestoring]
          apply Moves.restore
      | notifyState state =>
          rw [phase_restoring hswitched (by simp [hrestores, hrestoring]), op, hstores, hrestoring]
          apply Moves.keep

/-- A way from one point to the next does nothing to the default device by itself. -/
theorem moves_branch {ok : Bool} (hs : s.Sound) (hstores : s.worker.stores = [])
    (hs_switched : s.switched = true) (hswitched : t.switched = s.switched)
    (hpoint : t.worker.point = (s.worker.point.branch s.stopRequested ok).2)
    (hrestores : t.restores = s.worker.point.restores s.stopRequested ok)
    (hnext : s.worker.point.leaving = true → t.worker.point.leaving = true) :
  Moves s.phase (s.op (.worker (.proceed ok))) (s.forgets (.worker (.proceed ok))) t.phase
  := by
  have hop : s.op (.worker (.proceed ok)) = .keep := by
    rw [op, hs.restores_of_nil hstores]
    rfl
  have hforgets :
      s.forgets (.worker (.proceed ok)) = (s.worker.point.abandons && !ok) := by
    simp [forgets, hstores, hs_switched]
  rw [hs_switched] at hswitched
  rw [hop, hforgets]
  cases habandons : s.worker.point.abandons && !ok with
  | true =>
      rw [Bool.and_eq_true, Bool.not_eq_true'] at habandons
      obtain ⟨habandons, rfl⟩ := habandons
      obtain ⟨hstays, hleaves, hforgotten⟩ := WorkerPoint.branch_abandons habandons
      rw [phase_staying hs_switched hstays,
        phase_after hswitched (by rw [hpoint, hleaves]) (by rw [hrestores, hforgotten])]
      apply Moves.forget
  | false =>
      cases hleaving : s.worker.point.leaving with
      | true =>
          rw [phase_after hs_switched hleaving (hs.restores_of_nil hstores),
            phase_after hswitched (hnext hleaving)
              (by rw [hrestores, WorkerPoint.restores_of_leaving hleaving])]
          apply Moves.keep
      | false =>
          rw [phase_staying hs_switched hleaving]
          cases hrestoring : s.worker.point.restores s.stopRequested ok with
          | true =>
              rw [phase_restoring hswitched (by rw [hrestores, hrestoring])]
              apply Moves.keep
          | false =>
              rw [phase_staying hswitched (by
                rw [hpoint]
                apply WorkerPoint.branch_stays (hs.past hs_switched) hleaving hrestoring habandons)]
              apply Moves.keep

/-- A crash forgets a default device that is switched. -/
theorem moves_crash (hswitched : s.switched = true) (hphase : t.phase = .after) :
  Moves s.phase (s.op (.worker .crash)) (s.forgets (.worker .crash)) t.phase
  := by
  change Moves s.phase .keep (decide (s.phase = .away)) t.phase
  rw [hphase]
  cases h : s.phase with
  | before =>
      rw [phase, hswitched, if_pos rfl] at h
      split at h <;> contradiction
  | away => apply Moves.forget
  | after => apply Moves.keep

/-- Behind the switch the worker restores the default device, forgets it, or does neither and
does not leave. -/
theorem moves_step {a : SwitchingAction} (hs : s.Sound) (h : s.step a = some t) :
  Moves s.phase (s.op a) (s.forgets a) t.phase
  := by
  rcases step_cases h with ⟨rfl, rfl⟩ | ⟨answered, rfl, hpoint, hswitched, rfl⟩
      | ⟨b, w, rfl, hw, rfl⟩
  · apply Moves.keep
  · rw [phase_before hswitched, phase_staying rfl (by simp [hpoint, WorkerPoint.leaving])]
    apply Moves.switch
  · rcases Bool.eq_false_or_eq_true s.switched with hswitched | hswitched
    · rcases Worker.next_cases hw with ⟨ok, store, rest, rfl, hstores, rfl⟩
          | ⟨ok, rfl, hstores, hended, rfl⟩ | ⟨rfl, hloop, rfl⟩ | ⟨rfl, hcrashed, hended, rfl⟩
      · apply moves_store hs hstores
        · rfl
        · rfl
        · simp [restoresAfter, hstores]
      · apply moves_branch hs hstores hswitched
        · rfl
        · rfl
        · simp [restoresAfter, hstores, hswitched]
        · intro hleaving
          apply Worker.leaving_next hleaving hw
      · obtain ⟨hpast, hleaving⟩ := WorkerPoint.pastSwitch_of_inLoop hloop
        rw [phase_staying hswitched hleaving, phase_restoring]
        · apply Moves.keep
        · apply hswitched
        · apply hswitched
      · apply moves_crash hswitched
        apply phase_after
        · apply hswitched
        · rfl
        · rfl
    · have hrestores := hs.restores_of_not_switched hswitched
      have hop : s.op (.worker b) = .keep := by
        cases b <;> simp [op, hrestores]
      have hforgets : s.forgets (.worker b) = false := by
        cases b <;> simp [forgets, phase_before, hswitched]
      rw [hop, hforgets, phase_before hswitched, phase_before (by rw [hswitched])]
      apply Moves.keep

theorem program_orderly :
  program.Orderly Sound
  where
  keeps := fun _ _ _ hs h => sound_step hs h
  moves := fun _ _ _ hs h => moves_step hs h

variable {δ : Type*}

/-- When a worker in `VirtualDevice` mode with automatic switching has ended, the default
endpoints are what they were when the worker began exactly when both were the virtual device
already, or the worker did not fail between the capture and the stream, did not crash behind the
switch, and learned what the default endpoints were. -/
theorem default_iff (device : δ) (l : Setting δ (DefaultEndpoints δ)) {as : List SwitchingAction}
    {l' : Setting δ (DefaultEndpoints δ)}
    (h : Run (program.next endpoints device) always ({}, l) as (t, l'))
    (hended : t.worker.point = .ended) :
  l'.current = l.current
    ↔ l.current = .setDefaultDevice device
      ∨ Run (program.next endpoints device) (program.Mindful endpoints) ({}, l) as (t, l')
  := by
  have ht : Sound t := by
    apply h.invariant (I := fun s => Sound s.1) sound_start
    intro s a u hs _ hstep
    apply (program_orderly.next_cases hs hstep).1
  apply program_orderly.restored_iff sound_start _ _ h
  · rfl
  · intro hphase
    change t.phase = .away at hphase
    rw [phase, hended, ht.restores_of_nil (ht.ended hended)] at hphase
    split at hphase <;> contradiction

end SwitchingWorker

end Ssc
