import SscOnWindows.Lib.Loan
import SscOnWindows.Service.DefaultDevice

/-!
# The default playback device in a run of the command line program

`run_streaming` of `main.cpp` in `VirtualDevice` mode: its steps from `transport.init` to its
return, with the calls it makes answered by `ok`.  `g_running` is cleared by the console handler.
`saved_default_device` remembers the default endpoint; the program always switches it in this
mode.  Nothing catches an exception, which ends the program at once.
-/

namespace Ssc

open Machine Loan

/-- The points of `run_streaming`. -/
inductive CliPoint where
  | initTransport
  | connectA2dp
  | findCodec
  | captureInit
  | configureCodec
  | createEncoder
  | encoderInit
  | startStream
  | captureStart
  | mainLoop
  | checkDisconnected
  | reconnectAttempt (attempt : Nat)
  | reconnectSleep (attempt : Nat)
  | reconnect (attempt : Nat)
  | cleanup
  | ended
  deriving DecidableEq

namespace CliPoint

/-- `run_streaming` from one point to the next; `ok` says whether a call succeeded, or whether
the connection was lost. -/
def branch (running ok : Bool) : CliPoint → CliPoint
  | initTransport => if ok then connectA2dp else ended
  | connectA2dp => if ok then findCodec else ended
  | findCodec => if ok then captureInit else ended
  | captureInit => if ok then configureCodec else ended
  | configureCodec => if ok then createEncoder else ended
  | createEncoder => if ok then encoderInit else ended
  | encoderInit => if ok then startStream else ended
  | startStream => if ok then captureStart else ended
  | captureStart => if ok then mainLoop else ended
  | mainLoop => if running then checkDisconnected else cleanup
  | checkDisconnected => if ok then reconnectAttempt 1 else mainLoop
  | reconnectAttempt attempt =>
      if attempt ≤ 10 ∧ running = true then reconnectSleep attempt else cleanup
  | reconnectSleep attempt => if running then reconnect attempt else cleanup
  | reconnect attempt => if ok then mainLoop else reconnectAttempt (attempt + 1)
  | cleanup => ended
  | ended => ended

/-- The point is not before the switch of the default device. -/
def pastSwitch : CliPoint → Bool
  | initTransport | connectA2dp | findCodec => false
  | _ => true

/-- The way from the point restores the default device. -/
def restores (ok : Bool) : CliPoint → Bool
  | captureInit | captureStart => !ok
  | cleanup => true
  | _ => false

/-- A failure at the point makes `run_streaming` return without restoring the default
device. -/
def abandons : CliPoint → Bool
  | configureCodec | createEncoder | encoderInit | startStream => true
  | _ => false

/-- Behind the switch the program does not come before it again, and it returns restoring the
default device, or from a failure that does not. -/
theorem branch_past (running ok : Bool) {p : CliPoint} (hp : p.pastSwitch = true)
    (hended : p ≠ .ended) :
  (p.branch running ok).pastSwitch = true
    ∧ (p.branch running ok = .ended ↔ p.restores ok = true ∨ p.abandons = true ∧ ok = false)
  := by
  cases p with
  | reconnectAttempt attempt =>
      rw [branch]
      split <;> simp [pastSwitch, restores, abandons]
  | ended => contradiction
  | _ =>
      cases running <;> cases ok <;>
        simp_all [branch, pastSwitch, restores, abandons]

/-- A point that restores the default device is none that abandons it. -/
theorem abandons_of_restores {ok : Bool} {p : CliPoint} (hp : p.restores ok = true) :
  p.abandons = false
  := by
  cases p with
  | captureInit | captureStart | cleanup => rfl
  | _ => contradiction

end CliPoint

/-- `run_streaming` at a point, with `g_running`, and whether it has switched the default
device. -/
structure CliRun where
  point : CliPoint := .initTransport
  running : Bool := true
  switched : Bool := false

/-- The steps of the program, with the answer to `get_default_device_id` in the step that
switches, and `console_handler`. -/
inductive CliAction where
  | consoleHandler
  | switch (answered : Bool)
  | proceed (ok : Bool)
  | crash
  deriving DecidableEq

namespace CliRun

/-- One step.  The capture is initialised after the switch; what fails there before is the
check for the id of the virtual device. -/
def step (s : CliRun) : CliAction → Option CliRun
  | .consoleHandler => some { s with running := false }
  | .switch _ =>
      if s.point = .captureInit ∧ s.switched = false then some { s with switched := true }
      else none
  | .proceed ok =>
      if s.point = .ended ∨ s.point = .captureInit ∧ s.switched = false ∧ ok = true then none
      else some { s with point := s.point.branch s.running ok }
  | .crash => if s.point = .ended then none else some { s with point := .ended }

/-- What a step does to the default device. -/
def op (s : CliRun) : CliAction → Op
  | .switch answered => .switch answered
  | .proceed ok => if s.switched && s.point.restores ok then .restore false else .keep
  | _ => .keep

/-- Where the program is with the default device. -/
def phase (s : CliRun) : Loan.Phase :=
  if s.switched then
    if s.point = .ended then .after else .away
  else .before

/-- The step ends the program with the default device switched. -/
def forgets (s : CliRun) : CliAction → Bool
  | .proceed ok => s.switched && s.point.abandons && !ok
  | .crash => s.switched
  | _ => false

/-- `run_streaming` as a program that switches the default device and restores it. -/
def program : Loan.Program CliRun CliAction where
  step := step
  op := op
  phase := phase
  forgets := forgets

/-- The program has switched the default device at no point before the switch. -/
def Sound (s : CliRun) : Prop :=
  s.switched = true → s.point.pastSwitch = true

variable {s t : CliRun}

theorem phase_before (hswitched : s.switched = false) :
  s.phase = .before
  := by
  rw [phase, hswitched]
  rfl

theorem phase_away (hswitched : s.switched = true) (hpoint : s.point ≠ .ended) :
  s.phase = .away
  := by
  rw [phase, hswitched, if_neg hpoint]
  rfl

theorem phase_after (hswitched : s.switched = true) (hpoint : s.point = .ended) :
  s.phase = .after
  := by
  rw [phase, hswitched, if_pos hpoint]
  rfl

theorem sound_step {a : CliAction} (hs : s.Sound) (h : s.step a = some t) :
  t.Sound
  := by
  intro hswitched
  cases a with
  | consoleHandler =>
      obtain rfl := Option.some.inj h
      apply hs hswitched
  | switch answered =>
      obtain ⟨⟨hpoint, -⟩, h⟩ := Option.ite_none_right_eq_some.mp h
      obtain rfl := Option.some.inj h
      simp only [hpoint, CliPoint.pastSwitch]
  | proceed ok =>
      obtain ⟨hpoint, h⟩ := Option.ite_none_left_eq_some.mp h
      obtain rfl := Option.some.inj h
      rw [not_or] at hpoint
      apply (CliPoint.branch_past s.running ok (hs hswitched) hpoint.1).1
  | crash =>
      obtain ⟨hpoint, h⟩ := Option.ite_none_left_eq_some.mp h
      obtain rfl := Option.some.inj h
      rfl

/-- Where the program goes from a point. -/
theorem proceed_of_step {ok : Bool} (h : s.step (.proceed ok) = some t) :
  s.point ≠ .ended ∧ t.switched = s.switched ∧ t.point = s.point.branch s.running ok
  := by
  obtain ⟨hpoint, h⟩ := Option.ite_none_left_eq_some.mp h
  obtain rfl := Option.some.inj h
  rw [not_or] at hpoint
  exact ⟨hpoint.1, rfl, rfl⟩

/-- Behind the switch the program returns by restoring the default device or by forgetting
it. -/
theorem moves_proceed {ok : Bool} (hs : s.Sound) (h : s.step (.proceed ok) = some t) :
  Moves s.phase (s.op (.proceed ok)) (s.forgets (.proceed ok)) t.phase
  := by
  obtain ⟨hpoint, hsame, hnext⟩ := proceed_of_step h
  rw [op, forgets]
  rcases Bool.eq_false_or_eq_true s.switched with hswitched | hswitched
  · obtain ⟨-, hended⟩ := CliPoint.branch_past s.running ok (hs hswitched) hpoint
    rw [← hnext] at hended
    rw [hswitched] at hsame
    rw [phase_away hswitched hpoint, hswitched]
    cases hrestores : s.point.restores ok with
    | true =>
        have hpoint' : t.point = .ended := hended.mpr (.inl hrestores)
        rw [CliPoint.abandons_of_restores hrestores, phase_after hsame hpoint']
        apply Moves.restore
    | false =>
        simp only [hrestores, Bool.false_eq_true, false_or] at hended
        cases habandons : s.point.abandons && !ok with
        | true =>
            have hpoint' : t.point = .ended := by simpa [hended] using habandons
            simp only [phase_after hsame hpoint', Bool.true_and, habandons]
            apply Moves.forget
        | false =>
            have hpoint' : t.point ≠ .ended := by
              rw [Ne, hended]
              simpa using habandons
            simp only [phase_away hsame hpoint', Bool.true_and, habandons]
            apply Moves.keep
  · rw [hswitched] at hsame
    rw [phase_before hswitched, phase_before hsame, hswitched]
    apply Moves.keep

theorem moves_step {a : CliAction} (hs : s.Sound) (h : s.step a = some t) :
  Moves s.phase (s.op a) (s.forgets a) t.phase
  := by
  cases a with
  | consoleHandler =>
      obtain rfl := Option.some.inj h
      apply Moves.keep
  | switch answered =>
      obtain ⟨⟨hpoint, hswitched⟩, h⟩ := Option.ite_none_right_eq_some.mp h
      obtain rfl := Option.some.inj h
      rw [phase_before hswitched, phase_away rfl (by simp [hpoint])]
      apply Moves.switch
  | proceed ok => apply moves_proceed hs h
  | crash =>
      obtain ⟨hpoint, h⟩ := Option.ite_none_left_eq_some.mp h
      obtain rfl := Option.some.inj h
      change Moves s.phase .keep s.switched _
      rcases Bool.eq_false_or_eq_true s.switched with hswitched | hswitched
      · rw [phase_away hswitched hpoint, phase_after (by rw [hswitched]) rfl, hswitched]
        apply Moves.forget
      · rw [phase_before hswitched, phase_before (by rw [hswitched]), hswitched]
        apply Moves.keep

theorem program_orderly :
  program.Orderly Sound
  where
  keeps := fun _ _ _ hs h => sound_step hs h
  moves := fun _ _ _ hs h => moves_step hs h

variable {δ : Type*}

/-- When `run_streaming` in `VirtualDevice` mode has ended, the default endpoints are what they
were when it began exactly when both were the virtual device already, or the program did not fail
between the capture and the stream, was not ended by an exception behind the switch, and
learned what the default endpoints were. -/
theorem default_iff (device : δ) (l : Setting δ (DefaultEndpoints δ)) {as : List CliAction}
    {l' : Setting δ (DefaultEndpoints δ)}
    (h : Run (program.next endpoints device) always ({}, l) as (t, l'))
    (hended : t.point = .ended) :
  l'.current = l.current
    ↔ l.current = .setDefaultDevice device
      ∨ Run (program.next endpoints device) (program.Mindful endpoints) ({}, l) as (t, l')
  := by
  have hstart : Sound {} := by nofun
  apply program_orderly.restored_iff hstart _ _ h
  · rfl
  · intro hphase
    change t.phase = .away at hphase
    rw [phase, hended] at hphase
    split at hphase <;> contradiction

end CliRun

/-! ### The service and the command line program -/

/-- In `VirtualDevice` mode with automatic switching the default endpoints at the end of a run,
of the service or of the command line program, are those at its start exactly when both were
the virtual device already or every step of the run was mindful of them: none left them switched,
and at the switch the endpoint for `eConsole` was there, was learned, and was the one for
`eMultimedia` too. -/
theorem default_restored_iff {δ : Type*} (device : δ) (l : Setting δ (DefaultEndpoints δ)) :
  (∀ as (t : SwitchingWorker) (l' : Setting δ (DefaultEndpoints δ)),
      Run (SwitchingWorker.program.next endpoints device) always ({}, l) as (t, l') →
      t.worker.point = .ended →
      (l'.current = l.current ↔ l.current = ⟨some device, some device⟩
        ∨ Run (SwitchingWorker.program.next endpoints device)
            (SwitchingWorker.program.Mindful endpoints) ({}, l) as (t, l')))
    ∧ ∀ as (t : CliRun) (l' : Setting δ (DefaultEndpoints δ)),
      Run (CliRun.program.next endpoints device) always ({}, l) as (t, l') →
      t.point = .ended →
      (l'.current = l.current ↔ l.current = ⟨some device, some device⟩
        ∨ Run (CliRun.program.next endpoints device) (CliRun.program.Mindful endpoints)
            ({}, l) as (t, l'))
  := by
  constructor
  · intro as t l' hrun hended
    apply SwitchingWorker.default_iff device l hrun hended
  · intro as t l' hrun hended
    apply CliRun.default_iff device l hrun hended

/-- The device 3 is the default for both roles. -/
def begunAt3 : Setting Nat (DefaultEndpoints Nat) where
  current := ⟨some 3, some 3⟩

/-- A worker whose capture fails after the switch, and a command line program whose capture
does not start, restore the default device. -/
theorem default_restored_captureFails :
  (∃ as t l', Run (SwitchingWorker.program.next endpoints 7) always ({}, begunAt3) as (t, l')
      ∧ t.worker.point = .ended ∧ l'.current = ⟨some 3, some 3⟩)
    ∧ ∃ as t l', Run (CliRun.program.next endpoints 7) always ({}, begunAt3) as (t, l')
      ∧ t.point = .ended ∧ l'.current = ⟨some 3, some 3⟩
  := by
  obtain ⟨hservice, hcli⟩ := default_restored_iff 7 begunAt3
  constructor
  · have hrun : Run (SwitchingWorker.program.next endpoints 7)
        (SwitchingWorker.program.Mindful endpoints) ({}, begunAt3)
        (List.replicate 9 (.worker (.proceed true)) ++ .switch true ::
          List.replicate 4 (.worker (.proceed false))) _ := run_of_exec_guarded rfl
    exact ⟨_, _, _, hrun.toAlways, rfl, (hservice _ _ _ hrun.toAlways rfl).mpr (.inr hrun)⟩
  · have hrun : Run (CliRun.program.next endpoints 7) (CliRun.program.Mindful endpoints)
        ({}, begunAt3)
        (List.replicate 3 (.proceed true) ++ .switch true ::
          List.replicate 5 (.proceed true) ++ [.proceed false]) _ := run_of_exec_guarded rfl
    exact ⟨_, _, _, hrun.toAlways, rfl, (hcli _ _ _ hrun.toAlways rfl).mpr (.inr hrun)⟩

/-- A worker and a command line program that fail to configure the codec leave the virtual
device the default. -/
theorem not_default_restored :
  (¬ ∀ as (t : SwitchingWorker) (l' : Setting Nat (DefaultEndpoints Nat)),
      Run (SwitchingWorker.program.next endpoints 7) always ({}, begunAt3) as (t, l') →
      t.worker.point = .ended → l'.current = ⟨some 3, some 3⟩)
    ∧ ¬ ∀ as (t : CliRun) (l' : Setting Nat (DefaultEndpoints Nat)),
      Run (CliRun.program.next endpoints 7) always ({}, begunAt3) as (t, l') →
      t.point = .ended → l'.current = ⟨some 3, some 3⟩
  := by
  constructor
  · intro h
    have hcurrent := h
      (List.replicate 9 (.worker (.proceed true)) ++ .switch true ::
        .worker (.proceed true) :: List.replicate 5 (.worker (.proceed false)))
      _ _ (run_of_exec rfl) rfl
    contradiction
  · intro h
    have hcurrent := h
      (List.replicate 3 (.proceed true) ++ [.switch true, .proceed true, .proceed false])
      _ _ (run_of_exec rfl) rfl
    contradiction

end Ssc
