import SscOnWindows.Cli.RunStreaming
import SscOnWindows.Lib.FlagLoan

/-!
# The mute flags of the playback devices

In `SystemLoopback` mode the service and the command line program mute the default endpoint when
they begin to stream, and unmute the default endpoint when they are done; `mute_output` acts on the
endpoint that is the default when it is called.  It fails when there is none, when its volume cannot
be had, or when `SetMute` fails.  `output_muted` remembers that the first call succeeded.
-/

namespace Ssc

open Machine Loan

/-- The worker of the service, with the mode it streams in, and whether it is past the call that
mutes. -/
structure MutingWorker where
  worker : Worker := {}
  stopRequested : Bool := false
  mutes : Bool
  past : Bool := false

/-- The steps of the worker, with the answer of `mute_output` in a step that calls it, and the
callers' request to stop. -/
inductive MutingAction where
  | requestStop
  | worker (a : WorkerAction) (ok : Bool)
  deriving DecidableEq

namespace MutingWorker

/-- The step starts the capture, and mutes. -/
def mutesAt (s : MutingWorker) (a : WorkerAction) : Bool :=
  s.mutes && s.worker.stores.isEmpty && s.worker.point = .captureStart && a = .proceed true

/-- The worker is in its cleanup, in front of the call that unmutes, which stands before its store
to `running_`. -/
def beforeUnmute (w : Worker) : Bool :=
  w.point = .cleanup && !w.cleared

/-- The step leads past the call that unmutes. -/
def unmutesAt (s : MutingWorker) : WorkerAction → Bool
  | .proceed _ => s.past && beforeUnmute s.worker && s.worker.stores.head? = some .clearRunning
  | _ => false

/-- One step. -/
def step (s : MutingWorker) : MutingAction → Option MutingWorker
  | .requestStop => some { s with stopRequested := true }
  | .worker a _ =>
      (s.worker.next s.stopRequested a).map fun w =>
        { s with worker := w, past := s.past || s.mutesAt a }

/-- What a step does to the flags. -/
def op (s : MutingWorker) : MutingAction → Op
  | .requestStop => .keep
  | .worker a ok =>
      if s.mutesAt a then .switch ok
      else if s.unmutesAt a then .restore ok
      else .keep

/-- Where the worker is between the two calls. -/
def phase (s : MutingWorker) : Loan.Phase :=
  if s.past then
    if s.worker.point.inLoop || beforeUnmute s.worker then .away else .after
  else .before

/-- The step makes the worker leave between the two calls: a crash. -/
def forgets (s : MutingWorker) : MutingAction → Bool
  | .worker .crash _ => s.phase = .away
  | _ => false

/-- The worker as a program that sets a flag and clears one. -/
def program : Loan.Program MutingWorker MutingAction where
  step := step
  op := op
  phase := phase
  forgets := forgets

/-- What holds in every run: behind the first call the worker is in its main loop or leaves, and its
own store to `running_` is ahead or behind only when it leaves. -/
structure Sound (s : MutingWorker) : Prop where
  orderly : s.worker.Orderly
  past : s.past = true → s.worker.point.inLoop = true ∨ s.worker.point.leaving = true
  clears : s.worker.cleared = true ∨ .clearRunning ∈ s.worker.stores →
    s.worker.point.leaving = true

theorem sound_start (mutes : Bool) :
  Sound { mutes := mutes }
  where
  orderly := by simp [Worker.Orderly, Worker.quiet, WorkerPoint.leaving]
  past := by simp
  clears := by simp

end MutingWorker

namespace WorkerPoint

/-- The main loop is left for the cleanup. -/
theorem branch_inLoop {stopRequested ok : Bool} {p : WorkerPoint} (hp : p.inLoop = true) :
  (p.branch stopRequested ok).2.inLoop = true ∨ (p.branch stopRequested ok).2 = .cleanup
  := by
  cases p with
  | reconnectAttempt attempt =>
      rw [branch]
      split
      · left
        rfl
      · right
        rfl
  | mainLoop | checkDisconnected | reconnectSleep _ | reconnect _ =>
      cases stopRequested <;> cases ok <;> simp [branch, inLoop]
  | _ => contradiction

/-- The cleanup is made once. -/
theorem branch_ne_cleanup {stopRequested ok : Bool} {p : WorkerPoint} (hp : p.leaving = true) :
  (p.branch stopRequested ok).2 ≠ .cleanup
  := by
  cases p with
  | cleanup => cases stopRequested <;> simp [branch]
  | returning | ended => simp [branch]
  | _ => contradiction

/-- The store to `running_` is on ways that leave only. -/
theorem leaving_of_clearRunning {stopRequested ok : Bool} {p : WorkerPoint}
    (h : .clearRunning ∈ (p.branch stopRequested ok).1) :
  (p.branch stopRequested ok).2.leaving = true
  := by
  cases p with
  | reconnectAttempt attempt =>
      rw [branch] at h ⊢
      split at h
      · simp at h
      next hattempt =>
        rw [if_neg hattempt]
        rfl
  | _ =>
      cases stopRequested <;> cases ok <;>
        simp_all [branch, Branch.fail, Branch.stop, leaving]

end WorkerPoint

namespace MutingWorker

variable {s t : MutingWorker}

theorem mutesAt_iff {a : WorkerAction} :
  s.mutesAt a = true
    ↔ s.mutes = true ∧ s.worker.stores = [] ∧ s.worker.point = .captureStart ∧ a = .proceed true
  := by
  simp [mutesAt, and_assoc]

/-- Behind the first call there is no other one. -/
theorem Sound.mutesAt_of_past (hs : s.Sound) (hpast : s.past = true) (a : WorkerAction) :
  s.mutesAt a = false
  := by
  rw [← Bool.not_eq_true, mutesAt_iff]
  rintro ⟨-, -, hpoint, -⟩
  have hbehind := hs.past hpast
  rw [hpoint] at hbehind
  simp [WorkerPoint.inLoop, WorkerPoint.leaving] at hbehind

/-- The step that mutes leads into the main loop. -/
theorem mutesAt_next {a : WorkerAction} {w : Worker} (hmutes : s.mutesAt a = true)
    (hw : s.worker.next s.stopRequested a = some w) :
  w.point = .mainLoop
  := by
  obtain ⟨-, hstores, hpoint, rfl⟩ := mutesAt_iff.mp hmutes
  have hbranch := congrArg Prod.snd (Worker.branch_of_next hstores hw)
  rw [hpoint] at hbranch
  apply hbranch

theorem sound_step {a : MutingAction} (hs : s.Sound) (h : s.step a = some t) :
  t.Sound
  := by
  cases a with
  | requestStop =>
      obtain rfl := Option.some.inj h
      exact ⟨hs.orderly, hs.past, hs.clears⟩
  | worker a ok =>
      obtain ⟨w, hw, rfl⟩ := Option.map_eq_some_iff.mp h
      constructor
      · apply Worker.orderly_next hs.orderly hw
      · intro hpast
        rcases Bool.or_eq_true_iff.mp hpast with hpast | hmutes
        · rcases hs.past hpast with hloop | hleaving
          · rcases Worker.next_cases hw with ⟨ok, store, rest, rfl, hstores, rfl⟩
                | ⟨ok, rfl, hstores, hended, rfl⟩ | ⟨rfl, hloop, rfl⟩ | ⟨rfl, hcrashed, hended, rfl⟩
            · left
              apply hloop
            · apply (WorkerPoint.branch_inLoop hloop).imp_right
              intro hcleanup
              rw [hcleanup]
              rfl
            · right
              rfl
            · right
              rfl
          · right
            apply Worker.leaving_next hleaving hw
        · left
          rw [mutesAt_next hmutes hw]
          rfl
      · rcases Worker.next_cases hw with ⟨ok, store, rest, rfl, hstores, rfl⟩
            | ⟨ok, rfl, hstores, hended, rfl⟩ | ⟨rfl, hloop, rfl⟩ | ⟨rfl, hcrashed, hended, rfl⟩
        · intro hclears
          apply hs.clears
          rw [hstores]
          rcases hclears with hcleared | hmem
          · rcases Bool.or_eq_true_iff.mp hcleared with hcleared | hstore
            · left
              apply hcleared
            · right
              rw [of_decide_eq_true hstore]
              apply List.mem_cons_self
          · right
            apply List.mem_cons_of_mem _ hmem
        · rintro (hcleared | hmem)
          · apply Worker.leaving_next (hs.clears (.inl hcleared)) hw
          · apply WorkerPoint.leaving_of_clearRunning hmem
        · intro _
          rfl
        · intro _
          rfl

/-! ### The phases of the worker -/

theorem phase_before (hpast : s.past = false) :
  s.phase = .before
  := by
  rw [phase, hpast]
  rfl

theorem phase_away (hpast : s.past = true)
    (h : s.worker.point.inLoop = true ∨ beforeUnmute s.worker = true) :
  s.phase = .away
  := by
  rw [phase, hpast, if_pos rfl, if_pos (Bool.or_eq_true_iff.mpr h)]

theorem phase_after (hpast : s.past = true) (hloop : s.worker.point.inLoop = false)
    (hunmute : beforeUnmute s.worker = false) :
  s.phase = .after
  := by
  rw [phase, hpast, hloop, hunmute]
  rfl

theorem inLoop_of_leaving {p : WorkerPoint} (h : p.leaving = true) :
  p.inLoop = false
  := by
  cases p with
  | cleanup | returning | ended => rfl
  | _ => contradiction

theorem Sound.cleared_of_inLoop (hs : s.Sound) (hloop : s.worker.point.inLoop = true) :
  s.worker.cleared = false
  := by
  rw [← Bool.not_eq_true]
  intro hcleared
  have hleaving := hs.clears (.inl hcleared)
  rw [inLoop_of_leaving hleaving] at hloop
  contradiction

/-- A worker in its cleanup with no store ahead is past the call that unmutes. -/
theorem Sound.beforeUnmute_of_nil (hs : s.Sound) (hstores : s.worker.stores = []) :
  beforeUnmute s.worker = false
  := by
  rw [← Bool.not_eq_true, beforeUnmute, Bool.and_eq_true, decide_eq_true_eq, Bool.not_eq_true']
  rintro ⟨hpoint, hcleared⟩
  have hmem := (hs.orderly hcleared).2 (by rw [hpoint]; rfl)
  rw [hstores] at hmem
  contradiction

/-- In front of the first call the second one is not made. -/
theorem op_of_not_past {a : WorkerAction} {ok : Bool} (hpast : s.past = false) :
  s.op (.worker a ok) = if s.mutesAt a then .switch ok else .keep
  := by
  have hunmutes : s.unmutesAt a = false := by
    cases a <;> simp [unmutesAt, hpast]
  rw [op, hunmutes]
  rfl

/-- A store leads past the call that unmutes, or changes no phase. -/
theorem moves_store {ok : Bool} {store : WorkerStore} {rest : List WorkerStore} {ok' : Bool}
    (hpast : s.past = true) (hs : s.Sound) (hstores : s.worker.stores = store :: rest)
    (hpast' : t.past = true) (hpoint : t.worker.point = s.worker.point)
    (hcleared : t.worker.cleared = (s.worker.cleared || store = .clearRunning)) :
  Moves s.phase (s.op (.worker (.proceed ok) ok')) (s.forgets (.worker (.proceed ok) ok')) t.phase
  := by
  have hforgets : s.forgets (.worker (.proceed ok) ok') = false := rfl
  rw [hforgets, op, hs.mutesAt_of_past hpast, if_neg Bool.false_ne_true, unmutesAt, hpast, hstores]
  by_cases hunmutes : beforeUnmute s.worker = true ∧ store = .clearRunning
  · obtain ⟨hunmute, rfl⟩ := hunmutes
    rw [phase_away hpast (.inr hunmute), hunmute]
    have hcleanup : s.worker.point = .cleanup := by
      simp only [beforeUnmute, Bool.and_eq_true, decide_eq_true_eq] at hunmute
      apply hunmute.1
    rw [phase_after hpast']
    · apply Moves.restore
    · rw [hpoint, hcleanup]
      rfl
    · simp [beforeUnmute, hcleared]
  · have hop : (true && beforeUnmute s.worker
        && decide ((store :: rest).head? = some .clearRunning)) = false := by
      simpa using hunmutes
    have hphase : t.phase = s.phase := by
      have hsame : beforeUnmute t.worker = beforeUnmute s.worker := by
        simp only [beforeUnmute, Bool.and_eq_true, decide_eq_true_eq, Bool.not_eq_true'] at hunmutes
        simp only [beforeUnmute, hpoint, hcleared]
        grind
      rw [phase, phase, hpast, hpast', hpoint, hsame]
    rw [hop, hphase, if_neg Bool.false_ne_true]
    apply Moves.keep

/-- A step of the worker behind the first call. -/
theorem moves_past {a : WorkerAction} {ok : Bool} {w : Worker} (hs : s.Sound)
    (hpast : s.past = true) (hw : s.worker.next s.stopRequested a = some w)
    (ht : t = { s with worker := w, past := s.past || s.mutesAt a }) :
  Moves s.phase (s.op (.worker a ok)) (s.forgets (.worker a ok)) t.phase
  := by
  have hpast' : t.past = true := by
    rw [ht, hpast]
    rfl
  subst ht
  rcases Worker.next_cases hw with ⟨ok', store, rest, rfl, hstores, rfl⟩
      | ⟨ok', rfl, hstores, hended, rfl⟩ | ⟨rfl, hloop, rfl⟩ | ⟨rfl, hcrashed, hended, rfl⟩
  · apply moves_store hpast hs hstores hpast' rfl rfl
  · have hop : s.op (.worker (.proceed ok') ok) = .keep := by
      simp [op, hs.mutesAt_of_past hpast, unmutesAt, hstores]
    have hforgets : s.forgets (.worker (.proceed ok') ok) = false := rfl
    rw [hop, hforgets]
    rcases hs.past hpast with hloop | hleaving
    · rw [phase_away hpast (.inl hloop), phase_away hpast']
      · apply Moves.keep
      · apply (WorkerPoint.branch_inLoop hloop).imp_right
        intro hcleanup
        simp [beforeUnmute, hcleanup, hs.cleared_of_inLoop hloop]
    · have hleaving' := Worker.leaving_next hleaving hw
      rw [phase_after hpast (inLoop_of_leaving hleaving) (hs.beforeUnmute_of_nil hstores),
        phase_after hpast' (inLoop_of_leaving hleaving')]
      · apply Moves.keep
      · rw [beforeUnmute, Bool.and_eq_false_imp, decide_eq_true_eq]
        intro hcleanup
        apply absurd hcleanup
        apply WorkerPoint.branch_ne_cleanup hleaving
  · have hop : s.op (.worker .throw ok) = .keep := by
      simp [op, hs.mutesAt_of_past hpast, unmutesAt]
    have hforgets : s.forgets (.worker .throw ok) = false := rfl
    rw [hop, hforgets, phase_away hpast (.inl hloop), phase_away hpast']
    · apply Moves.keep
    · right
      simp [beforeUnmute, hs.cleared_of_inLoop hloop]
  · have hop : s.op (.worker .crash ok) = .keep := by
      simp [op, hs.mutesAt_of_past hpast, unmutesAt]
    have hafter : ({ s with
        worker := { s.worker with
          stores := [.notifyState .error, .clearRunning]
          point := .returning
          crashed := true
          cleared := false }
        past := s.past || s.mutesAt .crash } : MutingWorker).phase = .after := by
      apply phase_after hpast'
      · rfl
      · rfl
    rw [hop, hafter]
    change Moves s.phase .keep (decide (s.phase = .away)) .after
    cases h : s.phase with
    | before =>
        rw [phase, hpast, if_pos rfl] at h
        split at h <;> contradiction
    | away => apply Moves.forget
    | after => apply Moves.keep

/-- The worker sets a flag and clears one, in the phases of a loan. -/
theorem moves_step {a : MutingAction} (hs : s.Sound) (h : s.step a = some t) :
  Moves s.phase (s.op a) (s.forgets a) t.phase
  := by
  cases a with
  | requestStop =>
      obtain rfl := Option.some.inj h
      apply Moves.keep
  | worker a ok =>
      obtain ⟨w, hw, rfl⟩ := Option.map_eq_some_iff.mp h
      rcases Bool.eq_false_or_eq_true s.past with hpast | hpast
      · apply moves_past hs hpast hw rfl
      · have hforgets : s.forgets (.worker a ok) = false := by
          cases a <;> simp [forgets, phase_before hpast]
        rw [op_of_not_past hpast, hforgets, phase_before hpast]
        cases hmutes : s.mutesAt a with
        | true =>
            rw [phase_away]
            · apply Moves.switch
            · rw [hpast]
              rfl
            · left
              change w.point.inLoop = true
              rw [mutesAt_next hmutes hw]
              rfl
        | false =>
            rw [phase_before]
            · apply Moves.keep
            · rw [hpast]
              rfl

theorem program_orderly :
  program.Orderly Sound
  where
  keeps := fun _ _ _ hs h => sound_step hs h
  moves := fun _ _ _ hs h => moves_step hs h

/-- When a worker has ended, the mute flag of every endpoint is what it was when the worker began
exactly when every step was careful. -/
theorem mute_iff {ι : Type*} [DecidableEq ι] {mutes : Bool} {l l' : Flags ι}
    {as : List (FlagStep ι MutingAction)} (hheld : l.held = none)
    (h : Run program.nextFlags always ({ mutes := mutes }, l) as (t, l'))
    (hended : t.worker.point = .ended) :
  l'.flag = l.flag
    ↔ Run program.nextFlags (program.Careful l.flag) ({ mutes := mutes }, l) as (t, l')
  := by
  apply program_orderly.flags_restored_iff (sound_start mutes) _ hheld _ h
  · rfl
  · intro hphase
    change t.phase = .away at hphase
    rw [phase, beforeUnmute, hended] at hphase
    split at hphase <;> contradiction

end MutingWorker

/-! ### The command line program -/

/-- `run_streaming`, with the mode it streams in, and whether it is past the call that mutes. -/
structure MutingCli where
  point : CliPoint := .initTransport
  running : Bool := true
  mutes : Bool
  past : Bool := false

/-- The steps of the program, with the answer of `mute_output` in a step that calls it, and
`console_handler`. -/
inductive MutingCliAction where
  | consoleHandler
  | proceed (ok muteOk : Bool)
  | crash
  deriving DecidableEq

namespace MutingCli

/-- The step starts the capture, and mutes. -/
def mutesAt (s : MutingCli) (ok : Bool) : Bool :=
  s.mutes && s.point = .captureStart && ok

/-- One step. -/
def step (s : MutingCli) : MutingCliAction → Option MutingCli
  | .consoleHandler => some { s with running := false }
  | .proceed ok _ =>
      if s.point = .ended then none
      else some { s with
        point := s.point.branch s.running ok
        past := s.past || s.mutesAt ok }
  | .crash => if s.point = .ended then none else some { s with point := .ended }

/-- What a step does to the flags. -/
def op (s : MutingCli) : MutingCliAction → Op
  | .proceed ok muteOk =>
      if s.mutesAt ok then .switch muteOk
      else if s.past && s.point = .cleanup then .restore muteOk
      else .keep
  | _ => .keep

/-- Where the program is between the two calls. -/
def phase (s : MutingCli) : Loan.Phase :=
  if s.past then
    if s.point = .ended then .after else .away
  else .before

/-- The step ends the program between the two calls. -/
def forgets (s : MutingCli) : MutingCliAction → Bool
  | .crash => s.past
  | _ => false

/-- `run_streaming` as a program that sets a flag and clears one. -/
def program : Loan.Program MutingCli MutingCliAction where
  step := step
  op := op
  phase := phase
  forgets := forgets

/-- The point is in the main loop. -/
def inLoop : CliPoint → Bool
  | .mainLoop | .checkDisconnected | .reconnectAttempt _ | .reconnectSleep _ | .reconnect _ => true
  | _ => false

/-- Behind the first call the program is in its main loop, in its cleanup, or has ended. -/
def Sound (s : MutingCli) : Prop :=
  s.past = true → inLoop s.point = true ∨ s.point = .cleanup ∨ s.point = .ended

/-- The main loop is left for the cleanup. -/
theorem branch_inLoop (running ok : Bool) {p : CliPoint} (hp : inLoop p = true) :
  inLoop (p.branch running ok) = true ∨ p.branch running ok = .cleanup
  := by
  cases p with
  | reconnectAttempt attempt =>
      rw [CliPoint.branch]
      split
      · left
        rfl
      · right
        rfl
  | mainLoop | checkDisconnected | reconnectSleep _ | reconnect _ =>
      cases running <;> cases ok <;> simp [CliPoint.branch, inLoop]
  | _ => contradiction

variable {s t : MutingCli}

theorem mutesAt_iff {ok : Bool} :
  s.mutesAt ok = true ↔ s.mutes = true ∧ s.point = .captureStart ∧ ok = true
  := by
  simp [mutesAt, and_assoc]

theorem Sound.mutesAt_of_past (hs : s.Sound) (hpast : s.past = true) (ok : Bool) :
  s.mutesAt ok = false
  := by
  rw [← Bool.not_eq_true, mutesAt_iff]
  rintro ⟨-, hpoint, -⟩
  have hbehind := hs hpast
  simp [hpoint, inLoop] at hbehind

theorem sound_step {a : MutingCliAction} (hs : s.Sound) (h : s.step a = some t) :
  t.Sound
  := by
  intro hpast
  cases a with
  | consoleHandler =>
      obtain rfl := Option.some.inj h
      apply hs hpast
  | proceed ok muteOk =>
      obtain ⟨hpoint, h⟩ := Option.ite_none_left_eq_some.mp h
      obtain rfl := Option.some.inj h
      rcases Bool.or_eq_true_iff.mp hpast with hpast | hmutes
      · rcases hs hpast with hloop | hcleanup | hended
        · apply (branch_inLoop s.running ok hloop).imp_right .inl
        · right; right
          change s.point.branch s.running ok = .ended
          rw [hcleanup, CliPoint.branch]
        · contradiction
      · obtain ⟨-, hpoint, rfl⟩ := mutesAt_iff.mp hmutes
        left
        change inLoop (s.point.branch s.running true) = true
        rw [hpoint]
        rfl
  | crash =>
      obtain ⟨hpoint, h⟩ := Option.ite_none_left_eq_some.mp h
      obtain rfl := Option.some.inj h
      right; right
      rfl

theorem phase_before (hpast : s.past = false) :
  s.phase = .before
  := by
  rw [phase, hpast]
  rfl

theorem phase_away (hpast : s.past = true) (hpoint : s.point ≠ .ended) :
  s.phase = .away
  := by
  rw [phase, hpast, if_pos rfl, if_neg hpoint]

theorem phase_after (hpast : s.past = true) (hpoint : s.point = .ended) :
  s.phase = .after
  := by
  rw [phase, hpast, if_pos rfl, if_pos hpoint]

/-- The program mutes, unmutes on its way out, or does neither and stays. -/
theorem moves_proceed {ok muteOk : Bool} (hs : s.Sound) (h : s.step (.proceed ok muteOk) = some t) :
  Moves s.phase (s.op (.proceed ok muteOk)) (s.forgets (.proceed ok muteOk)) t.phase
  := by
  obtain ⟨hpoint, h⟩ := Option.ite_none_left_eq_some.mp h
  have hforgets : s.forgets (.proceed ok muteOk) = false := rfl
  obtain rfl := Option.some.inj h
  rw [op, hforgets]
  rcases Bool.eq_false_or_eq_true s.past with hpast | hpast
  · rw [hs.mutesAt_of_past hpast, hpast, phase_away hpast hpoint]
    rcases hs hpast with hloop | hcleanup | hended
    · have hstays := branch_inLoop s.running ok hloop
      have hnot : s.point ≠ .cleanup := by
        rintro hcleanup
        rw [hcleanup] at hloop
        contradiction
      rw [phase_away]
      · simp only [hnot, decide_false, Bool.and_false, Bool.false_eq_true, if_false]
        apply Moves.keep
      · rfl
      · intro hended
        change s.point.branch s.running ok = .ended at hended
        rw [hended] at hstays
        simp [inLoop] at hstays
    · rw [phase_after]
      · simp only [hcleanup, decide_true, Bool.and_self, Bool.false_eq_true, if_false, if_true]
        apply Moves.restore
      · rfl
      · change s.point.branch s.running ok = .ended
        rw [hcleanup, CliPoint.branch]
    · contradiction
  · rw [phase_before hpast, hpast, Bool.false_and, if_neg Bool.false_ne_true]
    cases hmutes : s.mutesAt ok with
    | true =>
        obtain ⟨-, hpoint, rfl⟩ := mutesAt_iff.mp hmutes
        rw [phase_away]
        · apply Moves.switch
        · rfl
        · change s.point.branch s.running true ≠ .ended
          rw [hpoint]
          simp [CliPoint.branch]
    | false =>
        rw [phase_before rfl]
        apply Moves.keep

theorem moves_step {a : MutingCliAction} (hs : s.Sound) (h : s.step a = some t) :
  Moves s.phase (s.op a) (s.forgets a) t.phase
  := by
  cases a with
  | consoleHandler =>
      obtain rfl := Option.some.inj h
      apply Moves.keep
  | proceed ok muteOk => apply moves_proceed hs h
  | crash =>
      obtain ⟨hpoint, h⟩ := Option.ite_none_left_eq_some.mp h
      obtain rfl := Option.some.inj h
      change Moves s.phase .keep s.past _
      rcases Bool.eq_false_or_eq_true s.past with hpast | hpast
      · rw [phase_away hpast hpoint, phase_after (by rw [hpast]) rfl, hpast]
        apply Moves.forget
      · rw [phase_before hpast, phase_before (by rw [hpast]), hpast]
        apply Moves.keep

theorem program_orderly :
  program.Orderly Sound
  where
  keeps := fun _ _ _ hs h => sound_step hs h
  moves := fun _ _ _ hs h => moves_step hs h

/-- When `run_streaming` has ended, the mute flag of every endpoint is what it was when it began
exactly when every step was careful. -/
theorem mute_iff {ι : Type*} [DecidableEq ι] {mutes : Bool} {l l' : Flags ι}
    {as : List (FlagStep ι MutingCliAction)} (hheld : l.held = none)
    (h : Run program.nextFlags always ({ mutes := mutes }, l) as (t, l'))
    (hended : t.point = .ended) :
  l'.flag = l.flag
    ↔ Run program.nextFlags (program.Careful l.flag) ({ mutes := mutes }, l) as (t, l')
  := by
  have hstart : Sound { mutes := mutes } := by
    intro hpast
    contradiction
  apply program_orderly.flags_restored_iff hstart _ hheld _ h
  · rfl
  · intro hphase
    change t.phase = .away at hphase
    rw [phase, hended] at hphase
    split at hphase <;> contradiction

end MutingCli

/-! ### The service and the command line program -/

/-- When a run of the service or of the command line program has ended, in a mode that mutes or in
one that does not, the mute flag of every endpoint is what it was at the start exactly when every
step of the run was careful. -/
theorem mute_restored_iff {ι : Type*} [DecidableEq ι] (mutes : Bool) (flag : ι → Bool)
    (default : Option ι) :
  (∀ as (t : MutingWorker) (l' : Flags ι),
      Run MutingWorker.program.nextFlags always ({ mutes := mutes }, ⟨flag, default, none⟩) as
        (t, l') →
      t.worker.point = .ended →
      (l'.flag = flag ↔ Run MutingWorker.program.nextFlags (MutingWorker.program.Careful flag)
        ({ mutes := mutes }, ⟨flag, default, none⟩) as (t, l')))
    ∧ ∀ as (t : MutingCli) (l' : Flags ι),
      Run MutingCli.program.nextFlags always ({ mutes := mutes }, ⟨flag, default, none⟩) as
        (t, l') →
      t.point = .ended →
      (l'.flag = flag ↔ Run MutingCli.program.nextFlags (MutingCli.program.Careful flag)
        ({ mutes := mutes }, ⟨flag, default, none⟩) as (t, l'))
  := by
  constructor
  · intro as t l' hrun hended
    apply MutingWorker.mute_iff rfl hrun hended
  · intro as t l' hrun hended
    apply MutingCli.mute_iff rfl hrun hended

/-- The worker streams, and is stopped. -/
def streamAndStop : List (FlagStep Nat MutingAction) :=
  List.replicate 19 (.step (.worker (.proceed true) true)) ++ .step .requestStop
    :: List.replicate 5 (.step (.worker (.proceed true) true))

/-- The command line program streams, the default endpoint is changed, and the program is
stopped. -/
def streamAndSwitch (default : Nat) : List (FlagStep Nat MutingCliAction) :=
  List.replicate 9 (.step (.proceed true true)) ++ .move (some default) :: .step .consoleHandler
    :: List.replicate 2 (.step (.proceed true true))

/-- An endpoint that was not muted and stays the default is not muted when the run has ended. -/
theorem mute_restored_stop :
  (∃ t l', Run MutingWorker.program.nextFlags always
        ({ mutes := true }, ⟨fun _ => false, some 3, none⟩) streamAndStop (t, l')
      ∧ t.worker.point = .ended ∧ l'.flag = fun _ => false)
    ∧ ∃ t l', Run MutingCli.program.nextFlags always
        ({ mutes := true }, ⟨fun _ => false, some 3, none⟩) (streamAndSwitch 3) (t, l')
      ∧ t.point = .ended ∧ l'.flag = fun _ => false
  := by
  obtain ⟨hservice, hcli⟩ := mute_restored_iff true (fun _ : Nat => false) (some 3)
  constructor
  · have hrun : Run MutingWorker.program.nextFlags (MutingWorker.program.Careful fun _ => false)
        ({ mutes := true }, ⟨fun _ => false, some 3, none⟩) streamAndStop _ :=
      run_of_exec_guarded rfl
    exact ⟨_, _, hrun.toAlways, rfl, (hservice _ _ _ hrun.toAlways rfl).mpr hrun⟩
  · have hrun : Run MutingCli.program.nextFlags (MutingCli.program.Careful fun _ => false)
        ({ mutes := true }, ⟨fun _ => false, some 3, none⟩) (streamAndSwitch 3) _ :=
      run_of_exec_guarded rfl
    exact ⟨_, _, hrun.toAlways, rfl, (hcli _ _ _ hrun.toAlways rfl).mpr hrun⟩

/-- An endpoint the user had muted is unmuted by the service, and the command line program leaves
one muted that is not the default any more. -/
theorem not_mute_restored :
  (¬ ∀ t l', Run MutingWorker.program.nextFlags always
        ({ mutes := true }, ⟨fun _ => true, some 3, none⟩) streamAndStop (t, l') →
      t.worker.point = .ended → l'.flag = fun _ => true)
    ∧ ¬ ∀ t l', Run MutingCli.program.nextFlags always
        ({ mutes := true }, ⟨fun _ => false, some 3, none⟩) (streamAndSwitch 4) (t, l') →
      t.point = .ended → l'.flag = fun _ => false
  := by
  constructor
  · intro h
    have hflag := congrFun (h _ _ (run_of_exec rfl) rfl) 3
    contradiction
  · intro h
    have hflag := congrFun (h _ _ (run_of_exec rfl) rfl) 3
    contradiction

end Ssc
