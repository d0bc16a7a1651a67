import Mathlib.Algebra.Group.Nat.Defs
import Mathlib.Logic.Function.Basic
import SscOnWindows.Lib.Machine

/-!
# The capture of the system audio

`WasapiCapture` gives what the audio engine captures to a callback.  A caller starts and stops it,
a thread of its own takes the packets: it asks for the next packet, gets its buffer, calls back,
and releases the buffer.  The engine lends one buffer at a time.  A call that waits for the thread
gives up after five seconds, so that a later call can start a second thread beside the first one.

The threads are numbered in the order of their creation.  What the engine has captured and what the
callback has got is recorded along the run.
-/

namespace Ssc

open Machine

/-- A packet of the engine: its buffer, whose size in bytes is a `UINT32`, and whether its flags say
that it is silent. -/
structure CapturePacket (frameBytes : Nat) where
  frames : Nat
  silent : Bool
  data : List UInt8
  frames_pos : 0 < frames
  size : data.length = frames * frameBytes
  fits : frames * frameBytes < 2 ^ 32

namespace CapturePacket

variable {frameBytes : Nat}

/-- The `bytes` of the buffer. -/
def bytes (p : CapturePacket frameBytes) : Nat :=
  p.frames * frameBytes % 2 ^ 32

/-- The audio of the packet: the bytes of a silent one mean nothing. -/
def audio (p : CapturePacket frameBytes) : List UInt8 :=
  if p.silent then List.replicate (p.frames * frameBytes) 0 else p.data

/-- `silence`, resized when it is too small for the packet. -/
def resize (p : CapturePacket frameBytes) (silence : List UInt8) : List UInt8 :=
  if silence.length < p.bytes then silence ++ List.replicate (p.bytes - silence.length) 0
  else silence

/-- The frames that the callback reads. -/
def handed (p : CapturePacket frameBytes) (silence : List UInt8) : List UInt8 :=
  if p.silent then (p.resize silence).take (p.frames * frameBytes) else p.data

theorem bytes_eq (p : CapturePacket frameBytes) :
  p.bytes = p.frames * frameBytes
  := Nat.mod_eq_of_lt p.fits

/-- The resized `silence` is big enough for the packet. -/
theorem le_length_resize (p : CapturePacket frameBytes) (silence : List UInt8) :
  p.frames * frameBytes ≤ (p.resize silence).length
  := by
  rw [resize, p.bytes_eq]
  split
  · rw [List.length_append, List.length_replicate]
    omega
  · omega

/-- The callback reads whole frames, and does not read past its buffer. -/
theorem length_handed (p : CapturePacket frameBytes) (silence : List UInt8) :
  (p.handed silence).length = p.frames * frameBytes
  := by
  rw [handed]
  split
  · rw [List.length_take_of_le (p.le_length_resize silence)]
  · apply p.size

/-- A vector of zeros is resized to a vector of zeros. -/
theorem resize_zeros (p : CapturePacket frameBytes) {silence : List UInt8}
    (h : ∀ x ∈ silence, x = 0) :
  ∀ x ∈ p.resize silence, x = 0
  := by
  intro x hx
  rw [resize] at hx
  split at hx
  · rcases List.mem_append.mp hx with hx | hx
    · apply h x hx
    · apply List.eq_of_mem_replicate hx
  · apply h x hx

/-- The callback gets the audio of the packet when `silence` is silent. -/
theorem handed_eq_audio (p : CapturePacket frameBytes) {silence : List UInt8}
    (h : ∀ x ∈ silence, x = 0) :
  p.handed silence = p.audio
  := by
  rw [handed, audio]
  split
  · rw [List.eq_replicate_iff]
    constructor
    · rw [List.length_take_of_le (p.le_length_resize silence)]
    · intro x hx
      apply p.resize_zeros h x (List.mem_of_mem_take hx)
  · rfl

end CapturePacket

/-- Where a capture thread is in `capture_loop`: it holds the packet of `decide`, `callback` and
`releaseBuffer`, which is none when the engine had nothing left to lend. -/
inductive CapturePoint (frameBytes : Nat) where
  | unborn
  | begin
  | test
  | wait
  | nextPacket
  | getBuffer
  | decide (p : Option (CapturePacket frameBytes))
  | callback (p : CapturePacket frameBytes)
  | releaseBuffer (p : Option (CapturePacket frameBytes))
  | nextAfter
  | finish
  | exited

namespace CapturePoint

variable {frameBytes : Nat}

/-- The packet whose buffer the thread has. -/
def held : CapturePoint frameBytes → Option (CapturePacket frameBytes)
  | .decide p => p
  | .callback p => some p
  | .releaseBuffer p => p
  | _ => none

/-- The packet whose buffer the thread has and has not called back with. -/
def pending : CapturePoint frameBytes → Option (CapturePacket frameBytes)
  | .decide p => p
  | _ => none

/-- The thread runs. -/
def alive : CapturePoint frameBytes → Bool
  | .unborn | .exited => false
  | _ => true

end CapturePoint

/-- A capture thread with its `silence`. -/
structure CaptureThread (frameBytes : Nat) where
  point : CapturePoint frameBytes := .unborn
  silence : List UInt8 := []

/-- Where the caller is in `start` and `stop`. -/
inductive CaptureCaller where
  | idle
  | setCallback (callback : Bool)
  | resetEvent
  | setRunning
  | startClient
  | createThread
  | abortClient
  | failStart
  | clearRunning
  | setEvent
  | waitThread
  | stopClient
  deriving DecidableEq

/-- `WasapiCapture` after `init`, with its caller, its threads, the audio client, the packets
captured, and what the callback has got.  `callback` says whether `callback_` is set, and `lent` is
the thread that has a buffer of the client. -/
structure WasapiCapture (frameBytes : Nat) where
  running : Bool := false
  callback : Bool := false
  threadHandle : Option Nat := none
  stopEvent : Bool := false
  caller : CaptureCaller := .idle
  threads : Nat → CaptureThread frameBytes := fun _ => {}
  created : Nat := 0
  started : Bool := false
  queue : List (CapturePacket frameBytes) := []
  lent : Option Nat := none
  captured : List (CapturePacket frameBytes) := []
  delivered : List (List UInt8) := []

/-- A step: the engine captures a packet, `start` and `stop` are called, the caller goes on in
its call, or a thread goes on in its loop; the steps that call the system may fail. -/
inductive CaptureAction (frameBytes : Nat) where
  | capture (p : CapturePacket frameBytes)
  | start (callback : Bool)
  | stop
  | caller (ok : Bool)
  | thread (i : Nat) (ok : Bool)

namespace WasapiCapture

variable {frameBytes : Nat}

/-- The point of the thread `i`. -/
def point (s : WasapiCapture frameBytes) (i : Nat) : CapturePoint frameBytes :=
  (s.threads i).point

/-- The thread `i` goes on to `p`. -/
def move (s : WasapiCapture frameBytes) (i : Nat) (p : CapturePoint frameBytes) :
    WasapiCapture frameBytes :=
  { s with threads := Function.update s.threads i { s.threads i with point := p } }

/-- `CreateThread`. -/
def createThread (s : WasapiCapture frameBytes) : WasapiCapture frameBytes :=
  { s.move s.created .begin with
    threadHandle := some s.created
    created := s.created + 1
    caller := .idle }

/-- The caller goes on in `start` or `stop`.  Its wait for the thread succeeds when the thread has
ended, and fails when five seconds have passed. -/
def callerStep (s : WasapiCapture frameBytes) (ok : Bool) : Option (WasapiCapture frameBytes) :=
  match s.caller with
  | .idle => none
  | .setCallback callback => some { s with callback := callback, caller := .resetEvent }
  | .resetEvent => some { s with stopEvent := false, caller := .setRunning }
  | .setRunning => some { s with running := true, caller := .startClient }
  | .startClient =>
      some (if ok then { s with started := true, caller := .createThread }
        else { s with caller := .failStart })
  | .createThread => some (if ok then s.createThread else { s with caller := .abortClient })
  | .abortClient => some { s with started := false, caller := .failStart }
  | .failStart => some { s with running := false, caller := .idle }
  | .clearRunning => some { s with running := false, caller := .setEvent }
  | .setEvent =>
      some { s with
        stopEvent := true
        caller := if s.threadHandle.isSome then .waitThread else .stopClient }
  | .waitThread =>
      if ok && (s.threadHandle.any fun i => (s.point i).alive) then none
      else some { s with threadHandle := none, caller := .stopClient }
  | .stopClient => some { s with started := false, caller := .idle }

/-- `GetBuffer` succeeds. -/
def getBuffer (s : WasapiCapture frameBytes) (i : Nat) : WasapiCapture frameBytes :=
  match s.queue with
  | [] => s.move i (.decide none)
  | p :: queue => { s.move i (.decide (some p)) with queue := queue, lent := some i }

/-- The thread calls back when it has frames and `callback_` is set. -/
def callBack (s : WasapiCapture frameBytes) (i : Nat) (p : CapturePacket frameBytes) :
    WasapiCapture frameBytes :=
  { s with
    threads := Function.update s.threads i
      { point := .callback p
        silence := if p.silent then p.resize (s.threads i).silence else (s.threads i).silence }
    delivered := s.delivered ++ [p.handed (s.threads i).silence] }

/-- The thread `i` goes on in `capture_loop`. -/
def threadStep (s : WasapiCapture frameBytes) (i : Nat) (ok : Bool) :
    Option (WasapiCapture frameBytes) :=
  match s.point i with
  | .unborn | .exited => none
  | .begin => some (s.move i .test)
  | .test => some (s.move i (if s.running then .wait else .finish))
  | .wait => some (s.move i (if s.stopEvent then .finish else .nextPacket))
  | .nextPacket =>
      some (s.move i (if ok then if s.queue.isEmpty then .test else .getBuffer else .finish))
  | .getBuffer => some (if ok && s.lent.isNone then s.getBuffer i else s.move i .test)
  | .decide none => some (s.move i (.releaseBuffer none))
  | .decide (some p) =>
      some (if 0 < p.frames && s.callback then s.callBack i p
        else s.move i (.releaseBuffer (some p)))
  | .callback p => some (s.move i (.releaseBuffer (some p)))
  | .releaseBuffer none => some (s.move i .nextAfter)
  | .releaseBuffer (some _) => some { s.move i .nextAfter with lent := none }
  | .nextAfter => some (s.move i (if ok && !s.queue.isEmpty then .getBuffer else .test))
  | .finish => some (s.move i .exited)

/-- One step. -/
def next (s : WasapiCapture frameBytes) :
    CaptureAction frameBytes → Option (WasapiCapture frameBytes)
  | .capture p =>
      if s.started then some { s with queue := s.queue ++ [p], captured := s.captured ++ [p] }
      else none
  | .start callback =>
      if s.caller = .idle then
        some (if s.running then s else { s with caller := .setCallback callback })
      else none
  | .stop =>
      if s.caller = .idle then some (if s.running then { s with caller := .clearRunning } else s)
      else none
  | .caller ok => s.callerStep ok
  | .thread i ok => s.threadStep i ok

/-! ### The threads -/

@[simp]
theorem point_move_self (s : WasapiCapture frameBytes) (i : Nat) (p : CapturePoint frameBytes) :
  (s.move i p).point i = p
  := by
  simp [point, move]

theorem point_move_of_ne (s : WasapiCapture frameBytes) {i j : Nat} (p : CapturePoint frameBytes)
    (h : j ≠ i) :
  (s.move i p).point j = s.point j
  := by
  simp [point, move, h]

/-- What a function of the point says of the threads does not change when it says the same of the
new point. -/
theorem point_move_of_eq {β : Type*} (f : CapturePoint frameBytes → β)
    (s : WasapiCapture frameBytes) {i : Nat} {p : CapturePoint frameBytes}
    (h : f p = f (s.point i)) (j : Nat) :
  f ((s.move i p).point j) = f (s.point j)
  := by
  by_cases hj : j = i
  · rw [hj, point_move_self, h]
  · rw [s.point_move_of_ne p hj]

theorem silence_move (s : WasapiCapture frameBytes) (i j : Nat) (p : CapturePoint frameBytes) :
  ((s.move i p).threads j).silence = (s.threads j).silence
  := by
  by_cases h : j = i <;> simp [move, h]

/-! ### The buffers -/

/-- The audio that the thread with the buffer has still to call back with. -/
def undelivered (s : WasapiCapture frameBytes) : List (List UInt8) :=
  ((s.lent.bind fun i => (s.point i).pending).toList).map CapturePacket.audio

/-- One thread at most has a buffer, and it is the one the client knows of; what has been captured
has been called back with, is going to be by that thread, or is queued. -/
structure Lending (s : WasapiCapture frameBytes) : Prop where
  lent_iff : ∀ i, s.lent = some i ↔ (s.point i).held.isSome = true
  silent : ∀ i, ∀ x ∈ (s.threads i).silence, x = 0
  conserved : s.delivered ++ s.undelivered ++ s.queue.map CapturePacket.audio
    = s.captured.map CapturePacket.audio

/-- A thread goes on without calling back, with the buffer it has. -/
theorem Lending.move {s : WasapiCapture frameBytes} {i : Nat} {p : CapturePoint frameBytes}
    (h : Lending s) (hheld : p.held = (s.point i).held)
    (hpending : p.pending = (s.point i).pending) :
  Lending (s.move i p)
  where
  lent_iff j := by
    rw [point_move_of_eq CapturePoint.held s hheld]
    apply h.lent_iff
  silent j := by
    rw [silence_move]
    apply h.silent
  conserved := by
    have hundelivered : (s.move i p).undelivered = s.undelivered := by
      simp only [undelivered, point_move_of_eq CapturePoint.pending s hpending]
      rfl
    rw [hundelivered]
    apply h.conserved

/-- `GetBuffer` lends the first packet of the queue. -/
theorem Lending.getBuffer {s : WasapiCapture frameBytes} {i : Nat} (h : Lending s)
    (hi : s.point i = .getBuffer) (hlent : s.lent = none) :
  Lending (s.getBuffer i)
  := by
  rw [WasapiCapture.getBuffer]
  split
  next =>
    apply h.move
    · rw [hi]
      rfl
    · rw [hi]
      rfl
  next p queue hqueue =>
    constructor
    · intro j
      change some i = some j ↔ ((s.move i (.decide (some p))).point j).held.isSome = true
      by_cases hj : j = i
      · rw [hj, point_move_self]
        simp [CapturePoint.held]
      · rw [s.point_move_of_ne _ hj, ← h.lent_iff, hlent]
        simp [Ne.symm hj]
    · intro j
      change ∀ x ∈ ((s.move i (.decide (some p))).threads j).silence, x = 0
      rw [silence_move]
      apply h.silent
    · have hconserved := h.conserved
      simp only [undelivered, hlent, hqueue] at hconserved
      simp only [undelivered]
      change s.delivered ++ (((s.move i (.decide (some p))).point i).pending.toList).map
        CapturePacket.audio ++ queue.map CapturePacket.audio = s.captured.map CapturePacket.audio
      rw [point_move_self, ← hconserved]
      simp [CapturePoint.pending]

/-- The thread calls back with the packet it has. -/
theorem Lending.callBack {s : WasapiCapture frameBytes} {i : Nat} {p : CapturePacket frameBytes}
    (h : Lending s) (hi : s.point i = .decide (some p)) :
  Lending (s.callBack i p)
  := by
  have hpoint : ∀ j, (s.callBack i p).point j = (s.move i (.callback p)).point j := by
    intro j
    by_cases hj : j = i
    · rw [hj, point_move_self]
      simp [point, WasapiCapture.callBack]
    · rw [s.point_move_of_ne _ hj]
      simp [point, WasapiCapture.callBack, hj]
  have hlent : s.lent = some i := by
    rw [h.lent_iff, hi]
    rfl
  constructor
  · intro j
    rw [hpoint, point_move_of_eq CapturePoint.held s (by rw [hi]; rfl)]
    apply h.lent_iff
  · intro j x hx
    by_cases hj : j = i
    · simp only [WasapiCapture.callBack, hj, Function.update_self] at hx
      split at hx
      · apply p.resize_zeros (h.silent i) x hx
      · apply h.silent i x hx
    · simp only [WasapiCapture.callBack, Function.update_of_ne hj] at hx
      apply h.silent j x hx
  · have hconserved := h.conserved
    have hthis :
        ((s.callBack i p).lent.bind fun j => ((s.callBack i p).point j).pending) = none := by
      change (s.lent.bind fun j => ((s.callBack i p).point j).pending) = none
      rw [hlent, Option.bind_some, hpoint, point_move_self]
      rfl
    simp only [undelivered, hlent, hi, Option.bind_some] at hconserved
    simp only [undelivered, hthis]
    change s.delivered ++ [p.handed (s.threads i).silence] ++ [] ++ s.queue.map _ = s.captured.map _
    rw [p.handed_eq_audio (h.silent i), List.append_nil]
    apply hconserved

/-- `ReleaseBuffer` gives the buffer back. -/
theorem Lending.giveBack {s : WasapiCapture frameBytes} {i : Nat} {p : CapturePacket frameBytes}
    (h : Lending s) (hi : s.point i = .releaseBuffer (some p)) :
  Lending { s.move i .nextAfter with lent := none }
  := by
  have hlent : s.lent = some i := by
    rw [h.lent_iff, hi]
    rfl
  constructor
  · intro j
    change none = some j ↔ ((s.move i .nextAfter).point j).held.isSome = true
    by_cases hj : j = i
    · rw [hj, point_move_self]
      simp [CapturePoint.held]
    · rw [s.point_move_of_ne _ hj, ← h.lent_iff, hlent]
      simp [Ne.symm hj]
  · intro j
    change ∀ x ∈ ((s.move i .nextAfter).threads j).silence, x = 0
    rw [silence_move]
    apply h.silent
  · have hconserved := h.conserved
    simp only [undelivered, hlent, hi, Option.bind_some] at hconserved
    apply hconserved

/-- Every thread there is was created with a callback. -/
structure Armed (s : WasapiCapture frameBytes) : Prop where
  unborn : ∀ i, s.created ≤ i → s.point i = .unborn
  threads : ∀ i, s.point i ≠ .unborn → s.callback = true
  call : match s.caller with
    | .setCallback callback => callback = true
    | .resetEvent | .setRunning | .startClient | .createThread => s.callback = true
    | _ => True

/-- No thread is created, and the caller stays where it is. -/
theorem Armed.of_points {s t : WasapiCapture frameBytes} (h : Armed s)
    (hcreated : t.created = s.created) (hcallback : t.callback = s.callback)
    (hcaller : t.caller = s.caller) (hpoint : ∀ i, t.point i = .unborn ↔ s.point i = .unborn) :
  Armed t
  where
  unborn i hi := by
    rw [hpoint]
    apply h.unborn i (hcreated ▸ hi)
  threads i hi := by
    rw [ne_eq, hpoint] at hi
    rw [hcallback]
    apply h.threads i hi
  call := by
    rw [hcaller, hcallback]
    apply h.call

/-- A thread that has been created goes on. -/
theorem unborn_move_iff {s : WasapiCapture frameBytes} {i : Nat} {p : CapturePoint frameBytes}
    (hi : s.point i ≠ .unborn) (hp : p ≠ .unborn) (j : Nat) :
  (s.move i p).point j = .unborn ↔ s.point j = .unborn
  := by
  by_cases hj : j = i
  · rw [hj, point_move_self]
    constructor
    · intro h
      contradiction
    · intro h
      contradiction
  · rw [s.point_move_of_ne p hj]

/-- The steps of `start` that are given a function to call back. -/
def GivesCallback (_ : WasapiCapture frameBytes) (a : CaptureAction frameBytes) : Prop :=
  match a with
  | .start callback => callback = true
  | _ => True

/-- What a step of a thread does: it goes on with the buffer it has, gets a buffer, calls back, or
gives its buffer back. -/
theorem threadStep_cases {s t : WasapiCapture frameBytes} {i : Nat} {ok : Bool} (h : Armed s)
    (hstep : s.threadStep i ok = some t) :
  (∃ p : CapturePoint frameBytes, t = s.move i p ∧ p ≠ .unborn ∧ p.held = (s.point i).held
      ∧ p.pending = (s.point i).pending)
  ∨ (s.point i = .getBuffer ∧ s.lent = none ∧ t = s.getBuffer i)
  ∨ (∃ p, s.point i = .decide (some p) ∧ t = s.callBack i p)
  ∨ (∃ p, s.point i = .releaseBuffer (some p) ∧ t = { s.move i .nextAfter with lent := none })
  := by
  have hcallback := h.threads i
  unfold threadStep at hstep
  split at hstep
  next => contradiction
  next => contradiction
  next hi =>
    obtain rfl := Option.some.inj hstep
    exact .inl ⟨_, rfl, nofun, by rw [hi]; rfl, by rw [hi]; rfl⟩
  next hi =>
    obtain rfl := Option.some.inj hstep
    left
    refine ⟨_, rfl, ?_⟩
    rw [hi]
    split
    · exact ⟨nofun, rfl, rfl⟩
    · exact ⟨nofun, rfl, rfl⟩
  next hi =>
    obtain rfl := Option.some.inj hstep
    left
    refine ⟨_, rfl, ?_⟩
    rw [hi]
    split
    · exact ⟨nofun, rfl, rfl⟩
    · exact ⟨nofun, rfl, rfl⟩
  next hi =>
    obtain rfl := Option.some.inj hstep
    left
    refine ⟨_, rfl, ?_⟩
    rw [hi]
    split
    · split
      · exact ⟨nofun, rfl, rfl⟩
      · exact ⟨nofun, rfl, rfl⟩
    · exact ⟨nofun, rfl, rfl⟩
  next hi =>
    obtain rfl := Option.some.inj hstep
    split
    next hok =>
      rw [Bool.and_eq_true, Option.isNone_iff_eq_none] at hok
      exact .inr (.inl ⟨hi, hok.2, rfl⟩)
    next =>
      left
      exact ⟨_, rfl, nofun, by rw [hi]; rfl, by rw [hi]; rfl⟩
  next hi =>
    obtain rfl := Option.some.inj hstep
    exact .inl ⟨_, rfl, nofun, by rw [hi]; rfl, by rw [hi]; rfl⟩
  next p hi =>
    have hgiven : (decide (0 < p.frames) && s.callback) = true := by
      rw [Bool.and_eq_true, decide_eq_true_eq]
      constructor
      · apply p.frames_pos
      · apply hcallback
        rw [hi]
        nofun
    rw [if_pos hgiven] at hstep
    obtain rfl := Option.some.inj hstep
    exact .inr (.inr (.inl ⟨p, hi, rfl⟩))
  next p hi =>
    obtain rfl := Option.some.inj hstep
    exact .inl ⟨_, rfl, nofun, by rw [hi]; rfl, by rw [hi]; rfl⟩
  next hi =>
    obtain rfl := Option.some.inj hstep
    exact .inl ⟨_, rfl, nofun, by rw [hi]; rfl, by rw [hi]; rfl⟩
  next p hi =>
    obtain rfl := Option.some.inj hstep
    exact .inr (.inr (.inr ⟨p, hi, rfl⟩))
  next hi =>
    obtain rfl := Option.some.inj hstep
    left
    refine ⟨_, rfl, ?_⟩
    rw [hi]
    split
    · exact ⟨nofun, rfl, rfl⟩
    · exact ⟨nofun, rfl, rfl⟩
  next hi =>
    obtain rfl := Option.some.inj hstep
    exact .inl ⟨_, rfl, nofun, by rw [hi]; rfl, by rw [hi]; rfl⟩

/-- A thread that takes a step runs. -/
theorem alive_of_threadStep {s t : WasapiCapture frameBytes} {i : Nat} {ok : Bool}
    (hstep : s.threadStep i ok = some t) :
  (s.point i).alive = true
  := by
  cases hpoint : s.point i with
  | unborn | exited => simp [threadStep, hpoint] at hstep
  | begin | test | wait | nextPacket | getBuffer | decide | callback | releaseBuffer | nextAfter
  | finish => rfl

theorem ne_unborn_of_alive {p : CapturePoint frameBytes} (h : p.alive = true) :
  p ≠ .unborn
  := by
  rintro rfl
  contradiction

theorem Lending.threadStep {s t : WasapiCapture frameBytes} {i : Nat} {ok : Bool} (h : Lending s)
    (ha : Armed s) (hstep : s.threadStep i ok = some t) :
  Lending t
  := by
  rcases threadStep_cases ha hstep with ⟨p, rfl, -, hheld, hpending⟩ | ⟨hi, hlent, rfl⟩
    | ⟨p, hi, rfl⟩ | ⟨p, hi, rfl⟩
  · apply h.move hheld hpending
  · apply h.getBuffer hi hlent
  · apply h.callBack hi
  · apply h.giveBack hi

theorem Armed.threadStep {s t : WasapiCapture frameBytes} {i : Nat} {ok : Bool} (h : Armed s)
    (hstep : s.threadStep i ok = some t) :
  Armed t
  := by
  have hi := ne_unborn_of_alive (alive_of_threadStep hstep)
  rcases threadStep_cases h hstep with ⟨p, rfl, hp, -, -⟩ | ⟨-, -, rfl⟩ | ⟨p, -, rfl⟩ | ⟨p, -, rfl⟩
  · exact h.of_points rfl rfl rfl (unborn_move_iff hi hp)
  · rw [WasapiCapture.getBuffer]
    split
    next => exact h.of_points rfl rfl rfl (unborn_move_iff hi nofun)
    next => exact h.of_points rfl rfl rfl (unborn_move_iff hi nofun)
  · refine h.of_points rfl rfl rfl ?_
    intro j
    rw [← unborn_move_iff (p := .callback p) hi nofun j]
    by_cases hj : j = i <;> simp [point, WasapiCapture.callBack, WasapiCapture.move, hj]
  · exact h.of_points rfl rfl rfl (unborn_move_iff hi nofun)

/-! ### The caller -/

/-- A step that leaves alone what the threads and the client share. -/
theorem Lending.of_frame {s t : WasapiCapture frameBytes} (h : Lending s)
    (hthreads : t.threads = s.threads) (hqueue : t.queue = s.queue) (hlent : t.lent = s.lent)
    (hcaptured : t.captured = s.captured) (hdelivered : t.delivered = s.delivered) :
  Lending t
  := by
  have hpoint : t.point = s.point := by
    funext i
    rw [point, hthreads]
    rfl
  constructor
  · rw [hlent, hpoint]
    apply h.lent_iff
  · rw [hthreads]
    apply h.silent
  · rw [undelivered, hlent, hpoint, hqueue, hcaptured, hdelivered]
    apply h.conserved

/-- A step of the caller creates a thread, or leaves alone what the threads and the client share. -/
theorem callerStep_cases {s t : WasapiCapture frameBytes} {ok : Bool}
    (hstep : s.callerStep ok = some t) :
  (s.caller = .createThread ∧ t = s.createThread)
  ∨ (t.threads = s.threads ∧ t.created = s.created ∧ t.queue = s.queue ∧ t.lent = s.lent
      ∧ t.captured = s.captured ∧ t.delivered = s.delivered)
  := by
  cases hcaller : s.caller with
  | idle => simp [callerStep, hcaller] at hstep
  | setCallback | resetEvent | setRunning | abortClient | failStart | clearRunning | setEvent
  | stopClient =>
      simp only [callerStep, hcaller] at hstep
      obtain rfl := Option.some.inj hstep
      exact .inr ⟨rfl, rfl, rfl, rfl, rfl, rfl⟩
  | startClient =>
      simp only [callerStep, hcaller] at hstep
      obtain rfl := Option.some.inj hstep
      right
      split
      · exact ⟨rfl, rfl, rfl, rfl, rfl, rfl⟩
      · exact ⟨rfl, rfl, rfl, rfl, rfl, rfl⟩
  | createThread =>
      simp only [callerStep, hcaller] at hstep
      obtain rfl := Option.some.inj hstep
      split
      · exact .inl ⟨rfl, rfl⟩
      · exact .inr ⟨rfl, rfl, rfl, rfl, rfl, rfl⟩
  | waitThread =>
      simp only [callerStep, hcaller] at hstep
      split at hstep
      · contradiction
      · obtain rfl := Option.some.inj hstep
        exact .inr ⟨rfl, rfl, rfl, rfl, rfl, rfl⟩

theorem Lending.callerStep {s t : WasapiCapture frameBytes} {ok : Bool} (h : Lending s)
    (ha : Armed s) (hstep : s.callerStep ok = some t) :
  Lending t
  := by
  rcases callerStep_cases hstep with ⟨-, rfl⟩ | ⟨hthreads, -, hqueue, hlent, hcaptured, hdelivered⟩
  · have hborn := ha.unborn s.created (Nat.le_refl _)
    have hmove : Lending (s.move s.created .begin) := by
      apply h.move
      · rw [hborn]
        rfl
      · rw [hborn]
        rfl
    exact hmove.of_frame rfl rfl rfl rfl rfl
  · apply h.of_frame hthreads hqueue hlent hcaptured hdelivered

theorem Armed.callerStep {s t : WasapiCapture frameBytes} {ok : Bool} (h : Armed s)
    (hstep : s.callerStep ok = some t) :
  Armed t
  := by
  have hcall := h.call
  have hpoint : ∀ {t : WasapiCapture frameBytes}, t.threads = s.threads → t.point = s.point := by
    intro t ht
    funext i
    rw [point, ht]
    rfl
  cases hcaller : s.caller with
  | idle => simp [WasapiCapture.callerStep, hcaller] at hstep
  | setCallback callback =>
      rw [hcaller] at hcall
      simp only [WasapiCapture.callerStep, hcaller] at hstep
      obtain rfl := Option.some.inj hstep
      exact ⟨h.unborn, fun _ _ => hcall, hcall⟩
  | resetEvent | setRunning =>
      rw [hcaller] at hcall
      simp only [WasapiCapture.callerStep, hcaller] at hstep
      obtain rfl := Option.some.inj hstep
      exact ⟨h.unborn, h.threads, hcall⟩
  | abortClient | failStart | clearRunning | stopClient =>
      simp only [WasapiCapture.callerStep, hcaller] at hstep
      obtain rfl := Option.some.inj hstep
      exact ⟨h.unborn, h.threads, trivial⟩
  | setEvent =>
      simp only [WasapiCapture.callerStep, hcaller] at hstep
      obtain rfl := Option.some.inj hstep
      refine ⟨h.unborn, h.threads, ?_⟩
      by_cases hhandle : s.threadHandle.isSome = true <;> simp [hhandle]
  | startClient =>
      rw [hcaller] at hcall
      simp only [WasapiCapture.callerStep, hcaller] at hstep
      obtain rfl := Option.some.inj hstep
      split
      · exact ⟨h.unborn, h.threads, hcall⟩
      · exact ⟨h.unborn, h.threads, trivial⟩
  | createThread =>
      rw [hcaller] at hcall
      simp only [WasapiCapture.callerStep, hcaller] at hstep
      obtain rfl := Option.some.inj hstep
      split
      · constructor
        · intro i hi
          have hi : s.created + 1 ≤ i := hi
          have hne : i ≠ s.created := by omega
          change (s.move s.created .begin).point i = .unborn
          rw [s.point_move_of_ne _ hne]
          apply h.unborn i (by omega)
        · intro i hi
          exact hcall
        · trivial
      · exact ⟨h.unborn, h.threads, trivial⟩
  | waitThread =>
      simp only [WasapiCapture.callerStep, hcaller] at hstep
      split at hstep
      · contradiction
      · obtain rfl := Option.some.inj hstep
        exact ⟨h.unborn, h.threads, trivial⟩

/-! ### Runs -/

/-- A step of the engine, or the first step of a call. -/
theorem Lending.next {s t : WasapiCapture frameBytes} {a : CaptureAction frameBytes}
    (h : Lending s) (ha : Armed s) (hstep : s.next a = some t) :
  Lending t
  := by
  cases a with
  | capture p =>
      obtain ⟨-, ht⟩ := Option.ite_none_right_eq_some.mp hstep
      obtain rfl := Option.some.inj ht
      refine ⟨h.lent_iff, h.silent, ?_⟩
      rw [List.map_append, List.map_append, ← List.append_assoc, ← h.conserved]
      rfl
  | start callback =>
      obtain ⟨-, ht⟩ := Option.ite_none_right_eq_some.mp hstep
      obtain rfl := Option.some.inj ht
      split
      · apply h
      · exact ⟨h.lent_iff, h.silent, h.conserved⟩
  | stop =>
      obtain ⟨-, ht⟩ := Option.ite_none_right_eq_some.mp hstep
      obtain rfl := Option.some.inj ht
      split
      · exact ⟨h.lent_iff, h.silent, h.conserved⟩
      · apply h
  | caller ok => apply h.callerStep ha hstep
  | thread i ok => apply h.threadStep ha hstep

theorem Armed.next {s t : WasapiCapture frameBytes} {a : CaptureAction frameBytes}
    (h : Armed s) (hgives : GivesCallback s a) (hstep : s.next a = some t) :
  Armed t
  := by
  cases a with
  | capture p =>
      obtain ⟨-, ht⟩ := Option.ite_none_right_eq_some.mp hstep
      obtain rfl := Option.some.inj ht
      exact ⟨h.unborn, h.threads, h.call⟩
  | start callback =>
      obtain ⟨-, ht⟩ := Option.ite_none_right_eq_some.mp hstep
      obtain rfl := Option.some.inj ht
      split
      · apply h
      · exact ⟨h.unborn, h.threads, hgives⟩
  | stop =>
      obtain ⟨-, ht⟩ := Option.ite_none_right_eq_some.mp hstep
      obtain rfl := Option.some.inj ht
      split
      · exact ⟨h.unborn, h.threads, trivial⟩
      · apply h
  | caller ok => apply h.callerStep hstep
  | thread i ok => apply h.threadStep hstep

/-- Nothing has happened. -/
theorem lending_start :
  Lending ({} : WasapiCapture frameBytes)
  where
  lent_iff i := by simp [point, CapturePoint.held]
  silent i x hx := by simp at hx
  conserved := rfl

theorem armed_start :
  Armed ({} : WasapiCapture frameBytes)
  where
  unborn _ _ := rfl
  threads _ h := absurd rfl h
  call := trivial

/-- In every run, the buffers are lent to one thread at a time and nothing is lost. -/
theorem lending_of_run {s : WasapiCapture frameBytes} {as : List (CaptureAction frameBytes)}
    (h : Run next GivesCallback {} as s) :
  Lending s ∧ Armed s
  := by
  apply h.invariant (I := fun s => Lending s ∧ Armed s)
  · exact ⟨lending_start, armed_start⟩
  · rintro s a t ⟨hlending, harmed⟩ hgives hstep
    exact ⟨hlending.next harmed hstep, harmed.next hgives hstep⟩

end WasapiCapture

/-- The size of a stereo frame of 16 bits is a `UINT32`. -/
theorem silentPacket_fits :
  1 * 4 < 2 ^ 32
  := by decide

/-- A frame that is to be silent. -/
def silentPacket : CapturePacket 4 where
  frames := 1
  silent := true
  data := [1, 2, 3, 4]
  frames_pos := Nat.one_pos
  size := rfl
  fits := silentPacket_fits

/-- A call of `start`. -/
def startsCapture {frameBytes : Nat} : List (CaptureAction frameBytes) :=
  .start true :: List.replicate 5 (.caller true)

/-- A thread takes the packet that is there, up to the callback. -/
def takesPacket {frameBytes : Nat} (i : Nat) : List (CaptureAction frameBytes) :=
  List.replicate 6 (.thread i true)

/-- The steps of a call of `start` with a callback, of the engine, and of a thread. -/
def firstPacket : List (CaptureAction 4) :=
  startsCapture ++ [.capture silentPacket] ++ takesPacket 0

namespace WasapiCapture

variable {frameBytes : Nat}

instance (s : WasapiCapture frameBytes) (a : CaptureAction frameBytes) :
    Decidable (s.GivesCallback a) := by
  cases a <;> unfold GivesCallback <;> infer_instance

/-- What `running_` and the client are when the caller is at this point. -/
def InOrder (s : WasapiCapture frameBytes) : Prop :=
  match s.caller with
  | .idle => s.started = s.running
  | .setCallback _ | .resetEvent | .setRunning => s.running = false ∧ s.started = false
  | .startClient | .failStart => s.running = true ∧ s.started = false
  | .createThread | .abortClient | .clearRunning => s.running = true ∧ s.started = true
  | .setEvent | .waitThread | .stopClient => s.running = false ∧ s.started = true

/-- The threads that run are the one the caller has a handle of, and it has one only while it
captures or stops. -/
structure Joined (s : WasapiCapture frameBytes) : Prop where
  inOrder : s.InOrder
  unborn : ∀ i, s.created ≤ i → s.point i = .unborn
  alive : ∀ i, (s.point i).alive = true → s.threadHandle = some i
  handle : match s.caller with
    | .idle => s.running = false → s.threadHandle = none
    | .clearRunning | .setEvent | .waitThread => True
    | _ => s.threadHandle = none

/-- The wait of `stop` ends before its five seconds are over. -/
def EndsInTime (s : WasapiCapture frameBytes) (a : CaptureAction frameBytes) : Prop :=
  match a with
  | .caller ok => s.caller = .waitThread → ok = true
  | _ => True

theorem point_callBack (s : WasapiCapture frameBytes) (i : Nat) (p : CapturePacket frameBytes) :
  (s.callBack i p).point = (s.move i (.callback p)).point
  := by
  funext j
  by_cases hj : j = i <;> simp [point, WasapiCapture.callBack, WasapiCapture.move, hj]

/-- The thread `i` moves on, and what the caller has set stays. -/
structure Moved (s t : WasapiCapture frameBytes) (i : Nat) : Prop where
  point : ∃ p, p ≠ .unborn ∧ t.point = (s.move i p).point
  running : t.running = s.running
  started : t.started = s.started
  caller : t.caller = s.caller
  handle : t.threadHandle = s.threadHandle
  created : t.created = s.created
  stopEvent : t.stopEvent = s.stopEvent

theorem moved_move (s : WasapiCapture frameBytes) (i : Nat) {p : CapturePoint frameBytes}
    (hp : p ≠ .unborn) :
  Moved s (s.move i p) i
  := ⟨⟨p, hp, rfl⟩, rfl, rfl, rfl, rfl, rfl, rfl⟩

theorem moved_getBuffer (s : WasapiCapture frameBytes) (i : Nat) :
  Moved s (s.getBuffer i) i
  := by
  rw [getBuffer]
  split
  next => exact s.moved_move i nofun
  next p queue _ => exact ⟨⟨.decide (some p), nofun, rfl⟩, rfl, rfl, rfl, rfl, rfl, rfl⟩

theorem moved_callBack (s : WasapiCapture frameBytes) (i : Nat) (p : CapturePacket frameBytes) :
  Moved s (s.callBack i p) i
  := ⟨⟨.callback p, nofun, s.point_callBack i p⟩, rfl, rfl, rfl, rfl, rfl, rfl⟩

theorem moved_of_threadStep {s t : WasapiCapture frameBytes} {i : Nat} {ok : Bool}
    (hstep : s.threadStep i ok = some t) :
  Moved s t i
  := by
  cases hpoint : s.point i with
  | unborn | exited => simp [threadStep, hpoint] at hstep
  | begin | callback | finish =>
      simp only [threadStep, hpoint] at hstep
      obtain rfl := Option.some.inj hstep
      exact s.moved_move i nofun
  | test | wait | nextAfter =>
      simp only [threadStep, hpoint] at hstep
      obtain rfl := Option.some.inj hstep
      split
      · exact s.moved_move i nofun
      · exact s.moved_move i nofun
  | nextPacket =>
      simp only [threadStep, hpoint] at hstep
      obtain rfl := Option.some.inj hstep
      split
      · split
        · exact s.moved_move i nofun
        · exact s.moved_move i nofun
      · exact s.moved_move i nofun
  | getBuffer =>
      simp only [threadStep, hpoint] at hstep
      obtain rfl := Option.some.inj hstep
      split
      · apply s.moved_getBuffer
      · exact s.moved_move i nofun
  | decide got =>
      cases got with
      | none =>
          simp only [threadStep, hpoint] at hstep
          obtain rfl := Option.some.inj hstep
          exact s.moved_move i nofun
      | some p =>
          simp only [threadStep, hpoint] at hstep
          obtain rfl := Option.some.inj hstep
          split
          · apply s.moved_callBack
          · exact s.moved_move i nofun
  | releaseBuffer got =>
      cases got with
      | none =>
          simp only [threadStep, hpoint] at hstep
          obtain rfl := Option.some.inj hstep
          exact s.moved_move i nofun
      | some p =>
          simp only [threadStep, hpoint] at hstep
          obtain rfl := Option.some.inj hstep
          exact ⟨⟨.nextAfter, nofun, rfl⟩, rfl, rfl, rfl, rfl, rfl, rfl⟩

theorem Joined.threadStep {s t : WasapiCapture frameBytes} {i : Nat} {ok : Bool} (h : Joined s)
    (hstep : s.threadStep i ok = some t) :
  Joined t
  := by
  have hi := alive_of_threadStep hstep
  obtain ⟨⟨p, hp, hpoint⟩, hrunning, hstarted, hcaller, hhandle, hcreated, -⟩ :=
    moved_of_threadStep hstep
  constructor
  · rw [InOrder, hcaller, hrunning, hstarted]
    apply h.inOrder
  · intro j hj
    rw [hpoint, unborn_move_iff (ne_unborn_of_alive hi) hp]
    apply h.unborn j (hcreated ▸ hj)
  · intro j hj
    rw [hhandle]
    by_cases hne : j = i
    · rw [hne]
      apply h.alive i hi
    · rw [hpoint, s.point_move_of_ne p hne] at hj
      apply h.alive j hj
  · rw [hcaller, hhandle, hrunning]
    apply h.handle

theorem Joined.callerStep {s t : WasapiCapture frameBytes} {ok : Bool} (h : Joined s)
    (hends : EndsInTime s (.caller ok)) (hstep : s.callerStep ok = some t) :
  Joined t
  := by
  have horder := h.inOrder
  have hhandle := h.handle
  rw [InOrder] at horder
  cases hcaller : s.caller with
  | idle => simp [WasapiCapture.callerStep, hcaller] at hstep
  | setCallback | resetEvent =>
      rw [hcaller] at horder hhandle
      simp only [WasapiCapture.callerStep, hcaller] at hstep
      obtain rfl := Option.some.inj hstep
      exact ⟨horder, h.unborn, h.alive, hhandle⟩
  | setRunning =>
      rw [hcaller] at horder hhandle
      simp only [WasapiCapture.callerStep, hcaller] at hstep
      obtain rfl := Option.some.inj hstep
      exact ⟨⟨rfl, horder.2⟩, h.unborn, h.alive, hhandle⟩
  | startClient =>
      rw [hcaller] at horder hhandle
      simp only [WasapiCapture.callerStep, hcaller] at hstep
      obtain rfl := Option.some.inj hstep
      split
      · exact ⟨⟨horder.1, rfl⟩, h.unborn, h.alive, hhandle⟩
      · exact ⟨horder, h.unborn, h.alive, hhandle⟩
  | createThread =>
      rw [hcaller] at horder hhandle
      simp only [WasapiCapture.callerStep, hcaller] at hstep
      obtain rfl := Option.some.inj hstep
      split
      · constructor
        · change s.started = s.running
          rw [horder.1, horder.2]
        · intro i hi
          have hi : s.created + 1 ≤ i := hi
          change (s.move s.created .begin).point i = .unborn
          rw [s.point_move_of_ne _ (by omega)]
          apply h.unborn i (by omega)
        · intro i hi
          by_cases hne : i = s.created
          · rw [hne]
            rfl
          · have hi : ((s.move s.created .begin).point i).alive = true := hi
            rw [s.point_move_of_ne _ hne] at hi
            have hsome := h.alive i hi
            rw [hhandle] at hsome
            contradiction
        · intro hrunning
          have hrunning : s.running = false := hrunning
          rw [horder.1] at hrunning
          contradiction
      · exact ⟨horder, h.unborn, h.alive, hhandle⟩
  | abortClient =>
      rw [hcaller] at horder hhandle
      simp only [WasapiCapture.callerStep, hcaller] at hstep
      obtain rfl := Option.some.inj hstep
      exact ⟨⟨horder.1, rfl⟩, h.unborn, h.alive, hhandle⟩
  | failStart =>
      rw [hcaller] at horder hhandle
      simp only [WasapiCapture.callerStep, hcaller] at hstep
      obtain rfl := Option.some.inj hstep
      exact ⟨horder.2, h.unborn, h.alive, fun _ => hhandle⟩
  | clearRunning =>
      rw [hcaller] at horder
      simp only [WasapiCapture.callerStep, hcaller] at hstep
      obtain rfl := Option.some.inj hstep
      exact ⟨⟨rfl, horder.2⟩, h.unborn, h.alive, trivial⟩
  | setEvent =>
      rw [hcaller] at horder
      simp only [WasapiCapture.callerStep, hcaller] at hstep
      obtain rfl := Option.some.inj hstep
      by_cases hsome : s.threadHandle.isSome = true
      · rw [if_pos hsome]
        exact ⟨horder, h.unborn, h.alive, trivial⟩
      · rw [if_neg hsome]
        exact ⟨horder, h.unborn, h.alive, Option.not_isSome_iff_eq_none.mp hsome⟩
  | waitThread =>
      rw [hcaller] at horder
      obtain rfl := hends hcaller
      simp only [WasapiCapture.callerStep, hcaller, Bool.true_and] at hstep
      split at hstep
      · contradiction
      next hended =>
        obtain rfl := Option.some.inj hstep
        refine ⟨horder, h.unborn, ?_, rfl⟩
        intro i hi
        apply absurd _ hended
        rw [h.alive i hi]
        apply hi
  | stopClient =>
      rw [hcaller] at horder hhandle
      simp only [WasapiCapture.callerStep, hcaller] at hstep
      obtain rfl := Option.some.inj hstep
      exact ⟨horder.1.symm, h.unborn, h.alive, fun _ => hhandle⟩

theorem Joined.next {s t : WasapiCapture frameBytes} {a : CaptureAction frameBytes} (h : Joined s)
    (hends : EndsInTime s a) (hstep : s.next a = some t) :
  Joined t
  := by
  have horder := h.inOrder
  have hhandle := h.handle
  rw [InOrder] at horder
  cases a with
  | capture p =>
      obtain ⟨-, ht⟩ := Option.ite_none_right_eq_some.mp hstep
      obtain rfl := Option.some.inj ht
      exact ⟨h.inOrder, h.unborn, h.alive, h.handle⟩
  | start callback =>
      obtain ⟨hidle, ht⟩ := Option.ite_none_right_eq_some.mp hstep
      obtain rfl := Option.some.inj ht
      rw [hidle] at horder hhandle
      split
      · apply h
      next hrunning =>
        rw [Bool.not_eq_true] at hrunning
        exact ⟨⟨hrunning, horder.trans hrunning⟩, h.unborn, h.alive, hhandle hrunning⟩
  | stop =>
      obtain ⟨hidle, ht⟩ := Option.ite_none_right_eq_some.mp hstep
      obtain rfl := Option.some.inj ht
      rw [hidle] at horder
      split
      next hrunning =>
        exact ⟨⟨hrunning, horder.trans hrunning⟩, h.unborn, h.alive, trivial⟩
      · apply h
  | caller ok => apply h.callerStep hends hstep
  | thread i ok => apply h.threadStep hstep

theorem joined_start :
  Joined ({} : WasapiCapture frameBytes)
  where
  inOrder := rfl
  unborn _ _ := rfl
  alive _ h := by contradiction
  handle _ := rfl

/-- Once `stop` has returned, or `start` has failed, no thread runs that could call back, the client
is stopped and has all of its buffers. -/
theorem quiet_of_run {s : WasapiCapture frameBytes} {as : List (CaptureAction frameBytes)}
    (h : Run next (fun s a => GivesCallback s a ∧ EndsInTime s a) {} as s)
    (hidle : s.caller = .idle)
    (hrunning : s.running = false) :
  s.started = false ∧ s.lent = none ∧ s.threadHandle = none ∧ ∀ i ok, s.next (.thread i ok) = none
  := by
  have hjoined : Joined s :=
    h.invariant joined_start fun s a t hs hC hstep => hs.next hC.2 hstep
  obtain ⟨hlending, -⟩ := lending_of_run (h.mono fun s a hC => hC.1)
  have horder := hjoined.inOrder
  have hhandle := hjoined.handle
  rw [InOrder, hidle] at horder
  rw [hidle] at hhandle
  have hdead : ∀ i, (s.point i).alive = false := by
    intro i
    rw [← Bool.not_eq_true]
    intro hi
    have hsome := hjoined.alive i hi
    rw [hhandle hrunning] at hsome
    contradiction
  refine ⟨horder.trans hrunning, ?_, hhandle hrunning, ?_⟩
  · rw [Option.eq_none_iff_forall_ne_some]
    intro i hi
    rw [hlending.lent_iff] at hi
    have hpoint := hdead i
    cases hi' : s.point i with
    | unborn | exited => simp [hi', CapturePoint.held] at hi
    | begin | test | wait | nextPacket | getBuffer | decide | callback | releaseBuffer | nextAfter
    | finish => simp [hi', CapturePoint.alive] at hpoint
  · intro i ok
    rw [Option.eq_none_iff_forall_ne_some]
    intro t ht
    have hi := alive_of_threadStep ht
    rw [hdead i] at hi
    contradiction

/-- `stop` is called while the thread calls back, and waits for it. -/
def stoppedCapture : List (CaptureAction 4) :=
  firstPacket ++ [.stop, .caller true, .caller true] ++ List.replicate 5 (.thread 0 true)
    ++ [.caller true, .caller true]

instance (s : WasapiCapture frameBytes) (a : CaptureAction frameBytes) :
    Decidable (s.EndsInTime a) := by
  cases a <;> unfold EndsInTime <;> infer_instance

/-- The thread has ended. -/
theorem quiet_stoppedCapture :
  ∃ s, Run next (fun s a => GivesCallback s a ∧ EndsInTime s a) {} stoppedCapture s
    ∧ s.delivered = [[0, 0, 0, 0]]
    ∧ s.started = false ∧ s.lent = none ∧ s.threadHandle = none
    ∧ ∀ i ok, s.next (.thread i ok) = none
  := by
  have hend : (exec (guarded next fun s a => GivesCallback s a ∧ EndsInTime s a) {}
      stoppedCapture).map (fun s => (s.delivered, s.caller, s.running))
        = some ([[0, 0, 0, 0]], .idle, false) := rfl
  obtain ⟨s, hs, hend⟩ := Option.map_eq_some_iff.mp hend
  obtain ⟨hdelivered, hcaller, hrunning⟩ : s.delivered = [[0, 0, 0, 0]] ∧ s.caller = .idle
      ∧ s.running = false := by
    simpa using hend
  have hrun := run_of_exec_guarded hs
  use s, hrun, hdelivered
  apply quiet_of_run hrun hcaller hrunning

end WasapiCapture

end Ssc
