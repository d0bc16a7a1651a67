import Mathlib.Algebra.Order.Field.Rat
import Mathlib.Algebra.Field.Rat
import SscOnWindows.Lib.Machine

/-!
# The statistics of a stream

The capture callback counts the callbacks the ring rejects, the encode thread counts its sends and
their failures.  Every 2 s the encode thread takes the overflows and publishes a record, and every
5 s it takes them for a line of the log.  The two threads interleave at any point; of the ring and
of the encoder only what they count is followed.  Rates are exact.
-/

namespace Ssc

open Machine

/-- `StreamStats`. -/
structure StreamStats where
  latencyMs : ℚ := 0
  errorRate : ℚ := 0
  lossRate : ℚ := 0
  bitrateKbps : UInt32 := 0
  queueDepth : UInt32 := 0
  totalSends : UInt64 := 0
  sendFails : UInt64 := 0
  capturedFrames : UInt64 := 0
  droppedFrames : UInt64 := 0
  encodeCalls : UInt64 := 0

/-- Where the encode thread is: it counts, or it has a record it is going to publish, without the
overflows or with them. -/
inductive StatsPoint where
  | counting
  | loaded (st : StreamStats)
  | taken (st : StreamStats)

/-- The counters and the clocks, the records that have been published in this run, and the number
of callbacks the ring has rejected in it. -/
structure StatsState where
  ringOverflowCount : UInt32
  captureBytes : UInt64
  latencyMs : ℚ
  totalSends : UInt64
  sendFails : UInt64
  encodeCalls : UInt64
  diagLastLog : UInt64
  logTick : UInt32
  point : StatsPoint := .counting
  published : List StreamStats := []
  rejected : Nat := 0

/-- A step of the callback, which has its bytes accepted or rejected by the ring, or of the encode
thread, which has encoded or sent, comes to its statistics or takes one of their steps, or comes to
its log. -/
inductive StatsStep where
  | accepted (byteSize : UInt32)
  | rejected
  | encoded (ms : ℚ)
  | sent (sent : Bool)
  | load (now : UInt64) (bitrateKbps queueDepth bytesPerEncode : UInt32)
  | take
  | publish
  | log (now : UInt32)

namespace StatsState

/-- The record, up to the overflows. -/
def record (s : StatsState) (bitrateKbps queueDepth bytesPerEncode : UInt32) : StreamStats where
  latencyMs := s.latencyMs
  bitrateKbps := bitrateKbps
  queueDepth := queueDepth
  totalSends := s.totalSends
  sendFails := s.sendFails
  capturedFrames :=
    s.captureBytes / (if bytesPerEncode > 0 then bytesPerEncode.toUInt64 else 1)
  encodeCalls := s.encodeCalls
  errorRate :=
    if s.sendFails > 0 then s.sendFails.toNat / (s.totalSends + s.sendFails).toNat else 0

/-- The record with the overflows. -/
def withOverflows (st : StreamStats) (oflow : UInt32) : StreamStats :=
  { st with
    droppedFrames := oflow.toUInt64
    lossRate := oflow.toNat / (st.capturedFrames + oflow.toUInt64).toNat }

/-- One step. -/
def next (s : StatsState) : StatsStep → Option StatsState
  | .accepted byteSize => some { s with captureBytes := s.captureBytes + byteSize.toUInt64 }
  | .rejected =>
      some { s with
        ringOverflowCount := s.ringOverflowCount + 1
        rejected := s.rejected + 1 }
  | .encoded ms =>
      match s.point with
      | .counting =>
          some { s with
            latencyMs := if s.latencyMs = 0 then ms else s.latencyMs * 0.8 + ms * 0.2
            encodeCalls := s.encodeCalls + 1 }
      | _ => none
  | .sent sent =>
      match s.point with
      | .counting =>
          some { s with
            totalSends := s.totalSends + 1
            sendFails := if sent then s.sendFails else s.sendFails + 1 }
      | _ => none
  | .load now bitrateKbps queueDepth bytesPerEncode =>
      match s.point with
      | .counting =>
          if now - s.diagLastLog ≥ 2000 then
            some { s with
              diagLastLog := now
              point := .loaded (s.record bitrateKbps queueDepth bytesPerEncode) }
          else some s
      | _ => none
  | .take =>
      match s.point with
      | .loaded st =>
          if st.capturedFrames > 0 then
            some { s with
              ringOverflowCount := 0
              point := .taken (withOverflows st s.ringOverflowCount) }
          else some { s with point := .taken st }
      | _ => none
  | .publish =>
      match s.point with
      | .taken st => some { s with point := .counting, published := s.published ++ [st] }
      | _ => none
  | .log now =>
      match s.point with
      | .counting =>
          if now - s.logTick ≥ 5000 then some { s with logTick := now, ringOverflowCount := 0 }
          else some s
      | _ => none

/-- The record the thread is about to publish. -/
def inFlight (s : StatsState) : Option StreamStats :=
  match s.point with
  | .counting => none
  | .loaded st | .taken st => some st

/-- The overflows in the record the thread is about to publish. -/
def held (s : StatsState) : Nat :=
  (s.inFlight.map fun st => st.droppedFrames.toNat).getD 0

/-- The overflows that have not been reported yet: those of the counter, and those of the record
that is about to be published. -/
def unreported (s : StatsState) : Nat :=
  s.ringOverflowCount.toNat + s.held

/-- The sum of the overflows that have been published. -/
def reported (s : StatsState) : Nat :=
  (s.published.map fun st => st.droppedFrames.toNat).sum

/-- Nothing has been rejected or published in this run, and the thread counts.  The counters and
the clocks are those of the runs before. -/
structure Begins (s : StatsState) : Prop where
  counting : s.point = .counting
  published : s.published = []
  rejected : s.rejected = 0

end StatsState

/-- The error rate is the share of the sends that have failed. -/
def StreamStats.RateLaw (st : StreamStats) : Prop :=
  st.totalSends > 0 → st.errorRate = st.sendFails.toNat / st.totalSends.toNat

namespace StatsState

/-- What is to be said of the statistics at any time. -/
structure Accounted (s : StatsState) : Prop where
  rates : ∀ st ∈ s.published, st.RateLaw
  drops : s.reported + s.unreported = s.rejected

/-- A step keeps the account: the counter does not overflow, a record is published before the first
failure, and the log has no overflows to take. -/
def Keeps (s : StatsState) : StatsStep → Prop
  | .rejected => s.ringOverflowCount.toNat + 1 < 2 ^ 32
  | .publish => ∀ st ∈ s.inFlight, st.totalSends = 0 ∨ st.sendFails = 0
  | .log now => now - s.logTick < 5000 ∨ s.ringOverflowCount = 0
  | _ => True

instance (s : StatsState) (step : StatsStep) : Decidable (s.Keeps step) :=
  match step with
  | .rejected => inferInstanceAs (Decidable (_ < _))
  | .publish => inferInstanceAs (Decidable (∀ st ∈ s.inFlight, _))
  | .log _ => inferInstanceAs (Decidable (_ ∨ _))
  | .accepted _ | .encoded _ | .sent _ | .load _ _ _ _ | .take => inferInstanceAs (Decidable True)

end StatsState

/-! ### Rates -/

/-- The error rate of a record, as it is computed. -/
def StreamStats.Rated (st : StreamStats) : Prop :=
  st.errorRate
    = if st.sendFails > 0 then (st.sendFails.toNat : ℚ) / (st.totalSends + st.sendFails).toNat
      else 0

/-- The rate counts the failures twice, which is right when there are none. -/
theorem StreamStats.Rated.law_iff {st : StreamStats} (h : st.Rated) :
  st.RateLaw ↔ st.totalSends = 0 ∨ st.sendFails = 0
  := by
  rw [StreamStats.RateLaw, h]
  rcases eq_or_ne st.sendFails 0 with hfails | hfails
  · simp [hfails]
  · have hpos : st.sendFails > 0 := UInt64.pos_iff_ne_zero.mpr hfails
    have hnat : 0 < st.sendFails.toNat := UInt64.lt_iff_toNat_lt.mp hpos
    have hlt := st.sendFails.toNat_lt
    have hsum : (st.totalSends + st.sendFails).toNat ≠ st.totalSends.toNat := by
      rw [UInt64.toNat_add]
      omega
    rw [if_pos hpos, or_iff_left hfails]
    constructor
    · intro hlaw
      by_contra htotal
      apply hsum
      apply Nat.cast_injective (R := ℚ)
      apply inv_injective
      apply mul_left_cancel₀ (Nat.cast_ne_zero.mpr hnat.ne')
      apply hlaw
      apply UInt64.pos_iff_ne_zero.mpr htotal
    · intro htotal hpos
      rw [htotal] at hpos
      contradiction

namespace StatsState

/-! ### Steps -/

variable {s t : StatsState} {step : StatsStep}

/-- What no step but those of the statistics changes. -/
structure SameAccount (s t : StatsState) : Prop where
  count : t.ringOverflowCount = s.ringOverflowCount
  published : t.published = s.published
  rejected : t.rejected = s.rejected

/-- What a step does to the account and to the record about to be published. -/
theorem next_cases (h : s.next step = some t) :
  (s.Keeps step ∧ t.point = s.point ∧ SameAccount s t)
    ∨ (step = .rejected
      ∧ t = { s with ringOverflowCount := s.ringOverflowCount + 1, rejected := s.rejected + 1 })
    ∨ (∃ st, s.Keeps step ∧ s.point = .counting ∧ t.point = .loaded st ∧ st.Rated
      ∧ st.droppedFrames = 0 ∧ SameAccount s t)
    ∨ (∃ st, s.Keeps step ∧ s.point = .loaded st ∧ t = { s with point := .taken st })
    ∨ (∃ st, s.Keeps step ∧ s.point = .loaded st
      ∧ t = { s with
          ringOverflowCount := 0
          point := .taken (withOverflows st s.ringOverflowCount) })
    ∨ (∃ st, step = .publish ∧ s.point = .taken st
      ∧ t = { s with point := .counting, published := s.published ++ [st] })
    ∨ (∃ now, step = .log now ∧ s.point = .counting ∧ 5000 ≤ now - s.logTick
      ∧ t = { s with logTick := now, ringOverflowCount := 0 })
  := by
  cases step with
  | accepted byteSize =>
      obtain rfl := Option.some.inj h
      left
      exact ⟨trivial, rfl, rfl, rfl, rfl⟩
  | rejected =>
      obtain rfl := Option.some.inj h
      right; left
      exact ⟨rfl, rfl⟩
  | encoded ms =>
      simp only [next] at h
      split at h
      · obtain rfl := Option.some.inj h
        left
        exact ⟨trivial, rfl, rfl, rfl, rfl⟩
      · contradiction
  | sent sent =>
      simp only [next] at h
      split at h
      · obtain rfl := Option.some.inj h
        left
        exact ⟨trivial, rfl, rfl, rfl, rfl⟩
      · contradiction
  | load now bitrateKbps queueDepth bytesPerEncode =>
      simp only [next] at h
      split at h
      next hpoint =>
        split at h
        · obtain rfl := Option.some.inj h
          right; right; left
          exact ⟨_, trivial, hpoint, rfl, rfl, rfl, rfl, rfl, rfl⟩
        · obtain rfl := Option.some.inj h
          left
          exact ⟨trivial, rfl, rfl, rfl, rfl⟩
      · contradiction
  | take =>
      simp only [next] at h
      split at h
      next st hpoint =>
        split at h
        · obtain rfl := Option.some.inj h
          right; right; right; right; left
          exact ⟨st, trivial, hpoint, rfl⟩
        · obtain rfl := Option.some.inj h
          right; right; right; left
          exact ⟨st, trivial, hpoint, rfl⟩
      · contradiction
  | publish =>
      simp only [next] at h
      split at h
      next st hpoint =>
        obtain rfl := Option.some.inj h
        right; right; right; right; right; left
        exact ⟨st, rfl, hpoint, rfl⟩
      · contradiction
  | log now =>
      simp only [next] at h
      split at h
      next hpoint =>
        split at h
        next hdue =>
          obtain rfl := Option.some.inj h
          right; right; right; right; right; right
          exact ⟨now, rfl, hpoint, hdue, rfl⟩
        next hdue =>
          obtain rfl := Option.some.inj h
          left
          exact ⟨.inl (UInt32.not_le.mp hdue), rfl, rfl, rfl, rfl⟩
      · contradiction

theorem inFlight_of_counting (h : s.point = .counting) :
  s.inFlight = none
  := by
  rw [inFlight, h]

theorem inFlight_of_loaded {st : StreamStats} (h : s.point = .loaded st) :
  s.inFlight = some st
  := by
  rw [inFlight, h]

theorem inFlight_of_taken {st : StreamStats} (h : s.point = .taken st) :
  s.inFlight = some st
  := by
  rw [inFlight, h]

/-- The rate of the record about to be published has been computed, and no overflows are in it as
long as they have not been taken. -/
structure Recording (s : StatsState) : Prop where
  rated : ∀ st ∈ s.inFlight, st.Rated
  fresh : ∀ st, s.point = .loaded st → st.droppedFrames = 0

theorem Recording.of_point (h : s.Recording) (hpoint : t.point = s.point) :
  t.Recording
  := by
  constructor
  · rw [inFlight, hpoint]
    apply h.rated
  · rw [hpoint]
    apply h.fresh

theorem recording_of_counting (h : s.point = .counting) :
  s.Recording
  := by
  constructor
  · simp [inFlight_of_counting h]
  · simp [h]

theorem recording_of_taken {st : StreamStats} (h : s.point = .taken st) (hrated : st.Rated) :
  s.Recording
  := by
  constructor
  · simpa [inFlight_of_taken h]
  · simp [h]

theorem Recording.next (h : s.Recording) (hstep : s.next step = some t) :
  t.Recording
  := by
  rcases next_cases hstep with ⟨-, hpoint, -⟩ | ⟨-, rfl⟩ | ⟨st, -, -, hpoint, hrated, hfresh, -⟩
    | ⟨st, -, hpoint, rfl⟩ | ⟨st, -, hpoint, rfl⟩ | ⟨st, -, -, rfl⟩ | ⟨now, -, hpoint, -, rfl⟩
  · apply h.of_point hpoint
  · apply h.of_point
    rfl
  · constructor
    · simpa [inFlight_of_loaded hpoint]
    · simpa [hpoint]
  · apply recording_of_taken rfl
    apply h.rated st (inFlight_of_loaded hpoint)
  · apply recording_of_taken rfl
    apply h.rated st (inFlight_of_loaded hpoint)
  · apply recording_of_counting rfl
  · apply recording_of_counting
    apply hpoint

/-! ### Overflows -/

theorem held_of_point (h : t.point = s.point) :
  t.held = s.held
  := by
  rw [held, inFlight, h]
  rfl

theorem held_of_counting (h : s.point = .counting) :
  s.held = 0
  := by
  rw [held, inFlight_of_counting h]
  rfl

theorem held_of_loaded {st : StreamStats} (h : s.point = .loaded st) :
  s.held = st.droppedFrames.toNat
  := by
  rw [held, inFlight_of_loaded h]
  rfl

theorem held_of_taken {st : StreamStats} (h : s.point = .taken st) :
  s.held = st.droppedFrames.toNat
  := by
  rw [held, inFlight_of_taken h]
  rfl

theorem toNat_withOverflows (st : StreamStats) (oflow : UInt32) :
  (withOverflows st oflow).droppedFrames.toNat = oflow.toNat
  := UInt32.toNat_toUInt64 oflow

theorem reported_concat (st : StreamStats) :
  ({ s with point := .counting, published := s.published ++ [st] } : StatsState).reported
    = s.reported + st.droppedFrames.toNat
  := by
  simp [reported]

theorem SameAccount.reported (h : SameAccount s t) :
  t.reported = s.reported
  := by
  rw [StatsState.reported, h.published]
  rfl

/-- A step adds to the overflows of the account as many as have been rejected in it, unless the
counter overflows or the log takes some. -/
theorem balanced_iff (hrecording : s.Recording) (hstep : s.next step = some t) :
  t.reported + t.unreported + s.rejected = s.reported + s.unreported + t.rejected
    ↔ step = .publish ∨ s.Keeps step
  := by
  simp only [unreported]
  rcases next_cases hstep with ⟨hk, hpoint, hsame⟩ | ⟨rfl, rfl⟩
    | ⟨st, hk, hpoint, hpoint', -, hfresh, hsame⟩ | ⟨st, hk, hpoint, rfl⟩ | ⟨st, hk, hpoint, rfl⟩
    | ⟨st, rfl, hpoint, rfl⟩ | ⟨now, rfl, hpoint, hdue, rfl⟩
  · rw [hsame.reported, hsame.count, held_of_point hpoint, hsame.rejected]
    simp [hk]
  · have hlt := s.ringOverflowCount.toNat_lt
    have hone : (s.ringOverflowCount + 1).toNat = (s.ringOverflowCount.toNat + 1) % 2 ^ 32 :=
      UInt32.toNat_add _ _
    change s.reported + ((s.ringOverflowCount + 1).toNat + s.held) + s.rejected
        = s.reported + (s.ringOverflowCount.toNat + s.held) + (s.rejected + 1)
      ↔ _ ∨ s.ringOverflowCount.toNat + 1 < 2 ^ 32
    rw [hone]
    simp only [reduceCtorEq, false_or]
    omega
  · rw [hsame.reported, hsame.count, held_of_counting hpoint, held_of_loaded hpoint', hfresh,
      hsame.rejected]
    simp [hk]
  · rw [held_of_loaded hpoint, held_of_taken rfl]
    simp [hk, reported]
  · rw [held_of_loaded hpoint, held_of_taken rfl, hrecording.fresh st hpoint, toNat_withOverflows]
    simp [hk, reported]
  · rw [held_of_taken hpoint, held_of_counting rfl, reported_concat]
    simp only [true_or, iff_true]
    omega
  · have hzero : s.ringOverflowCount = 0 ↔ s.ringOverflowCount.toNat = 0 :=
      UInt32.toNat_inj.symm
    change s.reported + (0 + s.held) + s.rejected
        = s.reported + (s.ringOverflowCount.toNat + s.held) + s.rejected
      ↔ _ ∨ now - s.logTick < 5000 ∨ s.ringOverflowCount = 0
    rw [or_iff_right (UInt32.not_lt.mpr hdue), hzero]
    simp only [reduceCtorEq, false_or]
    omega

/-! ### Runs -/

/-- The rates stay right behind a step unless it publishes a record behind a failure. -/
theorem rates_iff (hrecording : s.Recording) (hrates : ∀ st ∈ s.published, st.RateLaw)
    (hstep : s.next step = some t) :
  (∀ st ∈ t.published, st.RateLaw) ↔ step ≠ .publish ∨ s.Keeps step
  := by
  rcases next_cases hstep with ⟨hk, -, hsame⟩ | ⟨rfl, rfl⟩ | ⟨st, hk, -, -, -, -, hsame⟩
    | ⟨st, hk, -, rfl⟩ | ⟨st, hk, -, rfl⟩ | ⟨st, rfl, hpoint, rfl⟩ | ⟨now, rfl, -, -, rfl⟩
  · rw [hsame.published]
    simpa [hk] using hrates
  · simpa
  · rw [hsame.published]
    simpa [hk] using hrates
  · simpa [hk] using hrates
  · simpa [hk] using hrates
  · have hlaw := (hrecording.rated st (inFlight_of_taken hpoint)).law_iff
    rw [Keeps, inFlight_of_taken hpoint, or_iff_right (by simp)]
    simp only [List.forall_mem_append, List.forall_mem_singleton, hlaw, Option.mem_some_iff,
      forall_eq']
    apply and_iff_right hrates
  · simpa

/-- A right account stays right when the step keeps it, and only then. -/
theorem Accounted.next_iff (h : s.Accounted) (hrecording : s.Recording)
    (hstep : s.next step = some t) :
  t.Accounted ↔ s.Keeps step
  := by
  have hdrops := h.drops
  have hbalanced := balanced_iff hrecording hstep
  have hrates := rates_iff hrecording h.rates hstep
  constructor
  · intro ht
    have hdrops' := ht.drops
    rcases hbalanced.mp (by omega) with rfl | hk
    · apply (hrates.mp ht.rates).resolve_left
      simp
    · apply hk
  · intro hk
    constructor
    · apply hrates.mpr (.inr hk)
    · have := hbalanced.mpr (.inr hk)
      omega

/-- A run begins with a right account when no overflows are left over. -/
theorem Begins.accounted_start_iff (h : s.Begins) :
  s.Accounted ↔ s.ringOverflowCount = 0
  := by
  have hzero : s.ringOverflowCount = 0 ↔ s.ringOverflowCount.toNat = 0 :=
    UInt32.toNat_inj.symm
  rw [hzero]
  constructor
  · intro haccounted
    have hdrops := haccounted.drops
    rw [h.rejected, unreported] at hdrops
    omega
  · intro hcount
    constructor
    · simp [h.published]
    · rw [reported, h.published, unreported, hcount, held_of_counting h.counting, h.rejected]
      rfl

/-- At any time of a run the error rates that have been published are right and every callback that
was rejected is in a record or still to be reported, when nothing is left over from the runs before
and the steps keep the account, and only then. -/
theorem accounted_iff {start last : StatsState} {steps : List StatsStep} (hbegins : start.Begins)
    (hrun : Run StatsState.next always start steps last) :
  (∀ s, Passes StatsState.next start steps s → s.Accounted)
    ↔ start.ringOverflowCount = 0 ∧ Run StatsState.next Keeps start steps last
  := by
  have hiff : start.Accounted → ((∀ s, Passes StatsState.next start steps s → s.Accounted)
      ↔ Run StatsState.next Keeps start steps last) := by
    intro haccounted
    apply passes_iff (I := fun s => s.Recording ∧ s.Accounted) hrun
    · exact ⟨recording_of_counting hbegins.counting, haccounted⟩
    · rintro s ⟨-, hs⟩
      apply hs
    · rintro s step t ⟨hrecording, hs⟩ hk hstep
      exact ⟨hrecording.next hstep, (hs.next_iff hrecording hstep).mpr hk⟩
    · rintro s step t ⟨hrecording, hs⟩ hk hstep ht
      apply hk
      apply (hs.next_iff hrecording hstep).mp ht
  constructor
  · intro hall
    have haccounted := hall start ⟨[], List.nil_prefix, .nil start⟩
    use hbegins.accounted_start_iff.mp haccounted
    apply (hiff haccounted).mp hall
  · rintro ⟨hzero, hkeeps⟩
    apply (hiff (hbegins.accounted_start_iff.mpr hzero)).mpr hkeeps

/-- The statistics of a service that is new. -/
def fresh : StatsState where
  ringOverflowCount := 0
  captureBytes := 0
  latencyMs := 0
  totalSends := 0
  sendFails := 0
  encodeCalls := 0
  diagLastLog := 0
  logTick := 0

theorem begins_fresh : fresh.Begins := ⟨rfl, rfl, rfl⟩

/-- An overflow that is published in time. -/
def overflowInTime : List StatsStep :=
  [.log 6000, .accepted 3840, .rejected, .encoded 3, .sent true, .load 8000 229 1 3840, .take,
    .rejected, .publish]

/-- Without a failure and with the log in time the account is right. -/
theorem accounted_overflowInTime :
  (exec (guarded StatsState.next Keeps) fresh overflowInTime).isSome
    ∧ ∀ s, Passes StatsState.next fresh overflowInTime s → s.Accounted
  := by
  have hsome : (exec (guarded StatsState.next Keeps) fresh overflowInTime).isSome := by
    decide
  obtain ⟨s, hs⟩ := Option.isSome_iff_exists.mp hsome
  have hrun := run_of_exec_guarded hs
  use hsome
  apply (accounted_iff begins_fresh hrun.toAlways).mpr
  exact ⟨rfl, hrun⟩

/-- A send fails, and a record is published. -/
def failedSend : List StatsStep :=
  [.sent false, .load 8000 229 1 3840, .take, .publish]

/-- An overflow is logged. -/
def loggedOverflow : List StatsStep :=
  [.rejected, .log 6000]

/-- The record of the failed send. -/
def failedRecord : StreamStats :=
  record { fresh with totalSends := 1, sendFails := 1 } 229 1 3840

/-- A failure is counted twice, and an overflow that is logged is in no record. -/
theorem not_accounted_failedSend_loggedOverflow :
  (¬ ∀ s, Passes StatsState.next fresh failedSend s → s.Accounted)
    ∧ ¬ ∀ s, Passes StatsState.next fresh loggedOverflow s → s.Accounted
  := by
  constructor
  · intro hall
    have hexec : exec StatsState.next fresh failedSend
        = some { fresh with
            totalSends := 1
            sendFails := 1
            diagLastLog := 8000
            published := [failedRecord] } := rfl
    have hrate := (hall _ ⟨_, List.prefix_rfl, run_of_exec hexec⟩).rates failedRecord (by simp)
    have hrated : failedRecord.Rated := rfl
    have hlaw := hrated.law_iff.mp hrate
    revert hlaw
    decide
  · intro hall
    have hexec : exec StatsState.next fresh loggedOverflow
        = some { fresh with logTick := 6000, rejected := 1 } := rfl
    have hdrops := (hall _ ⟨_, List.prefix_rfl, run_of_exec hexec⟩).drops
    revert hdrops
    decide

end StatsState

end Ssc
