import SscOnWindows.Pipeline.Capture
import SscOnWindows.Pipeline.Chunking

/-!
# From the audio engine to the encoder

`service_audio_callback` is the callback of the capture in the service: it runs in the capture
thread and writes to the ring while `g_ctx.running` is set.  The ring is made for one producer.
That there is only one, also when two capture threads run, is due to the engine, which lends one
buffer at a time.
-/

namespace Ssc

open Machine

/-- The capture and the ring with the encode thread behind it. -/
structure CapturedAudio (cfg : ChunkConfig) where
  capture : WasapiCapture cfg.frameBytes := {}
  running : Bool := false
  audio : ServiceAudio

/-- A step of the capture or of the ring, or a store to `g_ctx.running`. -/
inductive CapturedAction (cfg : ChunkConfig) where
  | running (running : Bool)
  | capture (a : CaptureAction cfg.frameBytes)
  | ring (a : RingAction UInt8 cfg.frameBytes)

/-- The frames that the callback reads, as its argument. -/
def CapturePacket.callback {frameBytes : Nat} (p : CapturePacket frameBytes)
    (silence : List UInt8) : Callback UInt8 frameBytes where
  data := p.handed silence
  whole := by
    rw [p.length_handed]
    apply Nat.dvd_mul_left
  fits := by
    rw [p.length_handed]
    apply p.fits

/-- The callback that a step of the capture begins. -/
def WasapiCapture.begins {frameBytes : Nat} (s : WasapiCapture frameBytes) :
    CaptureAction frameBytes → Option (Callback UInt8 frameBytes)
  | .thread i _ =>
      match s.point i with
      | .decide (some p) =>
          if 0 < p.frames && s.callback then some (p.callback (s.threads i).silence) else none
      | _ => none
  | _ => none

/-- The step ends a callback. -/
def WasapiCapture.returns {frameBytes : Nat} (s : WasapiCapture frameBytes) :
    CaptureAction frameBytes → Bool
  | .thread i _ =>
      match s.point i with
      | .callback _ => true
      | _ => false
  | _ => false

/-- The producer is outside of `write`. -/
def Producer.isIdle {α : Type*} : Producer α → Bool
  | .idle => true
  | .copying _ _ => false

namespace CapturedAudio

variable {cfg : ChunkConfig}

/-- Nothing is captured, and the ring is empty. -/
def start (cfg : ChunkConfig) (blank : UInt8) (capacity : UInt32) : CapturedAudio cfg where
  audio := .start blank capacity

/-- What `service_audio_callback` does when it is called. -/
def callBack (s : CapturedAudio cfg) (cb : Callback UInt8 cfg.frameBytes) : Option ServiceAudio :=
  if s.running then s.audio.next cfg (.callback cb) else some s.audio

/-- One step.  A callback returns when its write to the ring is done. -/
def next (s : CapturedAudio cfg) : CapturedAction cfg → Option (CapturedAudio cfg)
  | .running running => some { s with running := running }
  | .capture a =>
      match s.capture.begins a with
      | some cb =>
          (s.callBack cb).bind fun audio =>
            (s.capture.next a).map fun capture => { s with capture := capture, audio := audio }
      | none =>
          if s.capture.returns a && !s.audio.stream.producer.isIdle then none
          else (s.capture.next a).map fun capture => { s with capture := capture }
  | .ring (.callback _) => none
  | .ring a => (s.audio.next cfg a).map fun audio => { s with audio := audio }

end CapturedAudio

/-! ### The ring -/

namespace PcmStream

variable {frameBytes sampleRate : Nat} {s t : PcmStream UInt8}

/-- A callback is offered to the ring by a producer that is outside of `write`. -/
theorem next_callback_iff (cb : Callback UInt8 frameBytes) :
  s.next sampleRate (.callback cb) = some t ↔ s.producer.isIdle = true ∧ t = s.offer cb.data
  := by
  simp only [next]
  split
  next h => simp [h, Producer.isIdle, eq_comm]
  next h => simp [h, Producer.isIdle]

/-- The other steps of the ring offer nothing and do not make its producer busy. -/
theorem offered_of_next {a : RingAction UInt8 frameBytes} (ha : ∀ cb, a ≠ .callback cb)
    (hnext : s.next sampleRate a = some t) :
  t.offered = s.offered ∧ (t.producer.isIdle = false → s.producer.isIdle = false)
  := by
  cases a with
  | callback cb => exact absurd rfl (ha cb)
  | copyIn =>
      simp only [next] at hnext
      split at hnext
      next => contradiction
      next data done h =>
        obtain ⟨x, -, rfl⟩ := Option.map_eq_some_iff.mp hnext
        exact ⟨rfl, fun _ => by rw [h]; rfl⟩
  | publishHead =>
      simp only [next] at hnext
      split at hnext
      next => contradiction
      next data done h =>
        obtain ⟨-, ht⟩ := Option.ite_none_right_eq_some.mp hnext
        obtain rfl := Option.some.inj ht
        exact ⟨rfl, fun hidle => by contradiction⟩
  | loadHead =>
      simp only [next] at hnext
      split at hnext
      next =>
        obtain rfl := Option.some.inj hnext
        rw [loadHead]
        split
        · exact ⟨rfl, id⟩
        · exact ⟨rfl, id⟩
      next => contradiction
  | copyOut =>
      simp only [next] at hnext
      split at hnext
      next => contradiction
      next =>
        obtain ⟨-, ht⟩ := Option.ite_none_right_eq_some.mp hnext
        obtain rfl := Option.some.inj ht
        exact ⟨rfl, id⟩
  | publishTail =>
      simp only [next] at hnext
      split at hnext
      next => contradiction
      next =>
        obtain ⟨-, ht⟩ := Option.ite_none_right_eq_some.mp hnext
        obtain rfl := Option.some.inj ht
        exact ⟨rfl, id⟩

theorem offered_offer (data : List UInt8) :
  (s.offer data).offered = s.offered ++ [data]
  := by
  rw [offer]
  split <;> rfl

end PcmStream

namespace CapturedAudio

variable {cfg : ChunkConfig}

/-- The capture is as it ought to be, and so is the ring; it has been offered what the callback has
got, and its producer is busy only while a thread is in the callback. -/
structure Fed (k : Nat) (s : CapturedAudio cfg) : Prop where
  lending : s.capture.Lending
  armed : s.capture.Armed
  law : s.audio.Law cfg k
  offered : s.audio.stream.offered.Sublist s.capture.delivered
  producer : s.audio.stream.producer.isIdle = false →
    ∃ i p, s.capture.point i = .callback p

/-- The steps of `start` that are given a function to call back. -/
def GivesCallback (s : CapturedAudio cfg) : CapturedAction cfg → Prop
  | .capture a => s.capture.GivesCallback a
  | _ => True

end CapturedAudio

namespace WasapiCapture

variable {frameBytes : Nat} {s t : WasapiCapture frameBytes} {a : CaptureAction frameBytes}

/-- A step that begins a callback: the thread has a packet and calls back with it. -/
theorem callBack_of_begins {cb : Callback UInt8 frameBytes} (hbegins : s.begins a = some cb)
    (hstep : s.next a = some t) :
  ∃ i p, s.point i = .decide (some p) ∧ cb.data = p.handed (s.threads i).silence
    ∧ t = s.callBack i p
  := by
  cases a with
  | capture | start | stop | caller => contradiction
  | thread i ok =>
      simp only [begins] at hbegins
      split at hbegins
      next p hi =>
        obtain ⟨hgiven, hcb⟩ := Option.ite_none_right_eq_some.mp hbegins
        obtain rfl := Option.some.inj hcb
        simp only [next, threadStep, hi, if_pos hgiven] at hstep
        obtain rfl := Option.some.inj hstep
        exact ⟨i, p, hi, rfl, rfl⟩
      next => contradiction

/-- A step that does not begin a callback leaves what the callback has got. -/
theorem delivered_of_begins (ha : s.Armed) (hbegins : s.begins a = none)
    (hstep : s.next a = some t) :
  t.delivered = s.delivered
  := by
  cases a with
  | capture p =>
      obtain ⟨-, ht⟩ := Option.ite_none_right_eq_some.mp hstep
      obtain rfl := Option.some.inj ht
      rfl
  | start | stop =>
      obtain ⟨-, ht⟩ := Option.ite_none_right_eq_some.mp hstep
      obtain rfl := Option.some.inj ht
      split <;> rfl
  | caller ok =>
      rcases callerStep_cases hstep with ⟨-, rfl⟩ | ⟨-, -, -, -, -, hdelivered⟩
      · rfl
      · apply hdelivered
  | thread i ok =>
      rcases threadStep_cases ha hstep with ⟨p, rfl, -⟩ | ⟨-, -, rfl⟩ | ⟨p, hi, -⟩ | ⟨p, -, rfl⟩
      · rfl
      · rw [WasapiCapture.getBuffer]
        split <;> rfl
      · have hcallback : s.callback = true := by
          apply ha.threads i
          apply WasapiCapture.ne_unborn_of_alive
          rw [hi]
          rfl
        simp [begins, hi, hcallback, p.frames_pos] at hbegins
      · rfl

/-- A thread is in the callback until it returns. -/
theorem point_of_returns (ha : s.Armed) (hreturns : s.returns a = false) (hstep : s.next a = some t)
    {i : Nat} {p : CapturePacket frameBytes} (hi : s.point i = .callback p) :
  t.point i = .callback p
  := by
  cases a with
  | capture q =>
      obtain ⟨-, ht⟩ := Option.ite_none_right_eq_some.mp hstep
      obtain rfl := Option.some.inj ht
      apply hi
  | start | stop =>
      obtain ⟨-, ht⟩ := Option.ite_none_right_eq_some.mp hstep
      obtain rfl := Option.some.inj ht
      split <;> exact hi
  | caller ok =>
      rcases callerStep_cases hstep with ⟨-, rfl⟩ | ⟨hthreads, -⟩
      · change (s.move s.created .begin).point i = .callback p
        have hne : i ≠ s.created := by
          rintro rfl
          rw [ha.unborn _ (Nat.le_refl _)] at hi
          contradiction
        rw [s.point_move_of_ne _ hne]
        apply hi
      · rw [point, hthreads]
        apply hi
  | thread j ok =>
      obtain ⟨⟨q, -, hpoint⟩, -⟩ := moved_of_threadStep hstep
      have hne : i ≠ j := by
        rintro rfl
        simp [returns, hi] at hreturns
      rw [hpoint, s.point_move_of_ne q hne]
      apply hi

end WasapiCapture

namespace CapturedAudio

variable {cfg : ChunkConfig} {k : Nat} {s t : CapturedAudio cfg}

/-- A callback goes to the ring whole, or not at all. -/
theorem Fed.callBack (h : cfg.upsampled = false) (hs : Fed k s) {audio : ServiceAudio}
    {cb : Callback UInt8 cfg.frameBytes} (hcall : s.callBack cb = some audio) :
  audio.Law cfg k
  ∧ audio.stream.offered.Sublist (s.audio.stream.offered ++ [cb.data])
  := by
  rw [CapturedAudio.callBack] at hcall
  split at hcall
  · constructor
    · apply hs.law.next h hcall
    · obtain ⟨stream, hstream, rfl⟩ := Option.map_eq_some_iff.mp hcall
      obtain ⟨-, rfl⟩ := (PcmStream.next_callback_iff cb).mp hstream
      rw [← PcmStream.offered_offer]
  · obtain rfl := Option.some.inj hcall
    constructor
    · apply hs.law
    · apply List.sublist_append_left

theorem Fed.next (h : cfg.upsampled = false) (hs : Fed k s) {a : CapturedAction cfg}
    (hgives : s.GivesCallback a) (hstep : s.next a = some t) :
  Fed k t
  := by
  cases a with
  | running running =>
      obtain rfl := Option.some.inj hstep
      exact ⟨hs.lending, hs.armed, hs.law, hs.offered, hs.producer⟩
  | capture a =>
      simp only [CapturedAudio.next] at hstep
      split at hstep
      next cb hbegins =>
        obtain ⟨audio, hcall, hstep⟩ := Option.bind_eq_some_iff.mp hstep
        obtain ⟨capture, hcapture, rfl⟩ := Option.map_eq_some_iff.mp hstep
        obtain ⟨i, p, hi, hdata, rfl⟩ := WasapiCapture.callBack_of_begins hbegins hcapture
        obtain ⟨hlaw, hoffered⟩ := hs.callBack h hcall
        refine ⟨hs.lending.next hs.armed hcapture, hs.armed.next hgives hcapture, hlaw, ?_, ?_⟩
        · apply hoffered.trans
          rw [hdata]
          apply hs.offered.append_right
        · intro _
          use i, p
          simp [WasapiCapture.point_callBack]
      next hbegins =>
        obtain ⟨hreturn, hstep⟩ := Option.ite_none_left_eq_some.mp hstep
        obtain ⟨capture, hcapture, rfl⟩ := Option.map_eq_some_iff.mp hstep
        refine ⟨hs.lending.next hs.armed hcapture, hs.armed.next hgives hcapture, hs.law, ?_, ?_⟩
        · rw [WasapiCapture.delivered_of_begins hs.armed hbegins hcapture]
          apply hs.offered
        · intro hbusy
          have hbusy : s.audio.stream.producer.isIdle = false := hbusy
          obtain ⟨i, p, hi⟩ := hs.producer hbusy
          use i, p
          apply WasapiCapture.point_of_returns hs.armed _ hcapture hi
          rw [hbusy, Bool.not_false, Bool.and_true] at hreturn
          apply Bool.not_eq_true _ ▸ hreturn
  | ring a =>
      have ha : ∀ cb, a ≠ .callback cb := by
        rintro cb rfl
        contradiction
      obtain ⟨audio, haudio, rfl⟩ : ∃ audio, s.audio.next cfg a = some audio
          ∧ { s with audio := audio } = t := by
        cases a with
        | callback cb => exact absurd rfl (ha cb)
        | copyIn | publishHead | loadHead | copyOut | publishTail =>
            apply Option.map_eq_some_iff.mp hstep
      have hlaw := hs.law.next h haudio
      obtain ⟨stream, hstream, rfl⟩ := Option.map_eq_some_iff.mp haudio
      obtain ⟨hoffered, hproducer⟩ := PcmStream.offered_of_next ha hstream
      have hfed : ∀ audio : ServiceAudio, audio.stream = stream → audio.Law cfg k →
          Fed k { s with audio := audio } := by
        rintro audio rfl hlaw
        refine ⟨hs.lending, hs.armed, hlaw, ?_, fun hbusy => hs.producer (hproducer hbusy)⟩
        rw [hoffered]
        apply hs.offered
      apply hfed _ _ hlaw
      cases a <;> rfl

end CapturedAudio

instance (s : CapturedAudio stereo16) (a : CapturedAction stereo16) :
    Decidable (s.GivesCallback a) := by
  cases a <;> unfold CapturedAudio.GivesCallback <;> infer_instance

end Ssc
