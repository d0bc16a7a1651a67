import SscOnWindows.Pipeline.EncodeThread

/-!
# The reconnect sequence

When the connection is lost the worker takes the encoder and the transport away from the
encode thread, reconnects, resets the timestamp, clears the residual, stores the head of the
ring into its tail, and publishes the encoder and the transport again.  The encode thread
does not take part: it goes on with the iteration it is in, and both threads store what
belongs to the consumer of the ring.

The steps of the callback, the encode thread and the worker are taken in any order.  Which
of them leave the audio of the old link behind is `Lands`, a condition on where the encode
thread is when the worker takes its steps.
-/

namespace Ssc

open Machine WrapRing

/-- Where the worker is in the reconnect sequence.  With the head it has loaded goes the
number of bytes captured by then. -/
inductive ReconnectPoint where
  | streaming
  | clearTransport
  | clearEncoder
  | reconnect
  | resetTimestamp
  | clearResidual
  | loadHead
  | storeTail (head : UInt32) (captured : Nat)
  | publishEncoder
  | publishTransport

/-- What the worker and the encode thread share, with the two of them.  Of the run it is
recorded up to where the captured audio has been flushed, and whether the link is new: it
has come up by a reconnect and no packet has been sent on it. -/
structure StreamingContext where
  encoder : Bool
  transport : Bool
  timestamp : UInt32
  pcmResidual : List Nat
  ring : PcmStream Nat
  thread : ThreadPoint
  worker : ReconnectPoint
  flushed : Nat
  newLink : Bool

/-- The steps: of the callback, of the encode thread, with what it is told by the transport
and the encoder, and of the worker. -/
inductive FlushAction where
  | capture (byteSize : UInt32)
  | copyIn
  | publishHead
  | thread
  | loadTransport (mtu : Nat)
  | encodeReturns (out : Option (Nat × Nat))
  | throw
  | disconnected
  | reconnected
  | worker

namespace StreamingContext

/-- The start of the stream. -/
def start (capacity : UInt32) : StreamingContext where
  encoder := true
  transport := true
  timestamp := 0
  pcmResidual := []
  ring := PcmStream.start 0 capacity
  thread := .outside
  worker := .streaming
  flushed := 0
  newLink := false

/-- The argument of the callback: bytes that carry their position in the stream. -/
def callbackAt (position : Nat) (byteSize : UInt32) : Callback Nat 1 where
  data := List.range' position byteSize.toNat
  whole := one_dvd _
  fits := by
    rw [List.length_range']
    apply byteSize.toNat_lt

/-- A step of the callback. -/
def nextRing (cfg : EncodeConfig) (s : StreamingContext) (a : RingAction Nat 1) :
    Option StreamingContext :=
  (s.ring.next cfg.sampleRate a).map fun ring => { s with ring := ring }

/-- A step of the encode thread. -/
def nextThread (cfg : EncodeConfig) (s : StreamingContext) : Option StreamingContext :=
  match s.thread with
  | .outside => some { s with thread := if s.encoder then .entered else .outside }
  | .entered => some { s with thread := .headLoaded s.ring.ring.head }
  | .headLoaded head =>
      let len := readBytes cfg.frameBytes cfg.sampleRate (head - s.ring.ring.tail).toNat
      some { s with thread := if len = 0 then .outside else .counted len }
  | .counted len => some { s with thread := .reading s.ring.ring.tail len [] }
  | .reading tail len buf =>
      if buf.length < len then
        some { s with
          thread := .reading tail len
            (buf ++ [s.ring.ring.data (s.ring.ring.cell tail len buf.length)]) }
      else
        some { s with
          ring := s.ring.setTail (tail + UInt32.ofNat len) buf
          thread := .converting buf }
  | .converting bytes =>
      match cfg.toPcm bytes with
      | none => some { s with thread := .outside }
      | some pcm => some { s with thread := .combined (s.pcmResidual ++ pcm) }
  | .encode b => some { s with thread := .encoding b }
  | .sending b size frames => some { s with newLink := false, thread := .sent b size frames }
  | .sent b size frames =>
      some { s with thread := .encoded ((b.restart s.timestamp).accumulate cfg size frames) }
  | .encoded b => some { s with thread := .stamping b s.timestamp }
  | .stamping b timestamp =>
      some { s with
        timestamp := timestamp + UInt32.ofNat cfg.pcmFramesPerEncode
        thread := .loop cfg (b.advance cfg) }
  | .finishing b =>
      some { s with newLink := false, thread := .keeping (b.pcm.drop b.offset) }
  | .keeping rest => some { s with pcmResidual := rest, thread := .outside }
  | .combined _ | .encoding _ | .ended => none

/-- A step of the worker. -/
def nextWorker (s : StreamingContext) : Option StreamingContext :=
  match s.worker with
  | .streaming | .reconnect => none
  | .clearTransport => some { s with transport := false, worker := .clearEncoder }
  | .clearEncoder => some { s with encoder := false, worker := .reconnect }
  | .resetTimestamp => some { s with timestamp := 0, worker := .clearResidual }
  | .clearResidual => some { s with pcmResidual := [], worker := .loadHead }
  | .loadHead => some { s with worker := .storeTail s.ring.ring.head s.ring.published }
  | .storeTail head captured =>
      let skipped := (s.ring.stream.drop s.ring.read.length).take
        (head - s.ring.ring.tail).toNat
      some { s with
        ring := s.ring.setTail head skipped
        flushed := captured
        worker := .publishEncoder }
  | .publishEncoder => some { s with encoder := true, worker := .publishTransport }
  | .publishTransport => some { s with transport := true, worker := .streaming }

/-- One step. -/
def next (cfg : EncodeConfig) (s : StreamingContext) : FlushAction → Option StreamingContext
  | .capture byteSize => s.nextRing cfg (.callback (callbackAt s.ring.stream.length byteSize))
  | .copyIn => s.nextRing cfg .copyIn
  | .publishHead => s.nextRing cfg .publishHead
  | .thread => s.nextThread cfg
  | .loadTransport mtu =>
      match s.thread with
      | .combined pcm =>
          if s.transport then
            some { s with
              thread := .loop cfg
                { pcm := pcm, offset := 0, accum := [], accumSize := 0, accumFrames := 0,
                  firstTs := s.timestamp, maxRaw := cfg.maxRaw mtu } }
          else some { s with thread := .outside }
      | _ => none
  | .encodeReturns out =>
      match s.thread with
      | .encoding b => some { s with thread := .answered cfg b out }
      | _ => none
  | .throw =>
      if s.thread.inTry then some { s with thread := .ended } else none
  | .disconnected =>
      match s.worker with
      | .streaming => some { s with newLink := false, worker := .clearTransport }
      | _ => none
  | .reconnected =>
      match s.worker with
      | .reconnect => some { s with newLink := true, worker := .resetTimestamp }
      | _ => none
  | .worker => s.nextWorker

/-! ### The law of the flush -/

/-- The ring holds no more than its capacity. -/
def Fits (s : StreamingContext) : Prop :=
  (s.ring.ring.head - s.ring.ring.tail).toNat ≤ s.ring.ring.capacity.toNat

end StreamingContext

/-- What the encode thread has loaded of the ring and not published describes the ring
behind a tail stored at `head`: a loaded head is not behind it, the bytes counted are
there, and a read that is under way begins there. -/
def ThreadPoint.Describes (ring : PcmRingBuffer Nat) (head : UInt32) : ThreadPoint → Prop
  | headLoaded loaded => (loaded - head).toNat ≤ (ring.head - head).toNat
  | counted len => len ≤ (ring.head - head).toNat
  | reading _ _ _ => head = ring.tail
  | _ => True

instance (ring : PcmRingBuffer Nat) (head : UInt32) :
    (p : ThreadPoint) → Decidable (p.Describes ring head)
  | .headLoaded _ => inferInstanceAs (Decidable (_ ≤ _))
  | .counted _ => inferInstanceAs (Decidable (_ ≤ _))
  | .reading _ _ _ => inferInstanceAs (Decidable (_ = _))
  | .outside | .entered | .converting _ | .combined _ | .encode _ | .encoding _
  | .sending _ _ _ | .sent _ _ _ | .encoded _ | .stamping _ _ | .finishing _ | .keeping _
  | .ended => inferInstanceAs (Decidable True)

namespace StreamingContext

/-- Where a step of the worker may find the encode thread: not before storing a residual when
the residual is cleared; not in a read of the ring that the store of the tail puts out of
place, nor past the head the worker has loaded; not with audio captured before the flush
when the transport is published. -/
def WorkerLands (s : StreamingContext) : ReconnectPoint → Prop
  | .clearResidual => s.thread.rest = []
  | .storeTail head captured =>
      s.ring.read.length ≤ captured ∧ s.thread.Describes s.ring.ring head
  | .publishTransport => ∀ x ∈ s.thread.held, s.flushed ≤ x
  | _ => True

instance (s : StreamingContext) : (p : ReconnectPoint) → Decidable (s.WorkerLands p)
  | .clearResidual => inferInstanceAs (Decidable (_ = _))
  | .storeTail _ _ => inferInstanceAs (Decidable (_ ∧ _))
  | .publishTransport => inferInstanceAs (Decidable (∀ x ∈ _, _))
  | .streaming | .clearTransport | .clearEncoder | .reconnect | .resetTimestamp | .loadHead
  | .publishEncoder => inferInstanceAs (Decidable True)

/-- The steps of the worker land where they may, the link comes up beside a thread that is
in no encode loop, and on a new link an iteration that encodes ends with a packet. -/
def Lands (cfg : EncodeConfig) (s : StreamingContext) : FlushAction → Prop
  | .reconnected => s.thread.batch?.isNone = true
  | .worker => s.WorkerLands s.worker
  | .thread => s.newLink = true → s.thread.silent cfg = false
  | _ => True

instance (cfg : EncodeConfig) (s : StreamingContext) : (a : FlushAction) → Decidable (s.Lands cfg a)
  | .reconnected => inferInstanceAs (Decidable (_ = true))
  | .worker => inferInstanceAs (Decidable (s.WorkerLands s.worker))
  | .thread => inferInstanceAs (Decidable (_ → _))
  | .capture _ | .copyIn | .publishHead | .loadTransport _ | .encodeReturns _ | .throw
  | .disconnected => inferInstanceAs (Decidable True)

end StreamingContext

end Ssc
