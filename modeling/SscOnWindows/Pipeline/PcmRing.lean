import SscOnWindows.Lib.Machine
import SscOnWindows.Lib.WrapRing

/-!
# The ring of captured PCM

`PcmRingBuffer` carries the captured bytes from the WASAPI callback, its only producer,
to the encode thread, its only consumer.  Each party loads the counter of the other,
copies, and publishes its own counter; the copies are taken one byte at a time, so that
the parties interleave at any point of them.  The ring does not look at the bytes, and
they may be of any type.

The bytes accepted and the bytes read are recorded along the run.  The invariant places
both counters on the stream of the accepted bytes: the memory holds the window of the
stream between them.
-/

namespace Ssc

open Machine WrapRing

variable {α : Type*}

/-- `PcmRingBuffer`. -/
structure PcmRingBuffer (α : Type*) where
  data : Nat → α
  head : UInt32
  tail : UInt32
  capacity : UInt32

namespace PcmRingBuffer

/-- `init`. -/
def init (blank : α) (capacity : UInt32) : PcmRingBuffer α where
  data _ := blank
  head := 0
  tail := 0
  capacity := capacity

/-- `available_write`. -/
def availableWrite (r : PcmRingBuffer α) : UInt32 :=
  r.capacity - (r.head - r.tail)

/-- `available_read`. -/
def availableRead (r : PcmRingBuffer α) : UInt32 :=
  r.head - r.tail

/-- The cell of the byte `i` of the `len` bytes that `write` and `read` copy from the
counter `c` on: the first `memcpy` goes up to the end of the buffer, the second one starts
over. -/
def cell (r : PcmRingBuffer α) (c : UInt32) (len i : Nat) : Nat :=
  let pos := (c &&& (r.capacity - 1)).toNat
  let first := if r.capacity.toNat - pos < len then r.capacity.toNat - pos else len
  if i < first then pos + i else i - first

/-- The two copies go through consecutive positions of the stream. -/
theorem cell_eq {r : PcmRingBuffer α} {c : UInt32} {n k len i : Nat} (hc : Counts c n)
    (hcap : r.capacity.toNat = 2 ^ k) (hi : i < len)
    (hlen : len ≤ r.capacity.toNat) :
  r.cell c len i = (n + i) % r.capacity.toNat
  := by
  have hpos : 0 < r.capacity.toNat := by
    rw [hcap]
    apply Nat.two_pow_pos
  have hlt := Nat.mod_lt n hpos
  simp only [cell, hc.toNat_and hcap]
  rw [← Nat.mod_add_mod n]
  generalize n % r.capacity.toNat = m at hlt
  split
  · split
    · rw [Nat.mod_eq_of_lt (by omega)]
    · rw [Nat.mod_eq_sub_mod (by omega), Nat.mod_eq_of_lt (by omega)]
      omega
  · rw [Nat.mod_eq_of_lt (by omega)]

end PcmRingBuffer

/-- The greatest number of frames the encode thread reads at once, about 10 ms of them. -/
def maxFrames (sampleRate frames : Nat) : Nat :=
  if sampleRate > 0 then
    let limit := if sampleRate / 100 < 128 then 128 else sampleRate / 100
    if frames > limit then limit else frames
  else frames

/-- `read_bytes`: what the encode thread takes when `avail` bytes are there. -/
def readBytes (frameBytes sampleRate avail : Nat) : Nat :=
  maxFrames sampleRate (avail / frameBytes) * frameBytes

/-- The encode thread takes whole frames. -/
theorem dvd_readBytes (frameBytes sampleRate avail : Nat) :
  frameBytes ∣ readBytes frameBytes sampleRate avail
  := by
  apply Nat.dvd_mul_left

theorem maxFrames_le (sampleRate frames : Nat) :
  maxFrames sampleRate frames ≤ frames
  := by
  rw [maxFrames]
  grind

/-- The encode thread takes no more than there is. -/
theorem readBytes_le (frameBytes sampleRate avail : Nat) :
  readBytes frameBytes sampleRate avail ≤ avail
  := by
  calc readBytes frameBytes sampleRate avail
      ≤ avail / frameBytes * frameBytes := Nat.mul_le_mul_right _ (maxFrames_le _ _)
    _ ≤ avail := Nat.div_mul_le_self _ _

/-! ### The two parties -/

/-- The argument of `service_audio_callback`: whole frames, whose size in bytes is a
`uint32_t`. -/
structure Callback (α : Type*) (frameBytes : Nat) where
  data : List α
  whole : frameBytes ∣ data.length
  fits : data.length < 2 ^ 32

/-- The producer: outside of `write`, or in it with the bytes `data`, the first `done` of
which are copied. -/
inductive Producer (α : Type*) where
  | idle
  | copying (data : List α) (done : Nat)

/-- The consumer: outside of `read`, or in it for `len` bytes, with those copied so far. -/
inductive Consumer (α : Type*) where
  | idle
  | reading (len : Nat) (buf : List α)

/-- The bytes of the callback the producer is in. -/
def Producer.pending : Producer α → List α
  | .idle => []
  | .copying data _ => data

/-- The number of bytes the producer has copied and not published. -/
def Producer.done : Producer α → Nat
  | .idle => 0
  | .copying _ done => done

/-- The bytes the consumer has copied and not published. -/
def Consumer.buffer : Consumer α → List α
  | .idle => []
  | .reading _ buf => buf

/-- The ring with its parties, the callbacks offered and accepted, and the bytes read. -/
structure PcmStream (α : Type*) where
  ring : PcmRingBuffer α
  producer : Producer α
  consumer : Consumer α
  offered : List (List α)
  accepted : List (List α)
  read : List α

/-- A step of one of the parties. -/
inductive RingAction (α : Type*) (frameBytes : Nat) where
  | callback (cb : Callback α frameBytes)
  | copyIn
  | publishHead
  | loadHead
  | copyOut
  | publishTail

/-- The step is one of the producer. -/
def RingAction.produces {frameBytes : Nat} : RingAction α frameBytes → Bool
  | callback _ | copyIn | publishHead => true
  | _ => false

namespace PcmStream

/-- An empty ring. -/
def start (blank : α) (capacity : UInt32) : PcmStream α where
  ring := PcmRingBuffer.init blank capacity
  producer := .idle
  consumer := .idle
  offered := []
  accepted := []
  read := []

/-- The producer loads the tail and decides whether the callback fits. -/
def offer (s : PcmStream α) (data : List α) : PcmStream α :=
  if data.length = 0 ∨ s.ring.availableWrite.toNat < data.length then
    { s with offered := s.offered ++ [data] }
  else
    { s with
      offered := s.offered ++ [data]
      accepted := s.accepted ++ [data]
      producer := .copying data 0 }

/-- The producer copies the byte `x`, the number `done` of `len`. -/
def copyIn (s : PcmStream α) (data : List α) (done : Nat) (x : α) : PcmStream α :=
  { s with
    ring :=
      { s.ring with
        data := Function.update s.ring.data (s.ring.cell s.ring.head data.length done) x }
    producer := .copying data (done + 1) }

/-- The producer publishes the head. -/
def publishHead (s : PcmStream α) (data : List α) : PcmStream α :=
  { s with
    ring := { s.ring with head := s.ring.head + UInt32.ofNat data.length }
    producer := .idle }

/-- The consumer loads the head and decides how much to read. -/
def loadHead (s : PcmStream α) (frameBytes sampleRate : Nat) : PcmStream α :=
  let len := readBytes frameBytes sampleRate s.ring.availableRead.toNat
  if len = 0 then s else { s with consumer := .reading len [] }

/-- The consumer copies the next of `len` bytes. -/
def copyOut (s : PcmStream α) (len : Nat) (buf : List α) : PcmStream α :=
  { s with
    consumer :=
      .reading len (buf ++ [s.ring.data (s.ring.cell s.ring.tail len buf.length)]) }

/-- The consumer publishes the tail. -/
def publishTail (s : PcmStream α) (len : Nat) (buf : List α) : PcmStream α :=
  { s with
    ring := { s.ring with tail := s.ring.tail + UInt32.ofNat len }
    consumer := .idle
    read := s.read ++ buf }

/-- The tail is stored, which makes the bytes before it read. -/
def setTail (s : PcmStream α) (tail : UInt32) (bytes : List α) : PcmStream α :=
  { s with
    ring := { s.ring with tail := tail }
    consumer := .idle
    read := s.read ++ bytes }

/-- One step. -/
def next {frameBytes : Nat} (sampleRate : Nat) (s : PcmStream α) :
    RingAction α frameBytes → Option (PcmStream α)
  | .callback cb =>
      match s.producer with
      | .idle => some (s.offer cb.data)
      | .copying _ _ => none
  | .copyIn =>
      match s.producer with
      | .idle => none
      | .copying data done => data[done]?.map (s.copyIn data done)
  | .publishHead =>
      match s.producer with
      | .idle => none
      | .copying data done => if done = data.length then some (s.publishHead data) else none
  | .loadHead =>
      match s.consumer with
      | .idle => some (s.loadHead frameBytes sampleRate)
      | .reading _ _ => none
  | .copyOut =>
      match s.consumer with
      | .idle => none
      | .reading len buf => if buf.length < len then some (s.copyOut len buf) else none
  | .publishTail =>
      match s.consumer with
      | .idle => none
      | .reading len buf => if buf.length = len then some (s.publishTail len buf) else none

/-- The stream of the accepted bytes. -/
def stream (s : PcmStream α) : List α :=
  s.accepted.flatten

/-- The number of bytes the producer has published. -/
def published (s : PcmStream α) : Nat :=
  s.stream.length - s.producer.pending.length

/-- The ring is a queue of whole frames: it holds at most its capacity, what has been read
is a prefix of what was accepted, the rest is in the memory, the callbacks that were
not accepted were dropped whole, and a callback that is not empty is accepted exactly when there is
room for it. -/
structure RingLaw (frameBytes : Nat) (s : PcmStream α) : Prop where
  fill_le : (s.ring.head - s.ring.tail).toNat ≤ s.ring.capacity.toNat
  fill_whole : frameBytes ∣ (s.ring.head - s.ring.tail).toNat
  read_initial : s.read ++ s.consumer.buffer <+: s.stream
  kept : ∀ i, i < (s.ring.head - s.ring.tail).toNat →
    s.stream[s.read.length + i]?
      = some (s.ring.data ((s.ring.tail + UInt32.ofNat i) &&& (s.ring.capacity - 1)).toNat)
  complete : s.read.length + (s.ring.head - s.ring.tail).toNat + s.producer.pending.length
    = s.stream.length
  dropped_whole : s.accepted.Sublist s.offered
  accepted_iff : ∀ data, (s.offer data).accepted = s.accepted ++ [data]
    ↔ data ≠ [] ∧ (s.ring.head - s.ring.tail).toNat + data.length ≤ s.ring.capacity.toNat

/-- A ring that holds at most its capacity accepts a callback exactly when there is room for it. -/
theorem offer_accepted_iff {s : PcmStream α}
    (hfill : (s.ring.head - s.ring.tail).toNat ≤ s.ring.capacity.toNat) (data : List α) :
  (s.offer data).accepted = s.accepted ++ [data]
    ↔ data ≠ [] ∧ (s.ring.head - s.ring.tail).toNat + data.length ≤ s.ring.capacity.toNat
  := by
  have hroom : s.ring.availableWrite.toNat
      = s.ring.capacity.toNat - (s.ring.head - s.ring.tail).toNat := by
    rw [PcmRingBuffer.availableWrite, UInt32.toNat_sub_of_le _ _ hfill]
  rw [offer, hroom, ← List.length_pos_iff]
  split
  next hdrop =>
    have hkept : s.accepted ≠ s.accepted ++ [data] := by simp
    apply iff_of_false hkept
    omega
  next hfits =>
    apply iff_of_true rfl
    omega

/-! ### The invariant -/

/-- The head is at the position `h` of the stream and the tail behind the bytes read; the
memory holds the stream from the tail to the head and the bytes the producer has copied
behind it; the producer has room for its callback and the consumer reads below the
head. -/
structure Placed (frameBytes k h : Nat) (s : PcmStream α) : Prop where
  capacity_eq : s.ring.capacity.toNat = 2 ^ k
  head_counts : Counts s.ring.head h
  tail_counts : Counts s.ring.tail s.read.length
  tail_le : s.read.length ≤ h
  room : h + s.producer.pending.length ≤ s.read.length + 2 ^ k
  read_whole : frameBytes ∣ s.read.length
  head_whole : frameBytes ∣ h
  pending_whole : frameBytes ∣ s.producer.pending.length
  stream_eq : ∃ l, s.stream = l ++ s.producer.pending ∧ l.length = h
  done_le : s.producer.done ≤ s.producer.pending.length
  window : Window (2 ^ k) s.ring.data s.stream s.read.length (h + s.producer.done)
  reading : ∀ len buf, s.consumer = .reading len buf →
    frameBytes ∣ len ∧ s.read.length + len ≤ h ∧ buf.length ≤ len
  read_initial : s.read ++ s.consumer.buffer <+: s.stream
  dropped_whole : s.accepted.Sublist s.offered

/-- A prefix goes on with the next item. -/
theorem prefix_snoc {β : Type*} {l m : List β} {x : β} (h : l <+: m) (hx : m[l.length]? = some x) :
  l ++ [x] <+: m
  := by
  obtain ⟨rest, rfl⟩ := h
  rw [List.getElem?_append_right le_rfl, Nat.sub_self] at hx
  obtain ⟨tail, rfl⟩ : ∃ tail, rest = x :: tail := by
    cases rest with
    | nil => contradiction
    | cons y tail =>
        use tail
        simpa using hx
  use tail
  simp

theorem start_placed (frameBytes : Nat) {k : Nat} {blank : α} {capacity : UInt32}
    (hcap : capacity.toNat = 2 ^ k) :
  Placed frameBytes k 0 (start blank capacity)
  where
  capacity_eq := hcap
  head_counts := counts_zero
  tail_counts := counts_zero
  tail_le := le_rfl
  room := Nat.zero_le _
  read_whole := dvd_zero frameBytes
  head_whole := dvd_zero frameBytes
  pending_whole := dvd_zero frameBytes
  stream_eq := ⟨[], rfl, rfl⟩
  done_le := le_rfl
  window := window_empty _ _ _ 0
  reading _ _ h := by cases h
  read_initial := List.nil_prefix
  dropped_whole := List.nil_sublist _

namespace Placed

variable {frameBytes k h : Nat} {s : PcmStream α}

theorem capacity_lt (hp : Placed frameBytes k h s) :
  2 ^ k < 2 ^ 32
  := by
  rw [← hp.capacity_eq]
  apply UInt32.toNat_lt

/-- The difference of the counters is the number of bytes between them. -/
theorem fill_eq (hp : Placed frameBytes k h s) :
  (s.ring.head - s.ring.tail).toNat = h - s.read.length
  := by
  have hroom := hp.room
  have hcap := hp.capacity_lt
  apply hp.head_counts.toNat_sub hp.tail_counts hp.tail_le
  omega

/-- The free space is what the capacity leaves. -/
theorem availableWrite_eq (hp : Placed frameBytes k h s) :
  s.ring.availableWrite.toNat = s.read.length + 2 ^ k - h
  := by
  have hroom := hp.room
  have hle := hp.tail_le
  have hcap := hp.capacity_lt
  rw [PcmRingBuffer.availableWrite, UInt32.toNat_sub, hp.fill_eq, hp.capacity_eq]
  omega

theorem offer (hp : Placed frameBytes k h s) (hidle : s.producer = .idle)
    (cb : Callback α frameBytes) :
  Placed frameBytes k h (s.offer cb.data)
  := by
  rw [PcmStream.offer]
  split
  · exact { hp with dropped_whole := hp.dropped_whole.trans (List.sublist_append_left _ _) }
  · rename_i hfits
    have hspace : cb.data.length ≤ s.read.length + 2 ^ k - h := by
      rw [← hp.availableWrite_eq]
      omega
    have hroom := hp.room
    have hwindow := hp.window
    obtain ⟨l, hstream, hlength⟩ := hp.stream_eq
    rw [hidle] at hroom hwindow hstream
    simp only [Producer.pending, Producer.done, List.length_nil, Nat.add_zero,
      List.append_nil] at hroom hwindow hstream
    have hstream' : (s.accepted ++ [cb.data]).flatten = s.stream ++ cb.data := by
      simp [stream]
    constructor
    · apply hp.capacity_eq
    · apply hp.head_counts
    · apply hp.tail_counts
    · apply hp.tail_le
    · simp only [Producer.pending]
      omega
    · apply hp.read_whole
    · apply hp.head_whole
    · apply cb.whole
    · use l
      constructor
      · rw [← hstream]
        apply hstream'
      · apply hlength
    · apply Nat.zero_le
    · simp only [stream, hstream', Producer.done]
      apply hwindow.append
      rw [hstream, hlength]
    · apply hp.reading
    · simp only [stream, hstream']
      apply hp.read_initial.trans (List.prefix_append _ _)
    · apply hp.dropped_whole.append (List.Sublist.refl _)

theorem copyIn (hp : Placed frameBytes k h s) {data : List α} {done : Nat}
    {x : α} (hproducer : s.producer = .copying data done) (hx : data[done]? = some x) :
  Placed frameBytes k h (s.copyIn data done x)
  := by
  obtain ⟨hlt, -⟩ := List.getElem?_eq_some_iff.mp hx
  have hroom := hp.room
  have hpending := hp.pending_whole
  have hwindow := hp.window
  have hle := hp.tail_le
  obtain ⟨l, hstream, hlength⟩ := hp.stream_eq
  rw [hproducer] at hroom hwindow hstream hpending
  simp only [Producer.pending, Producer.done] at hroom hwindow hstream hpending
  have hcell : s.ring.cell s.ring.head data.length done = (h + done) % 2 ^ k := by
    rw [← hp.capacity_eq]
    apply PcmRingBuffer.cell_eq hp.head_counts hp.capacity_eq hlt
    rw [hp.capacity_eq]
    omega
  exact { hp with
    room := hroom
    pending_whole := hpending
    stream_eq := ⟨l, hstream, hlength⟩
    done_le := hlt
    window := by
      simp only [PcmStream.copyIn, hcell, Producer.done]
      apply hwindow.write (by omega)
      rw [hstream, List.getElem?_append_right (by omega), hlength, Nat.add_sub_cancel_left]
      apply hx }

theorem publishHead (hp : Placed frameBytes k h s) {data : List α}
    (hproducer : s.producer = .copying data data.length) :
  Placed frameBytes k (h + data.length) (s.publishHead data)
  := by
  have hroom := hp.room
  have hpending := hp.pending_whole
  have hwindow := hp.window
  obtain ⟨l, hstream, hlength⟩ := hp.stream_eq
  rw [hproducer] at hroom hwindow hstream hpending
  simp only [Producer.pending, Producer.done] at hroom hwindow hstream hpending
  have hle := hp.tail_le
  have hcap := hp.capacity_lt
  exact { hp with
    head_counts := hp.head_counts.add_ofNat data.length
    tail_le := hp.tail_le.trans (Nat.le_add_right _ _)
    room := hroom
    head_whole := (Nat.dvd_add_right hp.head_whole).mpr hpending
    pending_whole := dvd_zero frameBytes
    stream_eq := by
      use s.stream
      constructor
      · apply (List.append_nil _).symm
      · rw [hstream, List.length_append, hlength]
    done_le := le_rfl
    window := hwindow
    reading := by
      intro len buf hconsumer
      obtain ⟨hwhole, hbelow, hbuf⟩ := hp.reading len buf hconsumer
      exact ⟨hwhole, hbelow.trans (Nat.le_add_right _ _), hbuf⟩ }

theorem loadHead (hp : Placed frameBytes k h s) (hidle : s.consumer = .idle) (sampleRate : Nat) :
  Placed frameBytes k h (s.loadHead frameBytes sampleRate)
  := by
  simp only [PcmStream.loadHead]
  split
  · apply hp
  · have hinitial := hp.read_initial
    rw [hidle] at hinitial
    have hle := readBytes_le frameBytes sampleRate (h - s.read.length)
    have htail := hp.tail_le
    exact { hp with
      reading := by
        intro len buf hconsumer
        rw [PcmRingBuffer.availableRead, hp.fill_eq] at hconsumer
        obtain ⟨rfl, rfl⟩ := Consumer.reading.inj hconsumer
        constructor
        · apply dvd_readBytes
        · constructor
          · change s.read.length + readBytes frameBytes sampleRate (h - s.read.length) ≤ h
            omega
          · apply Nat.zero_le
      read_initial := hinitial }

/-- The cells behind the tail hold the bytes of the stream that have not been read. -/
theorem getElem_tail (hp : Placed frameBytes k h s) {len i : Nat} (hi : i < len)
    (hlen : s.read.length + len ≤ h) :
  s.stream[s.read.length + i]? = some (s.ring.data (s.ring.cell s.ring.tail len i))
  := by
  have hroom := hp.room
  have hcell : s.ring.cell s.ring.tail len i = (s.read.length + i) % 2 ^ k := by
    rw [← hp.capacity_eq]
    apply PcmRingBuffer.cell_eq hp.tail_counts hp.capacity_eq hi
    rw [hp.capacity_eq]
    omega
  rw [hcell]
  apply hp.window
  · apply Nat.le_add_right
  · omega

/-- A tail may be stored anywhere from the old one up to the head. -/
theorem setTail (hp : Placed frameBytes k h s) {tail : UInt32} {bytes : List α}
    (hcounts : Counts tail (s.read ++ bytes).length) (hle : (s.read ++ bytes).length ≤ h)
    (hwhole : frameBytes ∣ (s.read ++ bytes).length) (hinitial : s.read ++ bytes <+: s.stream) :
  Placed frameBytes k h (s.setTail tail bytes)
  := by
  have hroom := hp.room
  have hlength : (s.read ++ bytes).length = s.read.length + bytes.length := List.length_append
  exact { hp with
    tail_counts := hcounts
    tail_le := hle
    room := by
      simp only [PcmStream.setTail, hlength]
      omega
    read_whole := hwhole
    window := by
      apply hp.window.mono _ le_rfl
      simp only [PcmStream.setTail, hlength]
      apply Nat.le_add_right
    reading := by
      intro len buf hconsumer
      cases hconsumer
    read_initial := by
      simp only [PcmStream.setTail, Consumer.buffer, List.append_nil]
      apply hinitial }

theorem copyOut (hp : Placed frameBytes k h s) {len : Nat} {buf : List α}
    (hconsumer : s.consumer = .reading len buf) (hlt : buf.length < len) :
  Placed frameBytes k h (s.copyOut len buf)
  := by
  obtain ⟨hwhole, hbelow, -⟩ := hp.reading len buf hconsumer
  have hinitial := hp.read_initial
  rw [hconsumer] at hinitial
  simp only [Consumer.buffer] at hinitial
  exact { hp with
    reading := by
      intro len' buf' hconsumer'
      obtain ⟨rfl, rfl⟩ := Consumer.reading.inj hconsumer'
      constructor
      · apply hwhole
      · constructor
        · apply hbelow
        · simp
          omega
    read_initial := by
      simp only [PcmStream.copyOut, Consumer.buffer]
      rw [← List.append_assoc]
      apply prefix_snoc hinitial
      rw [List.length_append]
      apply hp.getElem_tail hlt hbelow }

theorem publishTail (hp : Placed frameBytes k h s) {buf : List α}
    (hconsumer : s.consumer = .reading buf.length buf) :
  Placed frameBytes k h (s.publishTail buf.length buf)
  := by
  obtain ⟨hwhole, hbelow, -⟩ := hp.reading buf.length buf hconsumer
  have hroom := hp.room
  have hcap := hp.capacity_lt
  have hinitial := hp.read_initial
  rw [hconsumer] at hinitial
  simp only [Consumer.buffer] at hinitial
  have hlength : (s.read ++ buf).length = s.read.length + buf.length := List.length_append
  apply hp.setTail
  · rw [hlength]
    apply hp.tail_counts.add_ofNat
  · rw [hlength]
    apply hbelow
  · rw [hlength]
    apply (Nat.dvd_add_right hp.read_whole).mpr hwhole
  · apply hinitial

/-- Every step keeps the parties in place; only the publication of the head moves it. -/
theorem next (hp : Placed frameBytes k h s) {sampleRate : Nat}
    {a : RingAction α frameBytes} {s' : PcmStream α} (hnext : s.next sampleRate a = some s') :
  ∃ h', Placed frameBytes k h' s'
  := by
  cases a with
  | callback cb =>
      simp only [PcmStream.next] at hnext
      split at hnext
      · rename_i hidle
        obtain rfl := Option.some.inj hnext
        use h
        apply hp.offer hidle
      · contradiction
  | copyIn =>
      simp only [PcmStream.next] at hnext
      split at hnext
      · contradiction
      · rename_i data done hproducer
        obtain ⟨x, hx, rfl⟩ := Option.map_eq_some_iff.mp hnext
        use h
        apply hp.copyIn hproducer hx
  | publishHead =>
      simp only [PcmStream.next] at hnext
      split at hnext
      · contradiction
      · rename_i data done hproducer
        obtain ⟨rfl, hs'⟩ := Option.ite_none_right_eq_some.mp hnext
        obtain rfl := Option.some.inj hs'
        use h + data.length
        apply hp.publishHead hproducer
  | loadHead =>
      simp only [PcmStream.next] at hnext
      split at hnext
      · rename_i hidle
        obtain rfl := Option.some.inj hnext
        use h
        apply hp.loadHead hidle
      · contradiction
  | copyOut =>
      simp only [PcmStream.next] at hnext
      split at hnext
      · contradiction
      · rename_i len buf hconsumer
        obtain ⟨hlt, hs'⟩ := Option.ite_none_right_eq_some.mp hnext
        obtain rfl := Option.some.inj hs'
        use h
        apply hp.copyOut hconsumer hlt
  | publishTail =>
      simp only [PcmStream.next] at hnext
      split at hnext
      · contradiction
      · rename_i len buf hconsumer
        obtain ⟨rfl, hs'⟩ := Option.ite_none_right_eq_some.mp hnext
        obtain rfl := Option.some.inj hs'
        use h
        apply hp.publishTail hconsumer

/-- The head is behind the bytes published. -/
theorem published_eq (hp : Placed frameBytes k h s) :
  s.published = h
  := by
  obtain ⟨l, hstream, hlength⟩ := hp.stream_eq
  rw [published, hstream, List.length_append, hlength, Nat.add_sub_cancel]

/-- Parties in place make the ring a queue. -/
theorem ringLaw (hp : Placed frameBytes k h s) :
  RingLaw frameBytes s
  := by
  have hroom := hp.room
  have hle := hp.tail_le
  constructor
  · rw [hp.fill_eq, hp.capacity_eq]
    omega
  · rw [hp.fill_eq]
    apply Nat.dvd_sub hp.head_whole hp.read_whole
  · apply hp.read_initial
  · intro i hi
    rw [hp.fill_eq] at hi
    have hcap := hp.capacity_lt
    have hcell := (hp.tail_counts.add_ofNat i).toNat_and hp.capacity_eq
    rw [hcell, hp.capacity_eq]
    apply hp.window
    · apply Nat.le_add_right
    · omega
  · obtain ⟨l, hstream, hlength⟩ := hp.stream_eq
    rw [hp.fill_eq, hstream, List.length_append, hlength]
    omega
  · apply hp.dropped_whole
  · intro data
    apply offer_accepted_iff
    rw [hp.fill_eq, hp.capacity_eq]
    omega

end Placed

/-- What a step of the producer leaves alone, and what it adds to. -/
theorem next_of_produces {frameBytes sampleRate : Nat} {s s' : PcmStream α}
    {a : RingAction α frameBytes} (ha : a.produces = true)
    (hnext : s.next sampleRate a = some s') :
  s'.read = s.read ∧ s'.ring.tail = s.ring.tail ∧ s.stream <+: s'.stream
    ∧ s.published ≤ s'.published
  := by
  cases a with
  | callback cb =>
      simp only [next] at hnext
      split at hnext
      next hidle =>
        obtain rfl := Option.some.inj hnext
        rw [offer]
        split
        · exact ⟨rfl, rfl, List.prefix_rfl, le_rfl⟩
        · simp [published, stream, hidle, Producer.pending]
      next => contradiction
  | copyIn =>
      simp only [next] at hnext
      split at hnext
      next => contradiction
      next data done hproducer =>
        obtain ⟨x, -, rfl⟩ := Option.map_eq_some_iff.mp hnext
        simp [copyIn, published, stream, hproducer, Producer.pending]
  | publishHead =>
      simp only [next] at hnext
      split at hnext
      next => contradiction
      next data done hproducer =>
        obtain ⟨-, hs'⟩ := Option.ite_none_right_eq_some.mp hnext
        obtain rfl := Option.some.inj hs'
        simp [publishHead, published, stream, Producer.pending]
  | loadHead | copyOut | publishTail => contradiction

/-- In every reachable state the ring is a queue of whole frames, whatever the capacity, the
size of a frame and the order of the steps. -/
theorem ringLaw_of_reachable {frameBytes k sampleRate : Nat} {blank : α} {capacity : UInt32}
    {s : PcmStream α} (hcap : capacity.toNat = 2 ^ k)
    (h : Reachable (@next α frameBytes sampleRate) (start blank capacity) s) :
  RingLaw frameBytes s
  := by
  obtain ⟨position, hplaced⟩ : ∃ position, Placed frameBytes k position s := by
    apply h.invariant (I := fun s => ∃ position, Placed frameBytes k position s)
    · use 0
      apply start_placed frameBytes hcap
    · rintro s a t ⟨position, hp⟩ hnext
      apply hp.next hnext
  apply hplaced.ringLaw

/-- Two callbacks through a ring of four bytes, the second one split at its end, and one
that is dropped. -/
def splitCopy : List (RingAction Nat 2) :=
  [.callback ⟨[1, 2], by decide, by decide⟩, .copyIn, .copyIn, .publishHead,
    .loadHead, .copyOut, .copyOut, .publishTail,
    .callback ⟨[3, 4, 5, 6], by decide, by decide⟩, .copyIn, .copyIn, .copyIn, .copyIn,
    .publishHead, .callback ⟨[7, 8], by decide, by decide⟩,
    .loadHead, .copyOut, .copyOut, .copyOut, .copyOut, .publishTail]

/-- The law at the end of those steps, which have read both accepted callbacks. -/
theorem ringLaw_splitCopy :
  ∃ s, exec (next 48000) (start 0 4) splitCopy = some s ∧ s.read = [1, 2, 3, 4, 5, 6]
    ∧ RingLaw 2 s
  := by
  have hread : (exec (next 48000) (start 0 4) splitCopy).map PcmStream.read
      = some [1, 2, 3, 4, 5, 6] := rfl
  obtain ⟨s, hs, hread⟩ := Option.map_eq_some_iff.mp hread
  use s, hs, hread
  have hreach : Reachable (@next Nat 2 48000) (start 0 4) s := ⟨splitCopy, run_of_exec hs⟩
  apply ringLaw_of_reachable (k := 2) rfl hreach

end PcmStream

end Ssc
