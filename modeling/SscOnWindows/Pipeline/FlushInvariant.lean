import SscOnWindows.Pipeline.Reconnect

/-!
# What the reconnect sequence keeps

`StreamingContext.Kept` says what of the ring, of the audio and of the timestamp stays right
while the worker and the encode thread take their steps.  Every step of the callback, of the
encode thread and of the worker keeps it when it lands where it may.
-/

namespace Ssc

open Machine WrapRing

/-! ### The invariant -/

namespace ReconnectPoint

/-- The transport is published. -/
def hasTransport : ReconnectPoint → Bool
  | streaming | clearTransport => true
  | _ => false

/-- The link has come up and the transport is not published. -/
def linkUp : ReconnectPoint → Bool
  | resetTimestamp | clearResidual | loadHead | storeTail _ _ | publishEncoder
  | publishTransport => true
  | _ => false

/-- The residual is cleared and the transport is not published. -/
def residualCleared : ReconnectPoint → Bool
  | loadHead | storeTail _ _ | publishEncoder | publishTransport => true
  | _ => false

/-- The ring is flushed and the transport is not published. -/
def republishing : ReconnectPoint → Bool
  | publishEncoder | publishTransport => true
  | _ => false

theorem linkUp_of_residualCleared {p : ReconnectPoint} (h : p.residualCleared = true) :
  p.linkUp = true
  := by
  cases p with
  | loadHead | storeTail _ _ | publishEncoder | publishTransport => rfl
  | _ => contradiction

theorem not_linkUp_of_hasTransport {p : ReconnectPoint} (h : p.hasTransport = true) :
  p.linkUp = false ∧ p.republishing = false ∧ p ≠ .resetTimestamp
  := by
  cases p with
  | streaming | clearTransport => exact ⟨rfl, rfl, nofun⟩
  | _ => contradiction

end ReconnectPoint

/-- What the encode thread has loaded of the ring, and not published, describes the ring:
the tail is where its read begins, and the bytes it reads are there. -/
def ThreadPoint.InPlace (ring : PcmStream Nat) : ThreadPoint → Prop
  | headLoaded head =>
      ∃ q, Counts head q ∧ ring.read.length ≤ q ∧ q ≤ ring.published
  | counted len => ring.read.length + len ≤ ring.published
  | reading tail len buf =>
      tail = ring.ring.tail ∧ ring.read.length + len ≤ ring.published ∧ buf.length ≤ len
        ∧ ring.read ++ buf <+: ring.stream
  | _ => True

/-- In its encode loop the thread has published what it has loaded. -/
theorem ThreadPoint.inPlace_loop (cfg : EncodeConfig) (b : Batch) (ring : PcmStream Nat) :
  (loop cfg b).InPlace ring
  := by
  rw [loop]
  split
  · trivial
  · split
    · trivial
    · trivial

/-- An answer of the encoder does not change what the thread has loaded. -/
theorem ThreadPoint.inPlace_answered
    (cfg : EncodeConfig) (b : Batch) (out : Option (Nat × Nat)) (ring : PcmStream Nat) :
  (answered cfg b out).InPlace ring
  := by
  cases out with
  | none => trivial
  | some r =>
      rw [answered]
      split
      · trivial
      · trivial

namespace StreamingContext

/-- The ring is in place, and what the threads have loaded of it; no audio captured before
the flush is left but what the encode thread may hold until the transport is published; the
timestamp of a new link is 0 up to its first packet. -/
structure Kept (k : Nat) (s : StreamingContext) : Prop where
  placed : s.ring.Placed 1 k s.ring.published
  tagged : s.ring.stream = List.range s.ring.stream.length
  flushed_le : s.flushed ≤ s.ring.read.length
  inPlace : s.thread.InPlace s.ring
  storing : ∀ head captured, s.worker = .storeTail head captured →
    Counts head captured ∧ captured ≤ s.ring.published
  transport_eq : s.transport = s.worker.hasTransport
  outside : s.worker.linkUp = true → s.thread.batch? = none
  residual : ∀ x ∈ s.pcmResidual, s.flushed ≤ x
  cleared : s.worker.residualCleared = true → s.pcmResidual = [] ∧ s.thread.rest = []
  held : s.worker.republishing = false → ∀ x ∈ s.thread.held, s.flushed ≤ x
  fresh : s.thread.From s.flushed
  firstTs : s.newLink = true → ∀ b, s.thread.batch? = some b → b.firstTs = 0
  timestamp : s.newLink = true → s.worker ≠ .resetTimestamp → s.thread.batch? = none →
    s.thread ≠ .ended → s.timestamp = 0
  sent : s.thread.isSent = true → s.newLink = false

namespace Kept

variable {cfg : EncodeConfig} {k : Nat} {s : StreamingContext}

/-- What the law asks of the ring is kept. -/
theorem fits (hs : s.Kept k) :
  s.Fits
  := by
  have hroom := hs.placed.room
  have hle := hs.placed.tail_le
  rw [Fits, hs.placed.fill_eq, hs.placed.capacity_eq]
  omega

/-! ### The callback -/

/-- A step of the callback keeps what is loaded in place. -/
theorem inPlace_ring {ring ring' : PcmStream Nat} {p : ThreadPoint} (hp : p.InPlace ring)
    (hread : ring'.read = ring.read) (htail : ring'.ring.tail = ring.ring.tail)
    (hstream : ring.stream <+: ring'.stream) (hpublished : ring.published ≤ ring'.published) :
  p.InPlace ring'
  := by
  cases p with
  | headLoaded head =>
      obtain ⟨q, hcounts, hle, hq⟩ := hp
      use q, hcounts
      rw [hread]
      exact ⟨hle, hq.trans hpublished⟩
  | counted len =>
      change ring'.read.length + len ≤ ring'.published
      rw [hread]
      apply hp.trans hpublished
  | reading tail len buf =>
      obtain ⟨htail', hlen, hbuf, hinitial⟩ := hp
      refine ⟨htail'.trans htail.symm, ?_, hbuf, ?_⟩
      · rw [hread]
        apply hlen.trans hpublished
      · rw [hread]
        apply hinitial.trans hstream
  | _ => trivial

/-- A step of the callback. -/
theorem ring (hs : s.Kept k) {a : RingAction Nat 1} {ring' : PcmStream Nat}
    (ha : a.produces = true) (hnext : s.ring.next cfg.sampleRate a = some ring')
    (htagged : ring'.stream = List.range ring'.stream.length) :
  Kept k { s with ring := ring' }
  := by
  obtain ⟨hread, htail, hstream, hpublished⟩ := PcmStream.next_of_produces ha hnext
  obtain ⟨h', hplaced⟩ := hs.placed.next hnext
  exact { hs with
    placed := by
      rw [hplaced.published_eq]
      apply hplaced
    tagged := htagged
    flushed_le := by
      rw [hread]
      apply hs.flushed_le
    inPlace := inPlace_ring hs.inPlace hread htail hstream hpublished
    storing := by
      intro head captured hworker
      obtain ⟨hcounts, hle⟩ := hs.storing head captured hworker
      exact ⟨hcounts, hle.trans hpublished⟩ }

/-- The bytes of a callback go on with the positions of the stream. -/
theorem stream_callbackAt {ring ring' : PcmStream Nat} {sampleRate : Nat} {byteSize : UInt32}
    (htagged : ring.stream = List.range ring.stream.length)
    (hnext : ring.next sampleRate (.callback (callbackAt ring.stream.length byteSize))
      = some ring') :
  ring'.stream = List.range ring'.stream.length
  := by
  simp only [PcmStream.next] at hnext
  split at hnext
  next hidle =>
    obtain rfl := Option.some.inj hnext
    rw [PcmStream.offer]
    split
    · apply htagged
    · have hstream : (ring.accepted ++ [(callbackAt ring.stream.length byteSize).data]).flatten
          = List.range (ring.stream.length + byteSize.toNat) := by
        rw [List.flatten_append, List.flatten_singleton, List.range_add]
        apply congrArg₂ _ htagged
        apply List.range'_eq_map_range
      simp only [PcmStream.stream] at hstream ⊢
      rw [hstream, List.length_range]
  next => contradiction

/-- A step of the callback, whichever it is. -/
theorem nextRing {s' : StreamingContext} (hs : s.Kept k) {a : RingAction Nat 1}
    (ha : a.produces = true)
    (htagged : ∀ ring', s.ring.next cfg.sampleRate a = some ring' →
      ring'.stream = List.range ring'.stream.length)
    (h : s.nextRing cfg a = some s') :
  s'.Kept k
  := by
  obtain ⟨ring', hring, rfl⟩ := Option.map_eq_some_iff.mp h
  apply hs.ring ha hring (htagged ring' hring)

/-- The steps of the callback that copy and publish do not add to the stream. -/
theorem stream_of_produces {ring ring' : PcmStream Nat} {sampleRate : Nat} {a : RingAction Nat 1}
    (ha : a = .copyIn ∨ a = .publishHead) (htagged : ring.stream = List.range ring.stream.length)
    (hnext : ring.next sampleRate a = some ring') :
  ring'.stream = List.range ring'.stream.length
  := by
  obtain rfl | rfl := ha
  · simp only [PcmStream.next] at hnext
    split at hnext
    next => contradiction
    next =>
      obtain ⟨x, -, rfl⟩ := Option.map_eq_some_iff.mp hnext
      apply htagged
  · simp only [PcmStream.next] at hnext
    split at hnext
    next => contradiction
    next =>
      obtain ⟨-, hs'⟩ := Option.ite_none_right_eq_some.mp hnext
      obtain rfl := Option.some.inj hs'
      apply htagged

/-! ### The encode thread -/

/-- The bytes read behind the tail are captured behind the flush. -/
theorem le_of_mem_read {buf : List Nat} (hs : s.Kept k)
    (hinitial : s.ring.read ++ buf <+: s.ring.stream) :
  ∀ x ∈ buf, s.flushed ≤ x
  := by
  intro x hx
  obtain ⟨i, hi, rfl⟩ := List.getElem_of_mem hx
  have hget : s.ring.stream[s.ring.read.length + i]? = some buf[i] := by
    obtain ⟨rest, hrest⟩ := hinitial
    rw [← hrest, List.append_assoc, List.getElem?_append_right (Nat.le_add_right _ _),
      Nat.add_sub_cancel_left, List.getElem?_append_left hi, List.getElem?_eq_getElem hi]
  rw [hs.tagged] at hget
  obtain ⟨hlt, heq⟩ := List.getElem?_eq_some_iff.mp hget
  rw [List.getElem_range] at heq
  rw [← heq]
  apply hs.flushed_le.trans (Nat.le_add_right _ _)

/-- The thread moves outside of its encode loop. -/
theorem moveOutside (hs : s.Kept k) {p q : ThreadPoint} (hthread : s.thread = q)
    (hbatch : q.batch? = none) (hended : q ≠ .ended) (hplace : p.InPlace s.ring)
    (hp : p.batch? = none) (hrest : p.rest = [])
    (hheld : s.worker.republishing = false → ∀ x ∈ p.held, s.flushed ≤ x) :
  Kept k { s with thread := p }
  := by
  rw [← hthread] at hbatch hended
  exact { hs with
    inPlace := hplace
    outside := fun _ => hp
    cleared := fun h => ⟨(hs.cleared h).1, hrest⟩
    held := hheld
    fresh := ThreadPoint.from_of_none hp hrest
    firstTs := by
      intro _ b hb
      rw [hp] at hb
      contradiction
    timestamp := fun hnew hworker _ _ => hs.timestamp hnew hworker hbatch hended
    sent := by
      rw [ThreadPoint.isSent_of_none hp]
      exact nofun }

/-- The thread counts the bytes it is going to read, at most what it finds between the
counters. -/
theorem count (hs : s.Kept k) {head : UInt32} {len : Nat} (hthread : s.thread = .headLoaded head)
    (hlen : len ≤ (head - s.ring.ring.tail).toNat) :
  Kept k { s with thread := if len = 0 then .outside else .counted len }
  := by
  have hplace := hs.inPlace
  rw [hthread] at hplace
  obtain ⟨q, hcounts, hle, hq⟩ := hplace
  have hroom := hs.placed.room
  have hcap := hs.placed.capacity_lt
  have havail : (head - s.ring.ring.tail).toNat = q - s.ring.read.length := by
    apply hcounts.toNat_sub hs.placed.tail_counts hle
    omega
  split
  · apply hs.moveOutside hthread rfl nofun
    · trivial
    · rfl
    · rfl
    · exact fun _ => nofun
  · apply hs.moveOutside hthread rfl nofun
    · change s.ring.read.length + len ≤ s.ring.published
      omega
    · rfl
    · rfl
    · exact fun _ => nofun

/-- The thread loads the tail and begins to read. -/
theorem beginRead (hs : s.Kept k) {len : Nat} (hthread : s.thread = .counted len) :
  Kept k { s with thread := .reading s.ring.ring.tail len [] }
  := by
  have hplace := hs.inPlace
  rw [hthread] at hplace
  apply hs.moveOutside hthread rfl nofun
  · refine ⟨rfl, hplace, Nat.zero_le _, ?_⟩
    rw [List.append_nil]
    apply (List.prefix_append _ _).trans hs.placed.read_initial
  · rfl
  · rfl
  · exact fun _ => nofun

/-- The thread puts the residual in front of the PCM. -/
theorem combine (hs : s.Kept k) {bytes pcm : List Nat} (hthread : s.thread = .converting bytes)
    (hpcm : cfg.toPcm bytes = some pcm) :
  Kept k { s with thread := .combined (s.pcmResidual ++ pcm) }
  := by
  have hheld := hs.held
  rw [hthread] at hheld
  apply hs.moveOutside hthread rfl nofun
  · trivial
  · rfl
  · rfl
  · intro hworker x hx
    obtain hx | hx := List.mem_append.mp hx
    · apply hs.residual x hx
    · apply hheld hworker x (EncodeConfig.mem_of_mem_toPcm hpcm x hx)

/-- A thread in its encode loop has a link that was up before. -/
theorem not_linkUp (hs : s.Kept k) {b : Batch} (hbatch : s.thread.batch? = some b) :
  s.worker.linkUp = false
  := by
  by_contra hup
  rw [Bool.not_eq_false] at hup
  rw [hs.outside hup] at hbatch
  contradiction

/-- The audio of an encode loop is captured behind the flush. -/
theorem batch_from (hs : s.Kept k) {q : ThreadPoint} {b : Batch} (hthread : s.thread = q)
    (hbatch : q.batch? = some b) :
  b.From s.flushed
  := by
  rw [← hthread] at hbatch
  apply hs.fresh.1 b hbatch

/-- The thread moves in its encode loop. -/
theorem moveInside (hs : s.Kept k) {p q : ThreadPoint} {b b' : Batch}
    (hthread : s.thread = q) (hbatch : q.batch? = some b) (hplace : p.InPlace s.ring)
    (hp : p.batch? = some b')
    (hrest : p.rest = []) (hheld : p.held = []) (hfresh : b'.From s.flushed)
    (hsent : p.isSent = true → s.newLink = false)
    (hfirst : s.newLink = true → b'.firstTs = b.firstTs) :
  Kept k { s with thread := p }
  := by
  rw [← hthread] at hbatch
  exact { hs with
    inPlace := hplace
    outside := by
      intro hup
      rw [hs.not_linkUp hbatch] at hup
      contradiction
    cleared := fun h => ⟨(hs.cleared h).1, hrest⟩
    held := by
      intro _
      rw [hheld]
      exact nofun
    fresh := ThreadPoint.from_of_batch hfresh hp hrest
    firstTs := by
      intro hnew c hc
      rw [hp] at hc
      obtain rfl := Option.some.inj hc
      rw [hfirst hnew]
      apply hs.firstTs hnew b hbatch
    timestamp := by
      intro _ _ hnone
      rw [hp] at hnone
      contradiction
    sent := hsent }

/-- Once a packet is sent the link is not new any more. -/
theorem send (hs : s.Kept k) :
  Kept k { s with newLink := false }
  := by
  exact { hs with
    firstTs := nofun
    timestamp := nofun
    sent := fun _ => rfl }

/-- Behind a packet the thread begins the next one, on a link that is not new. -/
theorem restart (hs : s.Kept k) {b : Batch} {size frames : Nat}
    (hthread : s.thread = .sent b size frames) :
  Kept k { s with thread := .encoded ((b.restart s.timestamp).accumulate cfg size frames) }
  := by
  have hsent : s.newLink = false := by
    apply hs.sent
    rw [hthread]
    rfl
  apply hs.moveInside hthread rfl
  · trivial
  · rfl
  · rfl
  · rfl
  · apply ((hs.batch_from hthread rfl).restart s.timestamp).accumulate
  · exact nofun
  · rw [hsent]
    exact nofun

/-- The thread copies one byte of the ring. -/
theorem copyOut (hs : s.Kept k) {tail : UInt32} {len : Nat} {buf : List Nat}
    (hthread : s.thread = .reading tail len buf) (hlt : buf.length < len) :
  ThreadPoint.InPlace s.ring (.reading tail len
    (buf ++ [s.ring.ring.data (s.ring.ring.cell tail len buf.length)]))
  := by
  have hplace := hs.inPlace
  rw [hthread] at hplace
  obtain ⟨htail, hlen, -, hinitial⟩ := hplace
  refine ⟨htail, hlen, ?_, ?_⟩
  · rw [List.length_append]
    apply hlt
  · rw [← List.append_assoc]
    apply PcmStream.prefix_snoc hinitial
    rw [List.length_append, htail]
    apply hs.placed.getElem_tail hlt hlen

/-- The thread publishes its tail. -/
theorem publishTail (hs : s.Kept k) {tail : UInt32} {len : Nat} {buf : List Nat}
    (hthread : s.thread = .reading tail len buf) (hlen : ¬ buf.length < len) :
  Kept k { s with
    ring := s.ring.setTail (tail + UInt32.ofNat len) buf
    thread := .converting buf }
  := by
  have hplace := hs.inPlace
  rw [hthread] at hplace
  obtain ⟨rfl, hbelow, hbuf, hinitial⟩ := hplace
  obtain rfl : buf.length = len := by omega
  have hroom := hs.placed.room
  have hcap := hs.placed.capacity_lt
  have hlength : (s.ring.read ++ buf).length = s.ring.read.length + buf.length :=
    List.length_append
  have hplaced : (s.ring.setTail (s.ring.ring.tail + UInt32.ofNat buf.length) buf).Placed 1 k
      s.ring.published := by
    apply hs.placed.setTail
    · rw [hlength]
      apply hs.placed.tail_counts.add_ofNat
    · rw [hlength]
      apply hbelow
    · apply one_dvd
    · apply hinitial
  exact { hs with
    placed := hplaced
    flushed_le := by
      have hflushed := hs.flushed_le
      change s.flushed ≤ (s.ring.read ++ buf).length
      omega
    inPlace := trivial
    outside := fun _ => rfl
    cleared := fun h => ⟨(hs.cleared h).1, rfl⟩
    held := fun _ => hs.le_of_mem_read hinitial
    fresh := ThreadPoint.from_of_none rfl rfl
    firstTs := nofun
    timestamp := by
      intro hnew hworker _ _
      apply hs.timestamp hnew hworker
      · rw [hthread]
        rfl
      · rw [hthread]
        exact nofun
    sent := nofun }

/-- The thread enters its encode loop, or passes it by. -/
theorem loadTransport (hs : s.Kept k) {pcm : List Nat} (maxRaw : Nat)
    (hthread : s.thread = .combined pcm) (htransport : s.transport = true) :
  Kept k { s with
    thread := .loop cfg
      { pcm := pcm, offset := 0, accum := [], accumSize := 0, accumFrames := 0,
        firstTs := s.timestamp, maxRaw := maxRaw } }
  := by
  rw [hs.transport_eq] at htransport
  obtain ⟨hdown, hrepublishing, hreset⟩ :=
    ReconnectPoint.not_linkUp_of_hasTransport htransport
  have hheld := hs.held hrepublishing
  rw [hthread] at hheld
  have htimestamp : s.newLink = true → s.timestamp = 0 := by
    intro hnew
    apply hs.timestamp hnew hreset
    · rw [hthread]
      rfl
    · rw [hthread]
      exact nofun
  generalize hb : Batch.mk pcm 0 [] 0 0 s.timestamp maxRaw = b
  have hfresh : b.From s.flushed := by
    rw [← hb]
    exact ⟨hheld, nofun⟩
  exact { hs with
    inPlace := ThreadPoint.inPlace_loop cfg _ _
    outside := by
      intro hup
      rw [hdown] at hup
      contradiction
    cleared := by
      intro hcleared
      rw [ReconnectPoint.linkUp_of_residualCleared hcleared] at hdown
      contradiction
    held := by
      intro _
      rw [ThreadPoint.held_loop]
      exact nofun
    fresh := ThreadPoint.from_loop hfresh cfg
    firstTs := by
      intro hnew c hc
      rw [ThreadPoint.batch?_loop hc, ← hb]
      apply htimestamp hnew
    timestamp := fun hnew _ _ _ => htimestamp hnew
    sent := by
      rw [ThreadPoint.isSent_loop]
      exact nofun }

/-- The thread stores the timestamp behind a piece. -/
theorem stamp (hs : s.Kept k) {b : Batch} {timestamp : UInt32}
    (hthread : s.thread = .stamping b timestamp)
    (hlands : s.newLink = true → s.thread.silent cfg = false) :
  Kept k { s with
    timestamp := timestamp + UInt32.ofNat cfg.pcmFramesPerEncode
    thread := .loop cfg (b.advance cfg) }
  := by
  have hbatch : s.thread.batch? = some b := by
    rw [hthread]
    rfl
  have hdown := hs.not_linkUp hbatch
  have hfresh := (hs.fresh.1 b hbatch).advance cfg
  exact { hs with
    inPlace := ThreadPoint.inPlace_loop cfg _ _
    outside := by
      intro hup
      rw [hdown] at hup
      contradiction
    cleared := by
      intro hcleared
      rw [ReconnectPoint.linkUp_of_residualCleared hcleared] at hdown
      contradiction
    held := by
      intro _
      rw [ThreadPoint.held_loop]
      exact nofun
    fresh := ThreadPoint.from_loop hfresh cfg
    firstTs := by
      intro hnew c hc
      rw [ThreadPoint.batch?_loop hc]
      apply hs.firstTs hnew b hbatch
    timestamp := by
      intro hnew _ hnone _
      have hsilent := hlands hnew
      rw [hthread] at hsilent
      rw [ThreadPoint.silent_of_loop hnone] at hsilent
      contradiction
    sent := by
      rw [ThreadPoint.isSent_loop]
      exact nofun }

/-- The thread sends the last packet of the iteration. -/
theorem finish (hs : s.Kept k) {b : Batch} (hthread : s.thread = .finishing b) :
  Kept k { s with newLink := false, thread := .keeping (b.pcm.drop b.offset) }
  := by
  have hbatch : s.thread.batch? = some b := by
    rw [hthread]
    rfl
  have hdown := hs.not_linkUp hbatch
  exact { hs with
    inPlace := trivial
    outside := fun _ => rfl
    cleared := by
      intro hcleared
      rw [ReconnectPoint.linkUp_of_residualCleared hcleared] at hdown
      contradiction
    held := fun _ => nofun
    fresh := by
      constructor
      · exact nofun
      · intro x hx
        apply (hs.fresh.1 b hbatch).1
        apply List.mem_of_mem_drop hx
    firstTs := nofun
    timestamp := nofun
    sent := nofun }

/-- The thread stores the residual. -/
theorem keep (hs : s.Kept k) {rest : List Nat} (hthread : s.thread = .keeping rest) :
  Kept k { s with pcmResidual := rest, thread := .outside }
  := by
  have hfresh := hs.fresh.2
  have hcleared := hs.cleared
  rw [hthread] at hfresh hcleared
  exact { hs with
    inPlace := trivial
    outside := fun _ => rfl
    residual := hfresh
    cleared := fun h => ⟨(hcleared h).2, rfl⟩
    held := fun _ => nofun
    fresh := ThreadPoint.from_of_none rfl rfl
    firstTs := nofun
    timestamp := by
      intro hnew hworker _ _
      apply hs.timestamp hnew hworker
      · rw [hthread]
        rfl
      · rw [hthread]
        exact nofun
    sent := nofun }

/-- The thread throws. -/
theorem throw (hs : s.Kept k) :
  Kept k { s with thread := .ended }
  := by
  exact { hs with
    inPlace := trivial
    outside := fun _ => rfl
    cleared := fun h => ⟨(hs.cleared h).1, rfl⟩
    held := fun _ => nofun
    fresh := ThreadPoint.from_of_none rfl rfl
    firstTs := nofun
    timestamp := by
      intro _ _ _ hended
      contradiction
    sent := nofun }

/-- A step of the encode thread. -/
theorem nextThread {s' : StreamingContext} (hs : s.Kept k)
    (hlands : s.newLink = true → s.thread.silent cfg = false) (h : s.nextThread cfg = some s') :
  s'.Kept k
  := by
  rw [StreamingContext.nextThread] at h
  cases hthread : s.thread with
  | outside =>
      rw [hthread] at h
      obtain rfl := Option.some.inj h
      split
      · apply hs.moveOutside hthread rfl nofun
        · trivial
        · rfl
        · rfl
        · exact fun _ => nofun
      · apply hs.moveOutside hthread rfl nofun
        · trivial
        · rfl
        · rfl
        · exact fun _ => nofun
  | entered =>
      rw [hthread] at h
      obtain rfl := Option.some.inj h
      apply hs.moveOutside hthread rfl nofun
      · use s.ring.published
        exact ⟨hs.placed.head_counts, hs.placed.tail_le, le_rfl⟩
      · rfl
      · rfl
      · exact fun _ => nofun
  | headLoaded head =>
      rw [hthread] at h
      obtain rfl := Option.some.inj h
      apply hs.count hthread (readBytes_le _ _ _)
  | counted len =>
      rw [hthread] at h
      obtain rfl := Option.some.inj h
      apply hs.beginRead hthread
  | reading tail len buf =>
      rw [hthread] at h
      dsimp only at h
      split at h
      next hlt =>
        obtain rfl := Option.some.inj h
        apply hs.moveOutside hthread rfl nofun
        · apply hs.copyOut hthread hlt
        · rfl
        · rfl
        · exact fun _ => nofun
      next hlen =>
        obtain rfl := Option.some.inj h
        apply hs.publishTail hthread hlen
  | converting bytes =>
      rw [hthread] at h
      dsimp only at h
      split at h
      next =>
        obtain rfl := Option.some.inj h
        apply hs.moveOutside hthread rfl nofun
        · trivial
        · rfl
        · rfl
        · exact fun _ => nofun
      next pcm hpcm =>
        obtain rfl := Option.some.inj h
        apply hs.combine hthread hpcm
  | combined pcm | encoding b | ended =>
      rw [hthread] at h
      contradiction
  | encode b =>
      rw [hthread] at h
      obtain rfl := Option.some.inj h
      apply hs.moveInside hthread rfl
      · trivial
      · rfl
      · rfl
      · rfl
      · apply hs.batch_from hthread rfl
      · exact nofun
      · exact fun _ => rfl
  | sending b size frames =>
      rw [hthread] at h
      obtain rfl := Option.some.inj h
      apply hs.send.moveInside hthread rfl
      · trivial
      · rfl
      · rfl
      · rfl
      · apply hs.batch_from hthread rfl
      · exact fun _ => rfl
      · exact nofun
  | sent b size frames =>
      rw [hthread] at h
      obtain rfl := Option.some.inj h
      apply hs.restart hthread
  | encoded b =>
      rw [hthread] at h
      obtain rfl := Option.some.inj h
      apply hs.moveInside hthread rfl
      · trivial
      · rfl
      · rfl
      · rfl
      · apply hs.batch_from hthread rfl
      · exact nofun
      · exact fun _ => rfl
  | stamping b timestamp =>
      rw [hthread] at h
      obtain rfl := Option.some.inj h
      apply hs.stamp hthread hlands
  | finishing b =>
      rw [hthread] at h
      obtain rfl := Option.some.inj h
      apply hs.finish hthread
  | keeping rest =>
      rw [hthread] at h
      obtain rfl := Option.some.inj h
      apply hs.keep hthread

/-! ### The worker -/

/-- The worker finds the connection lost. -/
theorem disconnected (hs : s.Kept k) (hworker : s.worker = .streaming) :
  Kept k { s with newLink := false, worker := .clearTransport }
  := by
  exact { hs with
    storing := nofun
    transport_eq := by
      rw [hs.transport_eq, hworker]
      rfl
    outside := nofun
    cleared := nofun
    held := by
      intro _
      apply hs.held
      rw [hworker]
      rfl
    firstTs := nofun
    timestamp := nofun
    sent := fun _ => rfl }

/-- The link comes up beside a thread outside of its encode loop. -/
theorem reconnected (hs : s.Kept k) (hworker : s.worker = .reconnect)
    (hlands : s.thread.batch? = none) :
  Kept k { s with newLink := true, worker := .resetTimestamp }
  := by
  exact { hs with
    storing := nofun
    transport_eq := by
      rw [hs.transport_eq, hworker]
      rfl
    outside := fun _ => hlands
    cleared := nofun
    held := by
      intro _
      apply hs.held
      rw [hworker]
      rfl
    firstTs := by
      intro _ b hb
      rw [hlands] at hb
      contradiction
    timestamp := by
      intro _ hreset
      contradiction
    sent := by
      rw [ThreadPoint.isSent_of_none hlands]
      exact nofun }

/-- The worker goes on to a point at which as much is asked of the encode thread. -/
theorem moveWorker (hs : s.Kept k) {p q : ReconnectPoint} (hworker : s.worker = q)
    (hstoring : ∀ head captured, p = .storeTail head captured →
      Counts head captured ∧ captured ≤ s.ring.published)
    (htransport : p.hasTransport = q.hasTransport) (hlinkUp : p.linkUp = q.linkUp)
    (hcleared : p.residualCleared = q.residualCleared)
    (hrepublishing : p.republishing = q.republishing) (hreset : q ≠ .resetTimestamp) :
  Kept k { s with worker := p }
  := by
  rw [← hworker] at htransport hlinkUp hcleared hrepublishing hreset
  exact { hs with
    storing := hstoring
    transport_eq := hs.transport_eq.trans htransport.symm
    outside := fun h => hs.outside (hlinkUp.symm.trans h)
    cleared := fun h => hs.cleared (hcleared.symm.trans h)
    held := fun h => hs.held (hrepublishing.symm.trans h)
    timestamp := fun hnew _ => hs.timestamp hnew hreset }

/-- The worker takes the transport away. -/
theorem clearTransport (hs : s.Kept k) (hworker : s.worker = .clearTransport) :
  Kept k { s with transport := false, worker := .clearEncoder }
  := by
  have hheld := hs.held
  have htimestamp := hs.timestamp
  rw [hworker] at hheld htimestamp
  exact { hs with
    storing := nofun
    transport_eq := rfl
    outside := nofun
    cleared := nofun
    held := fun _ => hheld rfl
    timestamp := fun hnew _ => htimestamp hnew nofun }

/-- The worker takes the encoder away. -/
theorem clearEncoder (hs : s.Kept k) (hworker : s.worker = .clearEncoder) :
  Kept k { s with encoder := false, worker := .reconnect }
  := { hs.moveWorker (p := .reconnect) hworker nofun rfl rfl rfl rfl nofun with }

/-- The worker resets the timestamp. -/
theorem resetTimestamp (hs : s.Kept k) (hworker : s.worker = .resetTimestamp) :
  Kept k { s with timestamp := 0, worker := .clearResidual }
  := by
  have houtside := hs.outside
  rw [hworker] at houtside
  exact { hs with
    storing := nofun
    transport_eq := by
      rw [hs.transport_eq, hworker]
      rfl
    outside := fun _ => houtside rfl
    cleared := nofun
    held := by
      intro _
      apply hs.held
      rw [hworker]
      rfl
    timestamp := fun _ _ _ _ => rfl }

/-- The worker clears the residual beside a thread that is not about to store one. -/
theorem clearResidual (hs : s.Kept k) (hworker : s.worker = .clearResidual)
    (hlands : s.thread.rest = []) :
  Kept k { s with pcmResidual := [], worker := .loadHead }
  := by
  have houtside := hs.outside
  have htimestamp := hs.timestamp
  rw [hworker] at houtside htimestamp
  exact { hs with
    storing := nofun
    transport_eq := by
      rw [hs.transport_eq, hworker]
      rfl
    outside := fun _ => houtside rfl
    residual := nofun
    cleared := fun _ => ⟨rfl, hlands⟩
    held := by
      intro _
      apply hs.held
      rw [hworker]
      rfl
    timestamp := fun hnew _ => htimestamp hnew nofun }

/-- The worker loads the head of the ring. -/
theorem loadHead (hs : s.Kept k) (hworker : s.worker = .loadHead) :
  Kept k { s with worker := .storeTail s.ring.ring.head s.ring.published }
  := by
  apply hs.moveWorker hworker
  · rintro head captured ⟨⟩
    exact ⟨hs.placed.head_counts, le_rfl⟩
  · rfl
  · rfl
  · rfl
  · rfl
  · exact nofun

/-- The bytes before the loaded head are the ones read and the ones skipped. -/
theorem read_skipped (hs : s.Kept k) {head : UInt32} {captured : Nat}
    (hworker : s.worker = .storeTail head captured) (hle : s.ring.read.length ≤ captured) :
  s.ring.read ++ (s.ring.stream.drop s.ring.read.length).take (head - s.ring.ring.tail).toNat
    = s.ring.stream.take captured
  := by
  obtain ⟨hcounts, hcaptured⟩ := hs.storing head captured hworker
  have hroom := hs.placed.room
  have hcap := hs.placed.capacity_lt
  have hskip : (head - s.ring.ring.tail).toNat = captured - s.ring.read.length := by
    apply hcounts.toNat_sub hs.placed.tail_counts hle
    omega
  obtain ⟨rest, hrest⟩ := (List.prefix_append _ _).trans hs.placed.read_initial
  rw [hskip, ← hrest, List.drop_left, ← List.take_length_add_append,
    Nat.add_sub_cancel' hle]

/-- What the thread has loaded is in place behind the flush when it describes the ring
there. -/
theorem inPlace_storeTail (hs : s.Kept k) {head : UInt32} {captured : Nat}
    (hworker : s.worker = .storeTail head captured) (hle : s.ring.read.length ≤ captured)
    (hdescribes : s.thread.Describes s.ring.ring head) {skipped : List Nat}
    (hskipped : s.ring.read ++ skipped = s.ring.stream.take captured)
    (hlength : (s.ring.read ++ skipped).length = captured) :
  s.thread.InPlace (s.ring.setTail head skipped)
  := by
  obtain ⟨hcounts, hcaptured⟩ := hs.storing head captured hworker
  have hroom := hs.placed.room
  have hcap := hs.placed.capacity_lt
  have hfill : (s.ring.ring.head - head).toNat = s.ring.published - captured := by
    apply hs.placed.head_counts.toNat_sub hcounts hcaptured
    omega
  have hplace := hs.inPlace
  cases hthread : s.thread with
  | headLoaded loaded =>
      rw [hthread] at hdescribes hplace
      obtain ⟨q, hloaded, hbelow, hq⟩ := hplace
      use q, hloaded
      constructor
      · change (s.ring.read ++ skipped).length ≤ q
        rw [hlength]
        apply hloaded.le_of_toNat_sub_le hcounts hs.placed.head_counts hcaptured _ hdescribes
        omega
      · apply hq
  | counted len =>
      rw [hthread] at hdescribes
      change len ≤ (s.ring.ring.head - head).toNat at hdescribes
      change (s.ring.read ++ skipped).length + len ≤ s.ring.published
      omega
  | reading tail len buf =>
      rw [hthread] at hdescribes hplace
      obtain ⟨rfl, hbelow, hbuf, hinitial⟩ := hplace
      have hskip : (head - s.ring.ring.tail).toNat = captured - s.ring.read.length := by
        apply hcounts.toNat_sub hs.placed.tail_counts hle
        omega
      have hzero : (head - s.ring.ring.tail).toNat = 0 := by
        rw [hdescribes, UInt32.sub_self]
        rfl
      obtain rfl : skipped = [] := by
        rw [List.length_append] at hlength
        apply List.eq_nil_of_length_eq_zero
        omega
      refine ⟨hdescribes.symm, ?_, hbuf, ?_⟩
      · change (s.ring.read ++ []).length + len ≤ s.ring.published
        rw [List.append_nil]
        apply hbelow
      · change s.ring.read ++ [] ++ buf <+: s.ring.stream
        rw [List.append_nil]
        apply hinitial
  | _ => trivial

/-- The worker flushes the ring beside a thread whose view of the ring stays right. -/
theorem storeTail (hs : s.Kept k) {head : UInt32} {captured : Nat}
    (hworker : s.worker = .storeTail head captured) (hle : s.ring.read.length ≤ captured)
    (hdescribes : s.thread.Describes s.ring.ring head) {skipped : List Nat}
    (hskipped : s.ring.read ++ skipped = s.ring.stream.take captured) :
  Kept k { s with
    ring := s.ring.setTail head skipped
    flushed := captured
    worker := .publishEncoder }
  := by
  obtain ⟨hcounts, hcaptured⟩ := hs.storing head captured hworker
  have houtside := hs.outside
  have htimestamp := hs.timestamp
  have hcleared := hs.cleared
  rw [hworker] at houtside htimestamp hcleared
  obtain ⟨hresidual, hrest⟩ := hcleared rfl
  have hlength : (s.ring.read ++ skipped).length = captured := by
    rw [hskipped, List.length_take]
    apply Nat.min_eq_left
    apply hcaptured.trans (Nat.sub_le _ _)
  have hplaced : (s.ring.setTail head skipped).Placed 1 k s.ring.published := by
    apply hs.placed.setTail
    · rw [hlength]
      apply hcounts
    · rw [hlength]
      apply hcaptured
    · apply one_dvd
    · rw [hskipped]
      apply List.take_prefix
  exact { hs with
    placed := hplaced
    flushed_le := hlength.ge
    inPlace := hs.inPlace_storeTail hworker hle hdescribes hskipped hlength
    storing := nofun
    transport_eq := by
      rw [hs.transport_eq, hworker]
      rfl
    outside := fun _ => houtside rfl
    residual := by
      rw [hresidual]
      exact nofun
    cleared := fun _ => ⟨hresidual, hrest⟩
    held := nofun
    fresh := ThreadPoint.from_of_none (houtside rfl) hrest
    timestamp := fun hnew _ => htimestamp hnew nofun }

/-- The worker publishes the encoder. -/
theorem publishEncoder (hs : s.Kept k) (hworker : s.worker = .publishEncoder) :
  Kept k { s with encoder := true, worker := .publishTransport }
  := { hs.moveWorker (p := .publishTransport) hworker nofun rfl rfl rfl rfl nofun with }

/-- The worker publishes the transport beside a thread that holds no audio from before the
flush. -/
theorem publishTransport (hs : s.Kept k) (hworker : s.worker = .publishTransport)
    (hlands : ∀ x ∈ s.thread.held, s.flushed ≤ x) :
  Kept k { s with transport := true, worker := .streaming }
  := by
  have htimestamp := hs.timestamp
  rw [hworker] at htimestamp
  exact { hs with
    storing := nofun
    transport_eq := rfl
    outside := nofun
    cleared := nofun
    held := fun _ => hlands
    timestamp := fun hnew _ => htimestamp hnew nofun }

/-- A step of the worker. -/
theorem nextWorker {s' : StreamingContext} (hs : s.Kept k) (hlands : s.WorkerLands s.worker)
    (h : s.nextWorker = some s') :
  s'.Kept k
  := by
  rw [StreamingContext.nextWorker] at h
  cases hworker : s.worker with
  | streaming | reconnect =>
      rw [hworker] at h
      contradiction
  | clearTransport =>
      rw [hworker] at h
      obtain rfl := Option.some.inj h
      apply hs.clearTransport hworker
  | clearEncoder =>
      rw [hworker] at h
      obtain rfl := Option.some.inj h
      apply hs.clearEncoder hworker
  | resetTimestamp =>
      rw [hworker] at h
      obtain rfl := Option.some.inj h
      apply hs.resetTimestamp hworker
  | clearResidual =>
      rw [hworker] at h hlands
      obtain rfl := Option.some.inj h
      apply hs.clearResidual hworker hlands
  | loadHead =>
      rw [hworker] at h
      obtain rfl := Option.some.inj h
      apply hs.loadHead hworker
  | storeTail head captured =>
      rw [hworker] at h hlands
      obtain rfl := Option.some.inj h
      obtain ⟨hle, hdescribes⟩ := hlands
      apply hs.storeTail hworker hle hdescribes (hs.read_skipped hworker hle)
  | publishEncoder =>
      rw [hworker] at h
      obtain rfl := Option.some.inj h
      apply hs.publishEncoder hworker
  | publishTransport =>
      rw [hworker] at h hlands
      obtain rfl := Option.some.inj h
      apply hs.publishTransport hworker hlands

/-- Every step that lands where it may keeps the invariant. -/
theorem next {s' : StreamingContext} (hs : s.Kept k) {a : FlushAction}
    (hlands : s.Lands cfg a) (h : s.next cfg a = some s') :
  s'.Kept k
  := by
  cases a with
  | capture byteSize =>
      apply hs.nextRing rfl _ h
      intro ring' hring
      apply stream_callbackAt hs.tagged hring
  | copyIn =>
      apply hs.nextRing rfl _ h
      intro ring' hring
      apply stream_of_produces (Or.inl rfl) hs.tagged hring
  | publishHead =>
      apply hs.nextRing rfl _ h
      intro ring' hring
      apply stream_of_produces (Or.inr rfl) hs.tagged hring
  | thread => apply hs.nextThread hlands h
  | loadTransport mtu =>
      simp only [StreamingContext.next] at h
      split at h
      next pcm hthread =>
        split at h
        next htransport =>
          obtain rfl := Option.some.inj h
          apply hs.loadTransport _ hthread htransport
        next =>
          obtain rfl := Option.some.inj h
          apply hs.moveOutside hthread rfl nofun
          · trivial
          · rfl
          · rfl
          · exact fun _ => nofun
      next => contradiction
  | encodeReturns out =>
      simp only [StreamingContext.next] at h
      split at h
      next b hthread =>
        obtain rfl := Option.some.inj h
        obtain ⟨⟨b', hb', hfirst⟩, hrest, hheld, hsent⟩ := ThreadPoint.answered_batch cfg b out
        have hfresh := ThreadPoint.from_answered (hs.batch_from hthread rfl) cfg out
        apply hs.moveInside hthread rfl _ hb' hrest hheld (hfresh.1 b' hb')
        · rw [hsent]
          exact nofun
        · exact fun _ => hfirst
        · apply ThreadPoint.inPlace_answered
      next => contradiction
  | throw =>
      obtain ⟨-, h⟩ := Option.ite_none_right_eq_some.mp h
      obtain rfl := Option.some.inj h
      apply hs.throw
  | disconnected =>
      simp only [StreamingContext.next] at h
      split at h
      next hworker =>
        obtain rfl := Option.some.inj h
        apply hs.disconnected hworker
      next => contradiction
  | reconnected =>
      simp only [StreamingContext.next] at h
      split at h
      next hworker =>
        obtain rfl := Option.some.inj h
        apply hs.reconnected hworker (Option.isNone_iff_eq_none.mp hlands)
      next => contradiction
  | worker => apply hs.nextWorker hlands h

end Kept

end StreamingContext

end Ssc
