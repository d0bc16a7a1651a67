import Mathlib.Data.UInt
import SscOnWindows.Lib.Packing
import SscOnWindows.Pipeline.EncodeThread
import SscOnWindows.Transport.State

/-!
# Packing the output of the encoder

Both programs encode the PCM of a chunk block by block and put the outputs of the encoder one
behind the other into a packet, which is sent when the next output would make it larger than
the media MTU allows, and behind the last block.  The two loops are the same; they differ in
the size of the buffer the encoder writes its output to.

A packet is followed by the outputs in it, each with the number of its block.
-/

namespace Ssc

open Packing

/-- The two programs that stream. -/
inductive Program where
  | service
  | cli
  deriving DecidableEq, Repr

/-- The size of the encode buffer. -/
def Program.encodeBufferSize : Program → ℕ
  | service => 4096
  | cli => 2048

/-- `sizeof(accum)`. -/
def accumCapacity : ℕ := 2048

/-- `max_raw`. -/
def maxRaw (codec : AudioCodec) (mtu : UInt16) : ℕ :=
  let mtu := if mtu = 0 then 679 else mtu.toNat
  if codec = .sbc then mtu - 1 else mtu

/-- What a call of `encode` answers, and the bytes it has left in the encode buffer. -/
structure EncodeResult (program : Program) where
  ok : Bool
  output : List UInt8
  frames : UInt32
  fits : output.length ≤ program.encodeBufferSize
  deriving DecidableEq, Repr

/-- The output for a block of the stream. -/
structure BlockOutput (program : Program) where
  block : ℕ
  result : EncodeResult program
  deriving DecidableEq, Repr

/-- The arguments of a call of `send_media`. -/
structure MediaCall (program : Program) where
  pieces : List (BlockOutput program)
  timestamp : UInt32
  frames : UInt8
  deriving DecidableEq, Repr

/-- The packet that is being put together, the counter of PCM frames, and the calls of
`send_media` since the chunk began. -/
structure Packetizer (program : Program) where
  timestamp : UInt32 := 0
  block : ℕ := 0
  accum : List (BlockOutput program) := []
  accumFrames : UInt32 := 0
  firstTs : UInt32 := 0
  sent : List (MediaCall program) := []
  deriving DecidableEq, Repr

variable {program : Program}

namespace EncodeResult

def size (r : EncodeResult program) : ℕ :=
  r.output.length

/-- There is output to send. -/
def productive (r : EncodeResult program) : Bool :=
  r.ok && 0 < r.size

end EncodeResult

/-- The outputs that are in the packet. -/
def MediaCall.results (call : MediaCall program) : List (EncodeResult program) :=
  call.pieces.map BlockOutput.result

/-- The payload. -/
def MediaCall.data (call : MediaCall program) : List UInt8 :=
  call.results.flatMap EncodeResult.output

namespace Packetizer

/-- The outputs that are in the packet. -/
def held (s : Packetizer program) : List (EncodeResult program) :=
  s.accum.map BlockOutput.result

/-- `accum_size`. -/
def accumSize (s : Packetizer program) : ℕ :=
  total EncodeResult.size s.held

/-- The call that sends the packet. -/
def call (s : Packetizer program) : MediaCall program :=
  ⟨s.accum, s.firstTs, s.accumFrames.toUInt8⟩

/-- `send_media`. -/
def sendMedia (s : Packetizer program) : Packetizer program :=
  { s with sent := s.sent ++ [s.call] }

/-- The packet is sent and a new one is begun. -/
def flush (s : Packetizer program) : Packetizer program :=
  { s.sendMedia with accum := [], accumFrames := 0, firstTs := s.timestamp }

/-- The output is put behind the others, and lost when there is no room for it. -/
def accumulate (s : Packetizer program) (r : EncodeResult program) : Packetizer program :=
  if s.accumSize + r.size ≤ accumCapacity then
    { s with accum := s.accum ++ [⟨s.block, r⟩], accumFrames := s.accumFrames + r.frames }
  else s

/-- The packet has to be sent before an output of this size. -/
def full (limit : ℕ) (s : Packetizer program) (size : ℕ) : Bool :=
  s.accumSize + size > limit && s.accumFrames > 0

/-- A packet that is full is sent. -/
def ready (limit : ℕ) (s : Packetizer program) (size : ℕ) : Packetizer program :=
  if s.full limit size then s.flush else s

/-- What is done with the answer of the encoder. -/
def answer (limit : ℕ) (s : Packetizer program) (r : EncodeResult program) : Packetizer program :=
  if r.productive then (s.ready limit r.size).accumulate r else s

/-- The counters go on. -/
def advance (pcmFrames : UInt32) (s : Packetizer program) : Packetizer program :=
  { s with timestamp := s.timestamp + pcmFrames, block := s.block + 1 }

/-- A round of the encode loop. -/
def encode (pcmFrames : UInt32) (limit : ℕ) (s : Packetizer program) (r : EncodeResult program) :
    Packetizer program :=
  (s.answer limit r).advance pcmFrames

/-- The encode loop. -/
def encodeAll (pcmFrames : UInt32) (limit : ℕ) (s : Packetizer program)
    (results : List (EncodeResult program)) : Packetizer program :=
  results.foldl (encode pcmFrames limit) s

/-- The packet that is left behind the last block. -/
def finish (s : Packetizer program) : Packetizer program :=
  if s.accumFrames > 0 then s.sendMedia else s

/-- A chunk begins, without a packet. -/
def restart (s : Packetizer program) : Packetizer program :=
  { s with accum := [], accumFrames := 0, firstTs := s.timestamp, sent := [] }

/-- A chunk, for whose blocks the encoder answers `results`. -/
def chunk (codec : AudioCodec) (pcmFrames : UInt32) (s : Packetizer program) (mtu : UInt16)
    (results : List (EncodeResult program)) : Packetizer program :=
  (s.restart.encodeAll pcmFrames (maxRaw codec mtu) results).finish

end Packetizer

/-- The limit of a packet is that of the encode thread. -/
theorem maxRaw_eq (cfg : EncodeConfig) {codec : AudioCodec} (h : cfg.sbc = decide (codec = .sbc))
    (mtu : UInt16) :
  cfg.maxRaw mtu.toNat = maxRaw codec mtu
  := by
  have hzero : mtu.toNat = 0 ↔ mtu = 0 := by
    rw [← UInt16.toNat_inj]
    rfl
  simp only [EncodeConfig.maxRaw, maxRaw, h, hzero, decide_eq_true_eq]

/-! ### What the slot of a packet has room for -/

/-- The bytes of a payload that fit into a slot of the media queue. -/
def slotRoom (codec : AudioCodec) : ℕ :=
  if codec = .sbc then mediaSlotSize - 1 else mediaSlotSize

/-- `send_media` has a slot for the payload. -/
def MediaCall.Accepted (codec : AudioCodec) (call : MediaCall program) : Prop :=
  (Transport.buildPacket call.data call.timestamp.toNat call.frames codec).isSome

theorem length_data (call : MediaCall program) :
  call.data.length = total EncodeResult.size call.results
  := List.length_flatMap

theorem accepted_iff {codec : AudioCodec} {call : MediaCall program}
    (h : call.data.length ≤ accumCapacity) :
  call.Accepted codec ↔ call.data.length ≤ slotRoom codec
  := by
  rw [accumCapacity] at h
  cases codec with
  | sbc =>
      simp [MediaCall.Accepted, Transport.buildPacket, slotRoom, mediaSlotSize]
      omega
  | ssc | aac => simp [MediaCall.Accepted, Transport.buildPacket, slotRoom, mediaSlotSize]

/-! ### Rounds -/

namespace Packetizer

variable {s : Packetizer program} {r : EncodeResult program} {pcmFrames : UInt32} {limit : ℕ}

/-- The outputs that have been put into a packet, with their blocks. -/
def pieces (s : Packetizer program) : List (BlockOutput program) :=
  s.sent.flatMap MediaCall.pieces ++ s.accum

/-- The outputs that have been put into a packet. -/
def carried (s : Packetizer program) : List (EncodeResult program) :=
  s.pieces.map BlockOutput.result

/-- The packet is within its buffer, and its frames have been counted. -/
structure Counted (s : Packetizer program) : Prop where
  size_le : s.accumSize ≤ accumCapacity
  frames_eq : s.accumFrames = (s.held.map EncodeResult.frames).sum

theorem restart_counted (s : Packetizer program) :
  s.restart.Counted
  := by
  constructor
  · apply Nat.zero_le
  · rfl

theorem flush_counted (s : Packetizer program) :
  s.flush.Counted
  := by
  constructor
  · apply Nat.zero_le
  · rfl

theorem held_accumulate (h : s.accumSize + r.size ≤ accumCapacity) :
  (s.accumulate r).held = s.held ++ [r]
  := by
  simp [accumulate, if_pos h, held]

theorem accumSize_accumulate (h : s.accumSize + r.size ≤ accumCapacity) :
  (s.accumulate r).accumSize = s.accumSize + r.size
  := by
  rw [accumSize, held_accumulate h, total_append, total_singleton, accumSize]

theorem accumulate_of_lost (h : ¬ s.accumSize + r.size ≤ accumCapacity) :
  s.accumulate r = s
  := if_neg h

theorem Counted.accumulate (hs : s.Counted) (r : EncodeResult program) :
  (s.accumulate r).Counted
  := by
  by_cases h : s.accumSize + r.size ≤ accumCapacity
  · constructor
    · rw [accumSize_accumulate h]
      apply h
    · rw [held_accumulate h, List.map_append, List.sum_append, ← hs.frames_eq,
        Packetizer.accumulate, if_pos h]
      simp
  · rw [accumulate_of_lost h]
    apply hs

theorem sent_accumulate (s : Packetizer program) (r : EncodeResult program) :
  (s.accumulate r).sent = s.sent
  := by
  rw [accumulate]
  split
  · rfl
  · rfl

theorem Counted.ready (hs : s.Counted) (limit size : ℕ) :
  (s.ready limit size).Counted
  := by
  rw [Packetizer.ready]
  split
  · apply flush_counted
  · apply hs

theorem Counted.answer (hs : s.Counted) (limit : ℕ) (r : EncodeResult program) :
  (s.answer limit r).Counted
  := by
  rw [Packetizer.answer]
  split
  · apply (hs.ready limit r.size).accumulate
  · apply hs

theorem Counted.encode (hs : s.Counted) (pcmFrames : UInt32) (limit : ℕ)
    (r : EncodeResult program) :
  (s.encode pcmFrames limit r).Counted
  := by
  have h := hs.answer limit r
  exact ⟨h.size_le, h.frames_eq⟩

theorem pieces_ready (s : Packetizer program) (limit size : ℕ) :
  (s.ready limit size).pieces = s.pieces
  := by
  rw [ready]
  split
  · simp [pieces, flush, sendMedia, call]
  · rfl

theorem block_ready (s : Packetizer program) (limit size : ℕ) :
  (s.ready limit size).block = s.block
  := by
  rw [ready]
  split
  · rfl
  · rfl

/-- The output is put into a packet, or it is lost. -/
theorem pieces_encode (s : Packetizer program) (pcmFrames : UInt32) (limit : ℕ)
    (r : EncodeResult program) :
  (s.encode pcmFrames limit r).pieces = s.pieces ++ [⟨s.block, r⟩]
    ∨ (s.encode pcmFrames limit r).pieces = s.pieces
  := by
  change (s.answer limit r).pieces = _ ∨ (s.answer limit r).pieces = _
  rw [answer]
  split
  · rw [accumulate]
    split
    · left
      rw [← pieces_ready s limit r.size, ← block_ready s limit r.size, pieces, pieces,
        List.append_assoc]
    · right
      apply pieces_ready
  · right
    rfl

theorem carried_encode (s : Packetizer program) (pcmFrames : UInt32) (limit : ℕ)
    (r : EncodeResult program) :
  (s.encode pcmFrames limit r).carried = s.carried ++ [r]
    ∨ (s.encode pcmFrames limit r).carried = s.carried
  := by
  rw [carried, carried]
  obtain hkept | hlost := s.pieces_encode pcmFrames limit r
  · left
    rw [hkept, List.map_append]
    rfl
  · right
    rw [hlost]

theorem carried_eq (s : Packetizer program) :
  s.carried = s.sent.flatMap MediaCall.results ++ s.held
  := by
  rw [carried, pieces, List.map_append, List.map_flatMap]
  rfl

theorem encodeAll_cons (s : Packetizer program) (pcmFrames : UInt32) (limit : ℕ)
    (r : EncodeResult program) (rs : List (EncodeResult program)) :
  s.encodeAll pcmFrames limit (r :: rs)
    = (s.encode pcmFrames limit r).encodeAll pcmFrames limit rs
  := rfl

/-- No more outputs reach a packet than the encoder gives. -/
theorem length_carried_encodeAll (s : Packetizer program) (pcmFrames : UInt32) (limit : ℕ)
    (rs : List (EncodeResult program)) :
  (s.encodeAll pcmFrames limit rs).carried.length ≤ s.carried.length + rs.length
  := by
  induction rs generalizing s with
  | nil => apply Nat.le_refl
  | cons r rs ih =>
      have hrest := ih (s.encode pcmFrames limit r)
      rw [encodeAll_cons, List.length_cons]
      obtain hkept | hlost := s.carried_encode pcmFrames limit r
      · rw [hkept, List.length_append, List.length_singleton] at hrest
        omega
      · rw [hlost] at hrest
        omega

/-- What is sent has been put into a packet before. -/
theorem pieces_finish (s : Packetizer program) :
  s.finish.sent.flatMap MediaCall.pieces <+: s.pieces
  := by
  rw [finish, pieces]
  split
  · simp [sendMedia, call]
  · apply List.prefix_append

theorem length_sent_finish (s : Packetizer program) :
  (s.finish.sent.flatMap MediaCall.results).length ≤ s.carried.length
  := by
  have hlength := s.pieces_finish.length_le
  rw [carried, List.length_map]
  change (s.finish.sent.flatMap (fun call => call.pieces.map BlockOutput.result)).length ≤ _
  rw [← List.map_flatMap, List.length_map]
  apply hlength

theorem sent_ready (s : Packetizer program) (limit size : ℕ) :
  s.sent <+: (s.ready limit size).sent
  := by
  rw [ready]
  split
  · apply List.prefix_append
  · apply List.prefix_refl

/-- The calls that have been made stay the first ones. -/
theorem sent_encode (s : Packetizer program) (pcmFrames : UInt32) (limit : ℕ)
    (r : EncodeResult program) :
  s.sent <+: (s.encode pcmFrames limit r).sent
  := by
  change s.sent <+: (s.answer limit r).sent
  rw [answer]
  split
  · rw [sent_accumulate]
    apply sent_ready
  · apply List.prefix_refl

theorem sent_encodeAll (s : Packetizer program) (pcmFrames : UInt32) (limit : ℕ)
    (rs : List (EncodeResult program)) :
  s.sent <+: (s.encodeAll pcmFrames limit rs).finish.sent
  := by
  induction rs generalizing s with
  | nil =>
      rw [encodeAll, List.foldl_nil, finish]
      split
      · apply List.prefix_append
      · apply List.prefix_refl
  | cons r rs ih => apply (s.sent_encode pcmFrames limit r).trans (ih _)

/-! ### Nothing is lost -/

section Complete

variable {rs : List (EncodeResult program)}

/-- All that is in the packets, and all that follows, is sent. -/
def Complete (pcmFrames : UInt32) (limit : ℕ) (s : Packetizer program)
    (rs : List (EncodeResult program)) : Prop :=
  (s.encodeAll pcmFrames limit rs).finish.sent.flatMap MediaCall.results = s.carried ++ rs

theorem answer_eq (hr : r.productive) (limit : ℕ) (s : Packetizer program) :
  s.answer limit r = (s.ready limit r.size).accumulate r
  := if_pos hr

theorem Complete.carried_encode (h : Complete pcmFrames limit s (r :: rs)) :
  (s.encode pcmFrames limit r).carried = s.carried ++ [r]
  := by
  obtain hkept | hlost := s.carried_encode pcmFrames limit r
  · apply hkept
  · have hsent := length_sent_finish (s.encodeAll pcmFrames limit (r :: rs))
    have hall := length_carried_encodeAll (s.encode pcmFrames limit r) pcmFrames limit rs
    rw [h, List.length_append, List.length_cons, encodeAll_cons] at hsent
    rw [hlost] at hall
    omega

theorem Complete.tail (h : Complete pcmFrames limit s (r :: rs)) :
  Complete pcmFrames limit (s.encode pcmFrames limit r) rs
  := by
  rw [Complete, h.carried_encode, List.append_assoc, List.singleton_append]
  apply h

/-- The output finds room in the packet. -/
theorem Complete.room (h : Complete pcmFrames limit s (r :: rs)) (hr : r.productive) :
  (s.ready limit r.size).accumSize + r.size ≤ accumCapacity
  := by
  by_contra hlost
  have hcarried := h.carried_encode
  change (s.answer limit r).carried = _ at hcarried
  rw [answer_eq hr, accumulate_of_lost hlost, carried, pieces_ready, ← carried] at hcarried
  have hlength := congrArg List.length hcarried
  rw [List.length_append, List.length_singleton] at hlength
  omega

/-- The packet in the hands behind a round. -/
theorem held_encode (pcmFrames : UInt32) (hr : r.productive)
    (hroom : (s.ready limit r.size).accumSize + r.size ≤ accumCapacity) :
  (s.encode pcmFrames limit r).held = (s.ready limit r.size).held ++ [r]
  := by
  change (s.answer limit r).held = _
  rw [answer_eq hr, held_accumulate hroom]

theorem sent_encode_of_productive (hr : r.productive) :
  (s.encode pcmFrames limit r).sent = (s.ready limit r.size).sent
  := by
  change (s.answer limit r).sent = _
  rw [answer_eq hr, sent_accumulate]

theorem ready_of_full {size : ℕ} (h : s.full limit size) :
  s.ready limit size = s.flush
  := if_pos h

theorem ready_of_not_full {size : ℕ} (h : ¬ s.full limit size) :
  s.ready limit size = s
  := if_neg h

theorem call_mem_of_full (hr : r.productive) (h : s.full limit r.size) :
  s.call ∈ (s.encodeAll pcmFrames limit (r :: rs)).finish.sent
  := by
  apply ((s.encode pcmFrames limit r).sent_encodeAll pcmFrames limit rs).mem
  rw [sent_encode_of_productive hr, ready_of_full h]
  apply List.mem_append_right
  apply List.mem_singleton_self

/-- The last packet is sent when it is not empty. -/
theorem Complete.sends_last (h : Complete pcmFrames limit s []) (hheld : s.held ≠ []) :
  s.accumFrames > 0
  := by
  by_contra hframes
  have hsent : s.sent.flatMap MediaCall.results = s.carried := by
    rw [Complete, encodeAll, List.foldl_nil, finish, if_neg hframes, List.append_nil] at h
    apply h
  rw [carried_eq] at hsent
  apply hheld (List.self_eq_append_right.mp hsent)

theorem call_mem_finish (h : s.accumFrames > 0) :
  s.call ∈ s.finish.sent
  := by
  rw [finish, if_pos h]
  apply List.mem_append_right
  apply List.mem_singleton_self

/-- The packet in the hands is sent at some time, with what follows behind it. -/
theorem Complete.begun (h : Complete pcmFrames limit s rs) (hheld : s.held ≠ [])
    (hrs : ∀ r ∈ rs, r.productive) :
  ∃ call ∈ (s.encodeAll pcmFrames limit rs).finish.sent, s.held <+: call.results
  := by
  induction rs generalizing s with
  | nil => exact ⟨s.call, call_mem_finish (h.sends_last hheld), List.prefix_refl _⟩
  | cons r rs ih =>
      obtain ⟨hr, hrest⟩ := List.forall_mem_cons.mp hrs
      by_cases hfull : s.full limit r.size
      · exact ⟨s.call, call_mem_of_full hr hfull, List.prefix_refl _⟩
      · have hroom := h.room hr
        have heq : (s.encode pcmFrames limit r).held = s.held ++ [r] := by
          rw [held_encode pcmFrames hr hroom, ready_of_not_full hfull]
        obtain ⟨call, hmem, hprefix⟩ := ih h.tail (by simp [heq]) hrest
        rw [heq] at hprefix
        use call, hmem
        apply (List.prefix_append s.held [r]).trans hprefix

end Complete

end Packetizer

/-- The outputs of a packet go into a slot of the media queue, and their frames do not look
like none. -/
def FitsSlot (codec : AudioCodec) (bin : List (EncodeResult program)) : Prop :=
  total EncodeResult.size bin ≤ slotRoom codec ∧ (bin.map EncodeResult.frames).sum ≠ 0

instance (codec : AudioCodec) (bin : List (EncodeResult program)) :
    Decidable (FitsSlot codec bin) :=
  inferInstanceAs (Decidable (_ ∧ _))

/-- The calls of a chunk pass on all outputs, each whole and in its place, in payloads that
are within the limit and have a slot. -/
structure LosesNothing (codec : AudioCodec) (mtu : UInt16) (results : List (EncodeResult program))
    (calls : List (MediaCall program)) : Prop where
  bytes : calls.flatMap MediaCall.data = results.flatMap EncodeResult.output
  whole : calls.flatMap MediaCall.results = results
  bounded : ∀ call ∈ calls, call.data.length ≤ maxRaw codec mtu
  accepted : ∀ call ∈ calls, call.Accepted codec

/-- The call is within the limit and has a slot. -/
def MediaCall.Within (codec : AudioCodec) (limit : ℕ) (call : MediaCall program) : Prop :=
  call.data.length ≤ limit ∧ call.Accepted codec

namespace Packetizer

section Fits

variable {codec : AudioCodec} {s : Packetizer program} {r : EncodeResult program}
  {pcmFrames : UInt32} {limit : ℕ} {rs : List (EncodeResult program)}

theorem Counted.fitsSlot (hs : s.Counted) (hcall : s.call.Within codec limit)
    (hframes : s.accumFrames > 0) :
  FitsSlot codec s.held
  := by
  have hlength : s.call.data.length = s.accumSize := length_data s.call
  constructor
  · have haccepted := (accepted_iff (by rw [hlength]; apply hs.size_le)).mp hcall.2
    rw [hlength] at haccepted
    apply haccepted
  · rw [← hs.frames_eq]
    apply UInt32.pos_iff_ne_zero.mp hframes

theorem Complete.fitsSlot (hs : s.Counted) (h : Complete pcmFrames limit s rs)
    (hheld : s.held ≠ []) (hrs : ∀ r ∈ rs, r.productive)
    (hwithin : ∀ call ∈ (s.encodeAll pcmFrames limit rs).finish.sent,
      call.Within codec limit) :
  ∀ bin ∈ packFrom EncodeResult.size limit s.held rs, FitsSlot codec bin
  := by
  induction rs generalizing s with
  | nil =>
      have hframes := h.sends_last hheld
      rw [packFrom, List.forall_mem_singleton]
      apply hs.fitsSlot (hwithin _ (call_mem_finish hframes)) hframes
  | cons r rs ih =>
      obtain ⟨hr, hrest⟩ := List.forall_mem_cons.mp hrs
      have hnext := held_encode pcmFrames hr (h.room hr)
      have htail := ih (hs.encode pcmFrames limit r) h.tail (by simp [hnext]) hrest hwithin
      by_cases htotal : total EncodeResult.size s.held + r.size > limit
      · have hframes : s.accumFrames > 0 := by
          by_contra hnone
          have hfull : ¬ s.full limit r.size := by simp [full, hnone]
          obtain ⟨call, hmem, hprefix⟩ := h.tail.begun (by simp [hnext]) hrest
          have hlength := total_le_of_sublist EncodeResult.size hprefix.sublist
          rw [hnext, ready_of_not_full hfull, total_append, total_singleton, ← length_data]
            at hlength
          have hbound := (hwithin call hmem).1
          omega
        have hfull : s.full limit r.size := by
          simp only [full, accumSize, htotal, hframes, decide_true, Bool.and_self]
        rw [packFrom_of_full htotal, List.forall_mem_cons]
        constructor
        · apply hs.fitsSlot (hwithin _ (call_mem_of_full hr hfull)) hframes
        · rw [hnext, ready_of_full hfull] at htail
          apply htail
      · have hfull : ¬ s.full limit r.size := by
          simp only [full, accumSize, htotal, decide_false, Bool.false_and]
          intro h
          contradiction
        rw [packFrom_of_room htotal]
        rw [hnext, ready_of_not_full hfull] at htail
        apply htail

theorem slotRoom_le (codec : AudioCodec) :
  slotRoom codec ≤ accumCapacity
  := by cases codec with | sbc | ssc | aac => decide

/-- Packets that fit hold the bins of the outputs. -/
theorem results_sent (hs : s.Counted) (hrs : ∀ r ∈ rs, r.productive)
    (hfits : ∀ bin ∈ packFrom EncodeResult.size limit s.held rs, FitsSlot codec bin) :
  (s.encodeAll pcmFrames limit rs).finish.sent.map MediaCall.results
    = s.sent.map MediaCall.results ++ packFrom EncodeResult.size limit s.held rs
  := by
  induction rs generalizing s with
  | nil =>
      rw [packFrom, List.forall_mem_singleton] at hfits
      have hframes : s.accumFrames > 0 := by
        apply UInt32.pos_iff_ne_zero.mpr
        rw [hs.frames_eq]
        apply hfits.2
      rw [encodeAll, List.foldl_nil, finish, if_pos hframes, sendMedia, List.map_append]
      rfl
  | cons r rs ih =>
      obtain ⟨hr, hrest⟩ := List.forall_mem_cons.mp hrs
      have hroom {bin : List (EncodeResult program)}
          (hmem : ∃ b ∈ packFrom EncodeResult.size limit s.held (r :: rs), bin <+: b) :
          total EncodeResult.size bin ≤ accumCapacity := by
        obtain ⟨b, hb, hprefix⟩ := hmem
        apply (total_le_of_sublist EncodeResult.size hprefix.sublist).trans
        apply (hfits b hb).1.trans (slotRoom_le codec)
      by_cases htotal : total EncodeResult.size s.held + r.size > limit
      · rw [packFrom_of_full htotal] at hfits hroom
        obtain ⟨hbin, hbins⟩ := List.forall_mem_cons.mp hfits
        have hframes : s.accumFrames > 0 := by
          apply UInt32.pos_iff_ne_zero.mpr
          rw [hs.frames_eq]
          apply hbin.2
        have hfull : s.full limit r.size := by
          simp only [full, accumSize, htotal, hframes, decide_true, Bool.and_self]
        have hsize : (s.ready limit r.size).accumSize + r.size ≤ accumCapacity := by
          obtain ⟨b, hb, hprefix⟩ :=
            exists_mem_packFrom EncodeResult.size limit [r] rs
          have hr := hroom ⟨b, List.mem_cons_of_mem _ hb, hprefix⟩
          rw [total_singleton] at hr
          rw [ready_of_full hfull]
          apply (Nat.zero_add _).le.trans hr
        have hheld : (s.encode pcmFrames limit r).held = [r] := by
          rw [held_encode pcmFrames hr hsize, ready_of_full hfull]
          rfl
        have hsent : (s.encode pcmFrames limit r).sent = s.sent ++ [s.call] := by
          rw [sent_encode_of_productive hr, ready_of_full hfull]
          rfl
        rw [encodeAll_cons, ih (hs.encode pcmFrames limit r) hrest (by rw [hheld]; apply hbins),
          hheld, hsent, packFrom_of_full htotal, List.map_append, List.append_assoc]
        rfl
      · have hfull : ¬ s.full limit r.size := by
          simp only [full, accumSize, htotal, decide_false, Bool.false_and]
          intro h
          contradiction
        rw [packFrom_of_room htotal] at hfits hroom
        have hsize : (s.ready limit r.size).accumSize + r.size ≤ accumCapacity := by
          have hboth := hroom (exists_mem_packFrom _ _ _ _)
          rw [total_append, total_singleton] at hboth
          rw [ready_of_not_full hfull]
          apply hboth
        have hheld : (s.encode pcmFrames limit r).held = s.held ++ [r] := by
          rw [held_encode pcmFrames hr hsize, ready_of_not_full hfull]
        have hsent : (s.encode pcmFrames limit r).sent = s.sent := by
          rw [sent_encode_of_productive hr, ready_of_not_full hfull]
        rw [encodeAll_cons, ih (hs.encode pcmFrames limit r) hrest (by rw [hheld]; apply hfits),
          hheld, hsent, packFrom_of_room htotal]

end Fits

end Packetizer

/-- The encoder has given an output of at least one frame, which is not too large for a packet
of its own. -/
structure EncodeResult.Sound (codec : AudioCodec) (mtu : UInt16) (r : EncodeResult program) :
    Prop where
  ok_eq : r.ok = true
  output_ne : r.output ≠ []
  frames_pos : 1 ≤ r.frames
  size_le : r.size ≤ maxRaw codec mtu

theorem EncodeResult.Sound.productive {codec : AudioCodec} {mtu : UInt16}
    {r : EncodeResult program} (h : r.Sound codec mtu) :
  r.productive
  := by
  rw [EncodeResult.productive, h.ok_eq, Bool.true_and, decide_eq_true_eq]
  apply List.length_pos_iff.mpr h.output_ne

/-- The outputs, packed in order up to the limit, go into slots. -/
def FitsSlots (codec : AudioCodec) (mtu : UInt16) (results : List (EncodeResult program)) : Prop :=
  ∀ bin ∈ pack EncodeResult.size (maxRaw codec mtu) results, FitsSlot codec bin

instance (codec : AudioCodec) (mtu : UInt16) (results : List (EncodeResult program)) :
    Decidable (FitsSlots codec mtu results) :=
  inferInstanceAs (Decidable (∀ bin ∈ _, FitsSlot codec bin))

section Chunk

variable {codec : AudioCodec} {mtu : UInt16} {s : Packetizer program} {pcmFrames : UInt32}
  {r : EncodeResult program} {rs : List (EncodeResult program)}

namespace Packetizer

theorem sent_chunk (s : Packetizer program) (codec : AudioCodec) (pcmFrames : UInt32)
    (mtu : UInt16) (r : EncodeResult program) (rs : List (EncodeResult program)) :
  (s.chunk codec pcmFrames mtu (r :: rs)).sent
    = ((s.restart.encode pcmFrames (maxRaw codec mtu) r).encodeAll pcmFrames
        (maxRaw codec mtu) rs).finish.sent
  := rfl

/-- The first output is put into the first packet. -/
theorem held_encode_restart (s : Packetizer program) (pcmFrames : UInt32) (limit : ℕ)
    (hr : r.productive)
    (hsize : r.size ≤ accumCapacity) :
  (s.restart.encode pcmFrames limit r).held = [r]
    ∧ (s.restart.encode pcmFrames limit r).sent = []
  := by
  have hfull : ¬ s.restart.full limit r.size := by simp [full, restart]
  have hroom : (s.restart.ready limit r.size).accumSize + r.size ≤ accumCapacity := by
    rw [ready_of_not_full hfull]
    apply (Nat.zero_add _).le.trans hsize
  constructor
  · rw [held_encode pcmFrames hr hroom, ready_of_not_full hfull]
    rfl
  · rw [sent_encode_of_productive hr, ready_of_not_full hfull]
    rfl

end Packetizer

theorem LosesNothing.fitsSlots (hsound : ∀ r ∈ rs, r.Sound codec mtu)
    (h : LosesNothing codec mtu rs (s.chunk codec pcmFrames mtu rs).sent) :
  FitsSlots codec mtu rs
  := by
  cases rs with
  | nil => nofun
  | cons r rs =>
      obtain ⟨hr, hrest⟩ := List.forall_mem_cons.mp hsound
      have hcomplete : Packetizer.Complete pcmFrames (maxRaw codec mtu) s.restart (r :: rs) :=
        h.whole
      have hsize : r.size ≤ accumCapacity := by
        apply Nat.le_trans _ (hcomplete.room hr.productive)
        apply Nat.le_add_left
      obtain ⟨hheld, -⟩ :=
        s.held_encode_restart pcmFrames (maxRaw codec mtu) hr.productive hsize
      have hwithin : ∀ call ∈ (s.chunk codec pcmFrames mtu (r :: rs)).sent,
          call.Within codec (maxRaw codec mtu) :=
        fun call hcall => ⟨h.bounded call hcall, h.accepted call hcall⟩
      have hfits := hcomplete.tail.fitsSlot
        (s.restart_counted.encode pcmFrames (maxRaw codec mtu) r) (by simp [hheld])
        (fun r hr => (hrest r hr).productive) hwithin
      rw [hheld] at hfits
      apply hfits

theorem results_chunk (s : Packetizer program) (pcmFrames : UInt32)
    (hsound : ∀ r ∈ rs, r.Sound codec mtu) (h : FitsSlots codec mtu rs) :
  (s.chunk codec pcmFrames mtu rs).sent.map MediaCall.results
    = pack EncodeResult.size (maxRaw codec mtu) rs
  := by
  cases rs with
  | nil => rfl
  | cons r rs =>
      obtain ⟨hr, hrest⟩ := List.forall_mem_cons.mp hsound
      have hsize : r.size ≤ accumCapacity := by
        obtain ⟨b, hb, hprefix⟩ :=
          exists_mem_packFrom EncodeResult.size (maxRaw codec mtu) [r] rs
        have hle := total_le_of_sublist EncodeResult.size hprefix.sublist
        rw [total_singleton] at hle
        apply (hle.trans (h b hb).1).trans (Packetizer.slotRoom_le codec)
      obtain ⟨hheld, hsent⟩ :=
        s.held_encode_restart pcmFrames (maxRaw codec mtu) hr.productive hsize
      have hfits : ∀ bin ∈ packFrom EncodeResult.size (maxRaw codec mtu)
          (s.restart.encode pcmFrames (maxRaw codec mtu) r).held rs, FitsSlot codec bin := by
        rw [hheld]
        apply h
      rw [Packetizer.sent_chunk, Packetizer.results_sent
        (s.restart_counted.encode pcmFrames (maxRaw codec mtu) r)
        (fun r hr => (hrest r hr).productive) hfits, hheld, hsent]
      rfl

theorem FitsSlots.losesNothing (hsound : ∀ r ∈ rs, r.Sound codec mtu)
    (h : FitsSlots codec mtu rs) :
  LosesNothing codec mtu rs (s.chunk codec pcmFrames mtu rs).sent
  := by
  have hbins := results_chunk s pcmFrames hsound h
  have hwhole : (s.chunk codec pcmFrames mtu rs).sent.flatMap MediaCall.results = rs := by
    rw [List.flatMap_def, hbins, flatten_pack]
  have hmem {call : MediaCall program} (hcall : call ∈ (s.chunk codec pcmFrames mtu rs).sent) :
      call.results ∈ pack EncodeResult.size (maxRaw codec mtu) rs := by
    rw [← hbins]
    apply List.mem_map_of_mem hcall
  constructor
  · conv_rhs => rw [← hwhole]
    rw [List.flatMap_assoc]
    rfl
  · apply hwhole
  · intro call hcall
    rw [length_data]
    apply total_le_of_mem_pack (fun r hr => (hsound r hr).size_le) _ (hmem hcall)
  · intro call hcall
    have hroom := (h _ (hmem hcall)).1
    rw [← length_data] at hroom
    apply (accepted_iff (hroom.trans (Packetizer.slotRoom_le codec))).mpr hroom

end Chunk

/-- In both programs, the packets of a chunk lose nothing exactly when the outputs, packed in
order up to the limit of the MTU, go into the slots of the media queue. -/
theorem losesNothing_iff (program : Program) (codec : AudioCodec) (mtu : UInt16)
    (pcmFrames : UInt32) (s : Packetizer program) (results : List (EncodeResult program))
    (h : ∀ r ∈ results, r.Sound codec mtu) :
  LosesNothing codec mtu results (s.chunk codec pcmFrames mtu results).sent
    ↔ FitsSlots codec mtu results
  := by
  constructor
  · apply LosesNothing.fitsSlots h
  · apply FitsSlots.losesNothing h

/-- A sum of 32-bit numbers that does not wrap. -/
theorem toNat_sum {xs : List UInt32} (h : (xs.map UInt32.toNat).sum < 2 ^ 32) :
  xs.sum.toNat = (xs.map UInt32.toNat).sum
  := by
  induction xs with
  | nil => rfl
  | cons x xs ih =>
      rw [List.map_cons, List.sum_cons] at h
      rw [List.sum_cons, UInt32.toNat_add, ih (by omega), Nat.mod_eq_of_lt h, List.map_cons,
        List.sum_cons]

/-- An output of 300 bytes and one frame. -/
def output300 : EncodeResult .cli where
  ok := true
  output := List.replicate 300 0
  frames := 1
  fits := by decide +kernel

theorem output300_sound {codec : AudioCodec} {mtu : UInt16} (h : 300 ≤ maxRaw codec mtu) :
  output300.Sound codec mtu
  := ⟨rfl, List.cons_ne_nil _ _, by decide, by
    rw [EncodeResult.size, output300, List.length_replicate]
    apply h⟩

theorem output300_mem {codec : AudioCodec} {mtu : UInt16} {n : ℕ}
    (h : 300 ≤ maxRaw codec mtu) :
  ∀ r ∈ List.replicate n output300, r.Sound codec mtu
  := by
  intro r hr
  rw [List.eq_of_mem_replicate hr]
  apply output300_sound h

/-- With the usual MTU two outputs go into each packet. -/
theorem losesNothing_usual :
  LosesNothing .ssc 679 (List.replicate 5 output300)
    (Packetizer.chunk .ssc 480 {} 679 (List.replicate 5 output300)).sent
  := by
  apply (losesNothing_iff .cli .ssc 679 480 {} _ (output300_mem (by decide))).mpr
  decide +kernel

/-- With an MTU of 1691 five outputs go into a packet that has no slot. -/
theorem not_losesNothing_large :
  (∀ r ∈ List.replicate 5 output300, r.Sound .ssc 1691)
    ∧ ¬ LosesNothing .ssc 1691 (List.replicate 5 output300)
      (Packetizer.chunk .ssc 480 {} 1691 (List.replicate 5 output300)).sent
  := by
  have hsound : ∀ r ∈ List.replicate 5 output300, r.Sound .ssc 1691 :=
    output300_mem (by decide)
  refine ⟨hsound, fun h => ?_⟩
  have hfits : ¬ FitsSlots .ssc 1691 (List.replicate 5 output300) := by decide +kernel
  apply hfits (h.fitsSlots hsound)

end Ssc
