import SscOnWindows.Pipeline.Packetize

/-!
# The timestamps of the packets

The timestamp of a packet is noted when the chunk begins and when a packet is flushed, and the
counter of PCM frames goes on with every block.  A block without output between that moment and
the first output of the packet makes the timestamp early.

`Filling` follows a packet without its timestamp: the outputs in it, and whether they begin
late.  The loop runs along with it, and the packets it sends are on time exactly when none is
sent late.
-/

namespace Ssc

open Packing

/-- What does not change while packets are put together. -/
structure PacketConfig where
  codec : AudioCodec
  pcmFrames : UInt32
  pcmFrames_pos : 0 < pcmFrames

/-- A chunk with the answers of the encoder to its blocks.  The bytes of its PCM are counted in
a `uint32_t`. -/
structure Chunk (program : Program) (cfg : PacketConfig) where
  mtu : UInt16
  results : List (EncodeResult program)
  counted : results.length * cfg.pcmFrames.toNat < 2 ^ 32

/-- A stream: the loop between two chunks, and all calls of `send_media`. -/
structure MediaStream (program : Program) where
  packetizer : Packetizer program := {}
  calls : List (MediaCall program) := []

variable {program : Program} {cfg : PacketConfig}

/-- The position in the stream of a block, as a `uint32_t`. -/
def PacketConfig.position (cfg : PacketConfig) (block : ℕ) : UInt32 :=
  UInt32.ofNat (cfg.pcmFrames.toNat * block)

/-- The first block whose output the packet contains. -/
def MediaCall.firstBlock (call : MediaCall program) : Option ℕ :=
  call.pieces.head?.map BlockOutput.block

/-- The timestamp is the position of the first block. -/
def MediaCall.OnTime (cfg : PacketConfig) (call : MediaCall program) : Prop :=
  ∃ block, call.firstBlock = some block ∧ call.timestamp = cfg.position block

/-- From one packet to the next the timestamp advances by the PCM frames between their
blocks. -/
def MediaCall.Advances (cfg : PacketConfig) (call next : MediaCall program) : Prop :=
  ∀ block later, call.firstBlock = some block → next.firstBlock = some later →
    block < later ∧ next.timestamp = call.timestamp + cfg.position (later - block)

namespace MediaStream

/-- A chunk is encoded and sent. -/
def chunk (cfg : PacketConfig) (s : MediaStream program) (c : Chunk program cfg) :
    MediaStream program :=
  let packetizer := s.packetizer.chunk cfg.codec cfg.pcmFrames c.mtu c.results
  { packetizer := packetizer, calls := s.calls ++ packetizer.sent }

/-- The chunks, one after the other. -/
def run (cfg : PacketConfig) (chunks : List (Chunk program cfg)) : MediaStream program :=
  chunks.foldl (chunk cfg) {}

end MediaStream

/-- All packets have the timestamps of their first blocks, which advance with the blocks. -/
structure Timed (cfg : PacketConfig) (calls : List (MediaCall program)) : Prop where
  onTime : ∀ call ∈ calls, call.OnTime cfg
  advances : calls.IsChain (MediaCall.Advances cfg)

/-! ### Packets without timestamps -/

/-- The outputs in a packet, and whether a block without output has come before them. -/
structure Filling (program : Program) where
  held : List (EncodeResult program) := []
  late : Bool := false

namespace Filling

/-- The frames of the packet. -/
def frames (f : Filling program) : UInt32 :=
  (f.held.map EncodeResult.frames).sum

/-- A block that leaves nothing in the packet. -/
def skip (f : Filling program) : Filling program :=
  if f.held = [] then { f with late := true } else f

/-- The packet is sent before the output. -/
def sends (limit : ℕ) (f : Filling program) (r : EncodeResult program) : Bool :=
  r.productive && total EncodeResult.size f.held + r.size > limit && f.frames > 0

def put (f : Filling program) (r : EncodeResult program) : Filling program :=
  if total EncodeResult.size f.held + r.size ≤ accumCapacity then
    { f with held := f.held ++ [r] }
  else f.skip

def next (limit : ℕ) (f : Filling program) (r : EncodeResult program) : Filling program :=
  if r.productive then (if f.sends limit r then {} else f).put r else f.skip

/-- No packet that begins late is sent. -/
def Punctual (limit : ℕ) (f : Filling program) : List (EncodeResult program) → Prop
  | [] => f.frames > 0 → f.late = false
  | r :: rs => (f.sends limit r → f.late = false) ∧ (f.next limit r).Punctual limit rs

end Filling

/-- In the chunk no packet begins behind a block without output, since its timestamp is that of
the beginning of the chunk or of the flush before. -/
def Chunk.Punctual (c : Chunk program cfg) : Prop :=
  Filling.Punctual (maxRaw cfg.codec c.mtu) {} c.results

/-! ### Positions -/

namespace PacketConfig

theorem position_add (cfg : PacketConfig) (m n : ℕ) :
  cfg.position (m + n) = cfg.position m + cfg.position n
  := by
  rw [position, Nat.mul_add, UInt32.ofNat_add]
  rfl

theorem position_succ (cfg : PacketConfig) (n : ℕ) :
  cfg.position (n + 1) = cfg.position n + cfg.pcmFrames
  := by
  rw [position_add]
  congr 1
  rw [position, Nat.mul_one]
  apply UInt32.ofNat_toNat

/-- Blocks of one chunk have different positions. -/
theorem position_inj {cfg : PacketConfig} {m n : ℕ} (hle : m ≤ n)
    (hlt : (n - m) * cfg.pcmFrames.toNat < 2 ^ 32) :
  cfg.position m = cfg.position n ↔ m = n
  := by
  constructor
  · intro h
    obtain ⟨k, rfl⟩ := Nat.exists_eq_add_of_le hle
    rw [Nat.add_sub_cancel_left, Nat.mul_comm] at hlt
    have hzero : cfg.position k = 0 := by
      rw [position_add] at h
      apply left_eq_add.mp h
    have hmod := congrArg UInt32.toNat hzero
    rw [position, UInt32.toNat_ofNat', Nat.mod_eq_of_lt hlt] at hmod
    have hpos : 0 < cfg.pcmFrames.toNat := cfg.pcmFrames_pos
    obtain hframes | hk := Nat.mul_eq_zero.mp hmod
    · omega
    · rw [hk, Nat.add_zero]
  · intro h
    rw [h]

end PacketConfig

/-! ### The loop and the packets without timestamps -/

namespace Packetizer

/-- The block with which the packet begins, or would begin now. -/
def firstBlock (s : Packetizer program) : ℕ :=
  (s.accum.head?.map BlockOutput.block).getD s.block

/-- The packet is the one that is followed, and its timestamp is the position of a block of
the chunk, which is the first block of the packet unless the packet begins late. -/
structure Follows (cfg : PacketConfig) (start : ℕ) (s : Packetizer program)
    (f : Filling program) : Prop where
  held_eq : s.held = f.held
  frames_eq : s.accumFrames = f.frames
  timestamp_eq : s.timestamp = cfg.position s.block
  first_le : s.firstBlock ≤ s.block
  noted : ∃ block, s.firstTs = cfg.position block ∧ start ≤ block ∧ block ≤ s.firstBlock
    ∧ (f.late = false ↔ block = s.firstBlock)

variable {s : Packetizer program} {f : Filling program} {r : EncodeResult program}
  {start limit : ℕ}

theorem accum_eq_nil_iff (h : s.Follows cfg start f) :
  s.accum = [] ↔ f.held = []
  := by
  rw [← h.held_eq, held, List.map_eq_nil_iff]

theorem accumSize_eq (h : s.Follows cfg start f) :
  s.accumSize = total EncodeResult.size f.held
  := by
  rw [accumSize, h.held_eq]

theorem Follows.flush (h : s.Follows cfg start f) (hstart : start ≤ s.block) :
  s.flush.Follows cfg start {}
  where
  held_eq := rfl
  frames_eq := rfl
  timestamp_eq := h.timestamp_eq
  first_le := Nat.le_refl _
  noted := ⟨s.block, h.timestamp_eq, hstart, Nat.le_refl _, by
    simp [firstBlock, Packetizer.flush, sendMedia]⟩

/-- Behind a block without output. -/
theorem Follows.skip (h : s.Follows cfg start f) :
  (s.advance cfg.pcmFrames).Follows cfg start f.skip
  := by
  obtain ⟨block, hts, hstart, hle, hlate⟩ := h.noted
  have htimestamp : (s.advance cfg.pcmFrames).timestamp = cfg.position (s.block + 1) := by
    rw [cfg.position_succ, ← h.timestamp_eq]
    rfl
  by_cases hheld : f.held = []
  · have haccum := (accum_eq_nil_iff h).mpr hheld
    have hfirst : s.firstBlock = s.block := by rw [firstBlock, haccum]; rfl
    have hnext : (s.advance cfg.pcmFrames).firstBlock = s.block + 1 := by
      rw [firstBlock, advance, haccum]
      rfl
    rw [Filling.skip, if_pos hheld]
    constructor
    · apply h.held_eq
    · apply h.frames_eq
    · apply htimestamp
    · rw [hnext]
      apply Nat.le_refl
    · use block, hts, hstart
      rw [hnext]
      constructor
      · omega
      · constructor
        · nofun
        · omega
  · obtain ⟨first, rest, haccum⟩ :=
      List.exists_cons_of_ne_nil (fun hnil => hheld ((accum_eq_nil_iff h).mp hnil))
    have hnext : (s.advance cfg.pcmFrames).firstBlock = s.firstBlock := by
      rw [firstBlock, firstBlock, advance, haccum]
      rfl
    rw [Filling.skip, if_neg hheld]
    constructor
    · apply h.held_eq
    · apply h.frames_eq
    · apply htimestamp
    · rw [hnext]
      apply h.first_le.trans (Nat.le_succ _)
    · use block, hts, hstart
      rw [hnext]
      exact ⟨hle, hlate⟩

/-- Behind a block with an output, which is put into the packet unless it is lost. -/
theorem Follows.put (h : s.Follows cfg start f) (r : EncodeResult program) :
  ((s.accumulate r).advance cfg.pcmFrames).Follows cfg start (f.put r)
  := by
  by_cases hroom : s.accumSize + r.size ≤ accumCapacity
  · obtain ⟨block, hts, hstart, hle, hlate⟩ := h.noted
    have hnext : ((s.accumulate r).advance cfg.pcmFrames).firstBlock = s.firstBlock := by
      rw [firstBlock, firstBlock, advance, accumulate, if_pos hroom]
      cases s.accum with
      | nil => rfl
      | cons first rest => rfl
    rw [accumSize_eq h] at hroom
    rw [Filling.put, if_pos hroom]
    rw [← accumSize_eq h] at hroom
    constructor
    · change (s.accumulate r).held = _
      rw [held_accumulate hroom, h.held_eq]
    · rw [accumulate, if_pos hroom, Filling.frames, List.map_append, List.sum_append,
        ← Filling.frames, ← h.frames_eq]
      simp [advance]
    · rw [accumulate, if_pos hroom]
      change s.timestamp + cfg.pcmFrames = cfg.position (s.block + 1)
      rw [cfg.position_succ, h.timestamp_eq]
    · rw [hnext, accumulate, if_pos hroom]
      apply h.first_le.trans (Nat.le_succ _)
    · use block
      rw [hnext, accumulate, if_pos hroom]
      exact ⟨hts, hstart, hle, hlate⟩
  · rw [accumulate_of_lost hroom]
    rw [accumSize_eq h] at hroom
    rw [Filling.put, if_neg hroom]
    apply h.skip

theorem full_eq_sends (h : s.Follows cfg start f) (hr : r.productive) :
  s.full limit r.size = f.sends limit r
  := by
  rw [full, Filling.sends, hr, Bool.true_and, accumSize_eq h, h.frames_eq]

theorem Follows.encode (h : s.Follows cfg start f) (hstart : start ≤ s.block) :
  (s.encode cfg.pcmFrames limit r).Follows cfg start (f.next limit r)
  := by
  rw [Packetizer.encode, answer, Filling.next]
  split
  · next hr =>
      rw [ready, full_eq_sends h hr]
      split
      · apply (h.flush hstart).put
      · apply h.put
  · apply h.skip

theorem block_encode (s : Packetizer program) (pcmFrames : UInt32) (limit : ℕ)
    (r : EncodeResult program) :
  (s.encode pcmFrames limit r).block = s.block + 1
  := by
  have hanswer : (s.answer limit r).block = s.block := by
    rw [answer]
    split
    · rw [accumulate]
      split
      · apply block_ready
      · apply block_ready
    · rfl
  rw [encode, advance, hanswer]

/-- A packet is sent on time exactly when it does not begin late. -/
theorem Follows.onTime_iff (h : s.Follows cfg start f) (hframes : f.frames > 0)
    (hcounted : (s.block - start) * cfg.pcmFrames.toNat < 2 ^ 32) :
  s.call.OnTime cfg ↔ f.late = false
  := by
  obtain ⟨block, hts, hstart, hle, hlate⟩ := h.noted
  have hheld : f.held ≠ [] := by
    intro hnil
    rw [Filling.frames, hnil] at hframes
    contradiction
  obtain ⟨first, rest, haccum⟩ :=
    List.exists_cons_of_ne_nil (fun hnil => hheld ((accum_eq_nil_iff h).mp hnil))
  have hfirst : s.firstBlock = first.block := by rw [firstBlock, haccum]; rfl
  have hcall : s.call.firstBlock = some first.block := by
    rw [MediaCall.firstBlock, call, haccum]
    rfl
  have hlast := h.first_le
  have hinj : cfg.position block = cfg.position first.block ↔ block = first.block := by
    apply PacketConfig.position_inj (hfirst ▸ hle)
    apply lt_of_le_of_lt _ hcounted
    apply Nat.mul_le_mul_right
    omega
  rw [hlate, hfirst, ← hinj, ← hts]
  constructor
  · rintro ⟨b, hb, htime⟩
    rw [hcall] at hb
    obtain rfl := Option.some.inj hb
    apply htime
  · intro htime
    exact ⟨first.block, hcall, htime⟩

/-- The packets that are sent from here on are on time exactly when none of them begins late. -/
theorem Follows.forall_onTime_iff {rs : List (EncodeResult program)} (h : s.Follows cfg start f)
    (hstart : start ≤ s.block)
    (hcounted : (s.block - start + rs.length) * cfg.pcmFrames.toNat < 2 ^ 32) :
  (∀ call ∈ (s.encodeAll cfg.pcmFrames limit rs).finish.sent, call.OnTime cfg)
    ↔ (∀ call ∈ s.sent, call.OnTime cfg) ∧ f.Punctual limit rs
  := by
  induction rs generalizing s f with
  | nil =>
      rw [encodeAll, List.foldl_nil, finish, Filling.Punctual, h.frames_eq]
      split
      · next hframes =>
          rw [sendMedia, List.forall_mem_append, List.forall_mem_singleton,
            h.onTime_iff hframes hcounted]
          simp [hframes]
      · next hframes => simp [hframes]
  | cons r rs ih =>
      have hnow : (s.block - start) * cfg.pcmFrames.toNat < 2 ^ 32 := by
        apply lt_of_le_of_lt _ hcounted
        apply Nat.mul_le_mul_right
        omega
      have hsent : (∀ call ∈ (s.encode cfg.pcmFrames limit r).sent, call.OnTime cfg)
          ↔ (∀ call ∈ s.sent, call.OnTime cfg) ∧ (f.sends limit r → f.late = false) := by
        by_cases hr : r.productive
        · rw [sent_encode_of_productive hr, ready, full_eq_sends h hr]
          split
          · next hsends =>
              have hframes : f.frames > 0 := by simp_all [Filling.sends]
              rw [Packetizer.flush, sendMedia, List.forall_mem_append, List.forall_mem_singleton,
                h.onTime_iff hframes hnow]
              simp [hsends]
          · next hsends => simp [hsends]
        · have hsends : f.sends limit r = false := by simp [Filling.sends, hr]
          rw [hsends, Packetizer.encode, answer, if_neg hr]
          simp [advance]
      rw [encodeAll_cons, ih (h.encode hstart), hsent, Filling.Punctual, and_assoc]
      · rw [block_encode]
        omega
      · rw [block_encode]
        rw [List.length_cons] at hcounted
        apply lt_of_le_of_lt _ hcounted
        apply Nat.mul_le_mul_right
        omega

end Packetizer

/-! ### The order of the blocks -/

/-- The pieces are in the order of their blocks, which are those from `lo` on and before
`hi`. -/
structure Ordered (lo hi : ℕ) (pieces : List (BlockOutput program)) : Prop where
  le : lo ≤ hi
  pairwise : pieces.Pairwise (fun a b => a.block < b.block)
  from_lo : ∀ piece ∈ pieces, lo ≤ piece.block
  before_hi : ∀ piece ∈ pieces, piece.block < hi

namespace Ordered

variable {lo mid hi : ℕ} {xs ys : List (BlockOutput program)}

theorem nil (n : ℕ) :
  Ordered n n ([] : List (BlockOutput program))
  where
  le := Nat.le_refl n
  pairwise := List.Pairwise.nil
  from_lo := nofun
  before_hi := nofun

theorem append (hxs : Ordered lo mid xs) (hys : Ordered mid hi ys) :
  Ordered lo hi (xs ++ ys)
  where
  le := hxs.le.trans hys.le
  pairwise := by
    apply List.pairwise_append.mpr ⟨hxs.pairwise, hys.pairwise, _⟩
    intro x hx y hy
    apply (hxs.before_hi x hx).trans_le (hys.from_lo y hy)
  from_lo := by
    rw [List.forall_mem_append]
    constructor
    · apply hxs.from_lo
    · intro y hy
      apply hxs.le.trans (hys.from_lo y hy)
  before_hi := by
    rw [List.forall_mem_append]
    constructor
    · intro x hx
      apply (hxs.before_hi x hx).trans_le hys.le
    · apply hys.before_hi

theorem singleton (n : ℕ) (r : EncodeResult program) :
  Ordered n (n + 1) [⟨n, r⟩]
  where
  le := Nat.le_succ n
  pairwise := List.pairwise_singleton _ _
  from_lo := by simp
  before_hi := by simp

theorem succ (h : Ordered lo hi xs) :
  Ordered lo (hi + 1) xs
  where
  le := h.le.trans (Nat.le_succ _)
  pairwise := h.pairwise
  from_lo := h.from_lo
  before_hi piece hpiece := (h.before_hi piece hpiece).trans (Nat.lt_succ_self _)

theorem sublist (h : Ordered lo hi xs) (hsub : ys.Sublist xs) :
  Ordered lo hi ys
  where
  le := h.le
  pairwise := h.pairwise.sublist hsub
  from_lo piece hpiece := h.from_lo piece (hsub.mem hpiece)
  before_hi piece hpiece := h.before_hi piece (hsub.mem hpiece)

/-- The first blocks of ordered packets increase. -/
theorem firstBlock_lt {calls : List (MediaCall program)}
    (h : Ordered lo hi (calls.flatMap MediaCall.pieces)) :
  calls.Pairwise (fun call next => ∀ block later, call.firstBlock = some block →
    next.firstBlock = some later → block < later)
  := by
  obtain ⟨-, hcalls⟩ := List.pairwise_flatMap.mp h.pairwise
  apply hcalls.imp
  intro call next hlt block later hblock hlater
  obtain ⟨first, hfirst, rfl⟩ := Option.map_eq_some_iff.mp hblock
  obtain ⟨second, hsecond, rfl⟩ := Option.map_eq_some_iff.mp hlater
  apply hlt first (List.mem_of_mem_head? hfirst) second (List.mem_of_mem_head? hsecond)

end Ordered

namespace Packetizer

theorem ordered_encode {s : Packetizer program} {start limit : ℕ} {pcmFrames : UInt32}
    {r : EncodeResult program} (h : Ordered start s.block s.pieces) :
  Ordered start (s.encode pcmFrames limit r).block (s.encode pcmFrames limit r).pieces
  := by
  rw [block_encode]
  obtain hkept | hlost := s.pieces_encode pcmFrames limit r
  · rw [hkept]
    apply h.append (Ordered.singleton _ _)
  · rw [hlost]
    apply h.succ

theorem timestamp_encode {s : Packetizer program} {limit : ℕ} {r : EncodeResult program}
    (h : s.timestamp = cfg.position s.block) :
  (s.encode cfg.pcmFrames limit r).timestamp
    = cfg.position (s.encode cfg.pcmFrames limit r).block
  := by
  have hanswer : (s.answer limit r).timestamp = s.timestamp := by
    rw [answer, accumulate, ready]
    split
    · split
      · split
        · rfl
        · rfl
      · split
        · rfl
        · rfl
    · rfl
  rw [block_encode, cfg.position_succ, ← h, ← hanswer]
  rfl

/-- Behind the blocks of a chunk the counter is the position of the next block, and the
packets have got the outputs in their order. -/
theorem ordered_encodeAll {s : Packetizer program} {start : ℕ} (limit : ℕ)
    (rs : List (EncodeResult program)) (hts : s.timestamp = cfg.position s.block)
    (hordered : Ordered start s.block s.pieces) :
  (s.encodeAll cfg.pcmFrames limit rs).timestamp
      = cfg.position (s.encodeAll cfg.pcmFrames limit rs).block
    ∧ Ordered start (s.encodeAll cfg.pcmFrames limit rs).block
        (s.encodeAll cfg.pcmFrames limit rs).pieces
  := by
  induction rs generalizing s with
  | nil => exact ⟨hts, hordered⟩
  | cons r rs ih => apply ih (timestamp_encode hts) (ordered_encode hordered)

theorem finish_counters (s : Packetizer program) :
  s.finish.timestamp = s.timestamp ∧ s.finish.block = s.block
  := by
  rw [finish]
  split
  · exact ⟨rfl, rfl⟩
  · exact ⟨rfl, rfl⟩

theorem ordered_chunk {s : Packetizer program} (hts : s.timestamp = cfg.position s.block)
    (c : Chunk program cfg) :
  (s.chunk cfg.codec cfg.pcmFrames c.mtu c.results).timestamp
      = cfg.position (s.chunk cfg.codec cfg.pcmFrames c.mtu c.results).block
    ∧ Ordered s.block (s.chunk cfg.codec cfg.pcmFrames c.mtu c.results).block
        ((s.chunk cfg.codec cfg.pcmFrames c.mtu c.results).sent.flatMap MediaCall.pieces)
  := by
  have hrestart : s.restart.timestamp = cfg.position s.restart.block := hts
  obtain ⟨htime, hordered⟩ := ordered_encodeAll (maxRaw cfg.codec c.mtu) c.results
    hrestart (Ordered.nil s.block)
  rw [chunk, (finish_counters _).1, (finish_counters _).2]
  constructor
  · apply htime
  · apply hordered.sublist (pieces_finish _).sublist

/-- The packets of a chunk are on time exactly when none of them begins late. -/
theorem chunk_onTime_iff {s : Packetizer program} (hts : s.timestamp = cfg.position s.block)
    (c : Chunk program cfg) :
  (∀ call ∈ (s.chunk cfg.codec cfg.pcmFrames c.mtu c.results).sent, call.OnTime cfg) ↔ c.Punctual
  := by
  have hrestart : s.restart.Follows cfg s.block {} := by
    constructor
    · rfl
    · rfl
    · apply hts
    · apply Nat.le_refl
    · use s.block, hts
      simp [firstBlock, restart]
  have hcounted : (s.restart.block - s.block + c.results.length) * cfg.pcmFrames.toNat
      < 2 ^ 32 := by
    change (s.block - s.block + _) * _ < _
    rw [Nat.sub_self, Nat.zero_add]
    apply c.counted
  rw [chunk, hrestart.forall_onTime_iff (Nat.le_refl _) hcounted, Chunk.Punctual]
  simp [restart]

end Packetizer

namespace MediaStream

/-- Between two chunks the counter is the position of the next block, and the packets have the
blocks in their order. -/
structure Between (cfg : PacketConfig) (s : MediaStream program) : Prop where
  timestamp_eq : s.packetizer.timestamp = cfg.position s.packetizer.block
  ordered : Ordered 0 s.packetizer.block (s.calls.flatMap MediaCall.pieces)

theorem start_between (cfg : PacketConfig) :
  Between cfg ({} : MediaStream program)
  where
  timestamp_eq := by
    rw [PacketConfig.position]
    rfl
  ordered := Ordered.nil 0

theorem Between.chunk {s : MediaStream program} (h : s.Between cfg) (c : Chunk program cfg) :
  (s.chunk cfg c).Between cfg
  := by
  obtain ⟨htime, hordered⟩ := Packetizer.ordered_chunk h.timestamp_eq c
  constructor
  · apply htime
  · rw [MediaStream.chunk, List.flatMap_append]
    apply h.ordered.append hordered

theorem between_run (cfg : PacketConfig) (chunks : List (Chunk program cfg)) :
  (run cfg chunks).Between cfg
  := by
  have h (s : MediaStream program) (hs : s.Between cfg) :
      (chunks.foldl (MediaStream.chunk cfg) s).Between cfg := by
    induction chunks generalizing s with
    | nil => apply hs
    | cons c chunks ih => apply ih _ (hs.chunk c)
  apply h _ (start_between cfg)

theorem onTime_run_iff (cfg : PacketConfig) (chunks : List (Chunk program cfg)) :
  (∀ call ∈ (run cfg chunks).calls, call.OnTime cfg) ↔ ∀ c ∈ chunks, c.Punctual
  := by
  have h (s : MediaStream program) (hs : s.Between cfg) :
      (∀ call ∈ (chunks.foldl (MediaStream.chunk cfg) s).calls, call.OnTime cfg)
        ↔ (∀ call ∈ s.calls, call.OnTime cfg) ∧ ∀ c ∈ chunks, c.Punctual := by
    induction chunks generalizing s with
    | nil => simp
    | cons c chunks ih =>
        rw [List.foldl_cons, ih _ (hs.chunk c), MediaStream.chunk, List.forall_mem_append,
          Packetizer.chunk_onTime_iff hs.timestamp_eq, List.forall_mem_cons, and_assoc]
  rw [run, h _ (start_between cfg)]
  simp

end MediaStream

/-- Packets on time advance with their blocks. -/
theorem timed_of_onTime {calls : List (MediaCall program)} {n : ℕ}
    (hordered : Ordered 0 n (calls.flatMap MediaCall.pieces))
    (h : ∀ call ∈ calls, call.OnTime cfg) :
  Timed cfg calls
  := by
  constructor
  · apply h
  · apply List.Pairwise.isChain
    apply hordered.firstBlock_lt.imp_of_mem
    intro call next hcall hnext hlt block later hblock hlater
    have hless := hlt block later hblock hlater
    obtain ⟨b, hb, htime⟩ := h call hcall
    obtain ⟨l, hl, hlate⟩ := h next hnext
    rw [hblock] at hb
    rw [hlater] at hl
    obtain rfl := Option.some.inj hb
    obtain rfl := Option.some.inj hl
    constructor
    · apply hless
    · rw [hlate, htime, ← cfg.position_add, Nat.add_sub_cancel' hless.le]

/-! ### Chunks with ordinary outputs -/

/-- The outputs go into the packet buffer, each has a frame, and the frames of the chunk do not
overflow their counter. -/
structure Ordinary (rs : List (EncodeResult program)) : Prop where
  size_le : ∀ r ∈ rs, r.productive → r.size ≤ accumCapacity
  frames_pos : ∀ r ∈ rs, r.productive → 1 ≤ r.frames.toNat
  counted : total (fun r : EncodeResult program => r.frames.toNat) rs < 2 ^ 32

theorem Ordinary.tail {r : EncodeResult program} {rs : List (EncodeResult program)}
    (h : Ordinary (r :: rs)) :
  Ordinary rs
  where
  size_le := (List.forall_mem_cons.mp h.size_le).2
  frames_pos := (List.forall_mem_cons.mp h.frames_pos).2
  counted := lt_of_le_of_lt (total_le_of_sublist _ (List.sublist_cons_self r rs)) h.counted

namespace Filling

variable {f : Filling program} {r : EncodeResult program} {limit : ℕ}
  {rs : List (EncodeResult program)}

theorem skip_of_begun (h : f.held ≠ []) :
  f.skip = f
  := if_neg h

theorem held_put_ne (h : f.held ≠ []) (r : EncodeResult program) :
  (f.put r).held ≠ []
  := by
  rw [put]
  split
  · simp
  · rw [skip_of_begun h]
    apply h

theorem late_put (h : f.held ≠ []) (r : EncodeResult program) :
  (f.put r).late = f.late
  := by
  rw [put]
  split
  · rfl
  · rw [skip_of_begun h]

theorem put_empty (late : Bool) (h : r.size ≤ accumCapacity) :
  put ⟨[], late⟩ r = ⟨[r], late⟩
  := if_pos ((Nat.zero_add _).le.trans h)

/-- A packet that begins in time stays so, and so do the packets behind it. -/
theorem punctual_of_begun (hheld : f.held ≠ []) (htime : f.late = false)
    (hsize : ∀ r ∈ rs, r.productive → r.size ≤ accumCapacity) :
  f.Punctual limit rs
  := by
  induction rs generalizing f with
  | nil => exact fun _ => htime
  | cons r rs ih =>
      obtain ⟨hr, hrest⟩ := List.forall_mem_cons.mp hsize
      refine ⟨fun _ => htime, ?_⟩
      rw [next]
      split
      · next hproductive =>
          split
          · rw [put_empty false (hr hproductive)]
            apply ih (List.cons_ne_nil _ _) rfl hrest
          · apply ih (held_put_ne hheld r) _ hrest
            rw [late_put hheld, htime]
      · rw [skip_of_begun hheld]
        apply ih hheld htime hrest

/-- The frames of the packet have not overflowed. -/
theorem frames_pos (hheld : f.held ≠ []) (hpos : ∀ r ∈ f.held, 1 ≤ r.frames.toNat)
    (hcounted : total (fun r : EncodeResult program => r.frames.toNat) f.held < 2 ^ 32) :
  f.frames > 0
  := by
  have hsum : f.frames.toNat = total (fun r => r.frames.toNat) f.held := by
    rw [frames, toNat_sum, List.map_map]
    · rfl
    · rw [List.map_map]
      apply hcounted
  obtain ⟨r, rest, heq⟩ := List.exists_cons_of_ne_nil hheld
  have hr := hpos r (by simp [heq])
  change 0 < f.frames.toNat
  rw [hsum, heq, total, List.map_cons, List.sum_cons]
  omega

/-- A packet that begins late is sent at some time. -/
theorem not_punctual_of_begun (hheld : f.held ≠ []) (hlate : f.late = true)
    (hpos : ∀ r ∈ f.held, 1 ≤ r.frames.toNat)
    (hrs : ∀ r ∈ rs, r.productive → 1 ≤ r.frames.toNat)
    (hcounted : total (fun r : EncodeResult program => r.frames.toNat) (f.held ++ rs) < 2 ^ 32) :
  ¬ f.Punctual limit rs
  := by
  induction rs generalizing f with
  | nil =>
      rw [List.append_nil] at hcounted
      intro h
      rw [h (frames_pos hheld hpos hcounted)] at hlate
      contradiction
  | cons r rs ih =>
      obtain ⟨hr, hrest⟩ := List.forall_mem_cons.mp hrs
      have hskip : total (fun r : EncodeResult program => r.frames.toNat) (f.held ++ rs)
          < 2 ^ 32 := by
        apply lt_of_le_of_lt (total_le_of_sublist _ _) hcounted
        simp
      rintro ⟨hsends, hnext⟩
      rw [next] at hnext
      split at hnext
      · next hproductive =>
          split at hnext
          · next hsent =>
              rw [hsends hsent] at hlate
              contradiction
          · rw [put] at hnext
            split at hnext
            · revert hnext
              apply ih
              · apply List.append_ne_nil_of_right_ne_nil _ (List.cons_ne_nil _ _)
              · apply hlate
              · rw [List.forall_mem_append, List.forall_mem_singleton]
                exact ⟨hpos, hr hproductive⟩
              · apply hrest
              · rw [List.append_assoc, List.singleton_append]
                apply hcounted
            · rw [skip_of_begun hheld] at hnext
              apply ih hheld hlate hpos hrest hskip hnext
      · rw [skip_of_begun hheld] at hnext
        apply ih hheld hlate hpos hrest hskip hnext

/-- Behind a block without output the packet must stay empty. -/
theorem punctual_late_iff (h : Ordinary rs) :
  Punctual limit ⟨[], true⟩ rs ↔ ∀ r ∈ rs, ¬ r.productive
  := by
  induction rs with
  | nil => simp [Punctual, frames]
  | cons r rs ih =>
      have hsends : sends limit ⟨[], true⟩ r = false := by simp [sends, frames]
      rw [Punctual, hsends, next, hsends, List.forall_mem_cons]
      by_cases hr : r.productive
      · rw [if_pos hr, if_neg (by nofun), put_empty true (h.size_le r List.mem_cons_self hr)]
        have hlate : ¬ Punctual limit ⟨[r], true⟩ rs := by
          apply not_punctual_of_begun
          · apply List.cons_ne_nil
          · rfl
          · rw [List.forall_mem_singleton]
            apply h.frames_pos r List.mem_cons_self hr
          · apply h.tail.frames_pos
          · apply h.counted
        simp [hlate, hr]
      · rw [if_neg hr, skip, if_pos rfl, ih h.tail]
        simp [hr]

end Filling

/-- A chunk of ordinary outputs is punctual when its first block has one, or none has. -/
theorem Chunk.punctual_iff (c : Chunk program cfg) (h : Ordinary c.results) :
  c.Punctual ↔ (∀ r ∈ c.results.head?, r.productive) ∨ ∀ r ∈ c.results, ¬ r.productive
  := by
  rw [Punctual]
  cases hresults : c.results with
  | nil => simp [Filling.Punctual, Filling.frames]
  | cons r rs =>
      rw [hresults] at h
      have hsends : Filling.sends (maxRaw cfg.codec c.mtu) {} r = false := by
        simp [Filling.sends, Filling.frames]
      rw [Filling.Punctual, hsends, Filling.next, hsends]
      by_cases hr : r.productive
      · rw [if_pos hr, if_neg (by nofun),
          Filling.put_empty false (h.size_le r List.mem_cons_self hr)]
        have hbegun : Filling.Punctual (maxRaw cfg.codec c.mtu) ⟨[r], false⟩ rs := by
          apply Filling.punctual_of_begun (List.cons_ne_nil _ _) rfl
          apply h.tail.size_le
        simp [hbegun, hr]
      · rw [if_neg hr, Filling.skip, if_pos rfl, Filling.punctual_late_iff h.tail]
        simp [hr]

/-- For every sequence of chunks, the packets have the timestamps of their first blocks, and
advance with them, exactly when in no chunk a packet begins behind a block without output. -/
theorem timed_iff (program : Program) (cfg : PacketConfig) (chunks : List (Chunk program cfg)) :
  Timed cfg (MediaStream.run cfg chunks).calls ↔ ∀ c ∈ chunks, c.Punctual
  := by
  rw [← MediaStream.onTime_run_iff cfg chunks]
  constructor
  · apply Timed.onTime
  · apply timed_of_onTime (MediaStream.between_run cfg chunks).ordered

/-- A chunk of two blocks, of which the encoder fails on the first. -/
def firstFails : Chunk .cli ⟨.ssc, 480, by decide⟩ where
  mtu := 679
  results := [⟨false, [], 0, by decide⟩, ⟨true, [1, 2, 3], 1, by decide⟩]
  counted := by decide

/-- The packet with the second block has the timestamp of the first. -/
theorem not_timed_firstFails :
  ¬ Timed ⟨.ssc, 480, by decide⟩ (MediaStream.run _ [firstFails]).calls
  := by
  intro h
  obtain ⟨block, hblock, htime⟩ := h.onTime _ List.mem_cons_self
  obtain rfl : block = 1 := by
    apply Option.some.inj
    rw [← hblock]
    rfl
  revert htime
  decide

end Ssc
