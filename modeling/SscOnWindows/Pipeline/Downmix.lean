import SscOnWindows.Pipeline.Chunking

/-!
# The downmix of the two programs

From a capture of 16-bit integers with more than two channels the service keeps the front
channels, and the CLI mixes the others into them.  The two make the same PCM of a capture
exactly when in none of its frames the mix moves a front sample: what is mixed in adds up to
nothing, or it pushes a sample beyond the limit it is at.
-/

namespace Ssc

open Blocks ByteStream

/-- A sample of a frame of 16-bit integers, which are scaled by `unit`. -/
def sampleAt (unit : Int) (frame : List UInt8) (i : ℕ) : Int :=
  (((blocks 2 frame)[i]?).map fun sample => signed16 (ofLe sample) * unit).getD 0

/-- What `audio_callback` mixes into a front channel. -/
def mixedIn (unit : Int) (frame : List UInt8) (back side : ℕ) : Int :=
  (sampleAt unit frame 2 * 707).tdiv 1000
    + ((sampleAt unit frame back + sampleAt unit frame side) * 707).tdiv 1000
    + (sampleAt unit frame 3 * 500).tdiv 1000

/-- The mix leaves the front sample as it is. -/
def Unmoved (unit limit : Int) (frame : List UInt8) (front back side : ℕ) : Prop :=
  mixedIn unit frame back side = 0
    ∨ 0 < mixedIn unit frame back side ∧ sampleAt unit frame front = limit - 1
    ∨ mixedIn unit frame back side < 0 ∧ sampleAt unit frame front = -limit

instance (unit limit : Int) (frame : List UInt8) (front back side : ℕ) :
    Decidable (Unmoved unit limit frame front back side) :=
  inferInstanceAs (Decidable (_ ∨ _ ∨ _))

/-- What the samples are scaled by. -/
def ChunkConfig.sampleUnit (cfg : ChunkConfig) : Int :=
  if cfg.bytesPerSample = 4 then 2 ^ 16 else 1

/-- The samples are below this limit. -/
def ChunkConfig.sampleLimit (cfg : ChunkConfig) : Int :=
  if cfg.bytesPerSample = 4 then 2 ^ 31 else 2 ^ 15

/-- The mix leaves both front samples as they are. -/
def FrameUnmoved (cfg : ChunkConfig) (frame : List UInt8) : Prop :=
  Unmoved cfg.sampleUnit cfg.sampleLimit frame 0 4 6
    ∧ Unmoved cfg.sampleUnit cfg.sampleLimit frame 1 5 7

instance (cfg : ChunkConfig) (frame : List UInt8) : Decidable (FrameUnmoved cfg frame) :=
  inferInstanceAs (Decidable (_ ∧ _))

/-! ### Samples -/

/-- A level that is cut off at both ends. -/
def clampLevel (limit level : Int) : Int :=
  let level := if level > limit - 1 then limit - 1 else level
  if level < -limit then -limit else level

theorem mixSide_eq (unit limit : Int) (frame : List UInt8) (front back side : ℕ) :
  mixSide unit limit frame front back side
    = clampLevel limit (sampleAt unit frame front + mixedIn unit frame back side)
  := by
  rw [mixedIn, ← add_assoc, ← add_assoc]
  rfl

/-- A front sample that is in its range stays so exactly when the mix does not move it. -/
theorem mixSide_eq_iff {unit limit : Int} {frame : List UInt8} {front : ℕ} (back side : ℕ)
    (hlo : -limit ≤ sampleAt unit frame front) (hhi : sampleAt unit frame front < limit) :
  mixSide unit limit frame front back side = sampleAt unit frame front
    ↔ Unmoved unit limit frame front back side
  := by
  rw [mixSide_eq, Unmoved, clampLevel]
  grind

/-- The mix stays in the range of a sample. -/
theorem mixSide_mem {limit : Int} (hlimit : 0 < limit) (unit : Int) (frame : List UInt8)
    (front back side : ℕ) :
  -limit ≤ mixSide unit limit frame front back side
    ∧ mixSide unit limit frame front back side < limit
  := by
  rw [mixSide_eq, clampLevel]
  grind

theorem ofLe_lt {sample : List UInt8} (h : sample.length = 2) :
  ofLe sample < 2 ^ 16
  := by
  obtain ⟨low, high, rfl⟩ := List.length_eq_two.mp h
  have hlow := low.toNat_lt
  have hhigh := high.toNat_lt
  rw [ofLe, ofLe, ofLe]
  omega

theorem le16_ofLe {sample : List UInt8} (h : sample.length = 2) :
  le16 (ofLe sample) = sample
  := by
  obtain ⟨low, high, rfl⟩ := List.length_eq_two.mp h
  have hlow := low.toNat_lt
  have hhigh := high.toNat_lt
  rw [ofLe, ofLe, ofLe, le16]
  congr 1
  · apply UInt8.toNat_inj.mp
    rw [UInt8.toNat_ofNat']
    omega
  · congr 1
    apply UInt8.toNat_inj.mp
    rw [UInt8.toNat_ofNat']
    omega

theorem ofLe_le16 (n : ℕ) :
  ofLe (le16 n) = n % 2 ^ 16
  := by
  simp only [le16, ofLe, UInt8.toNat_ofNat']
  omega

/-- The two bytes of an integer are those of the sample with its value. -/
theorem le16_eq_iff {level : Int} (hlo : -2 ^ 15 ≤ level) (hhi : level < 2 ^ 15)
    {sample : List UInt8} (h : sample.length = 2) :
  le16 (level % 2 ^ 16).toNat = sample ↔ level = signed16 (ofLe sample)
  := by
  have hlt := ofLe_lt h
  constructor
  · rintro rfl
    rw [ofLe_le16, signed16]
    split <;> omega
  · intro hlevel
    have hnat : (level % 2 ^ 16).toNat = ofLe sample := by
      rw [hlevel, signed16]
      split <;> omega
    rw [hnat, le16_ofLe h]

/-- The four bytes of an integer are those of a sample in the upper half. -/
theorem le32_eq_iff {level : Int} (hlo : -2 ^ 31 ≤ level) (hhi : level < 2 ^ 31)
    {sample : List UInt8} (h : sample.length = 2) :
  le32 (level % 2 ^ 32).toNat = i16ToI32 sample
    ↔ level = signed16 (ofLe sample) * 2 ^ 16
  := by
  have hlt := ofLe_lt h
  rw [i16ToI32]
  constructor
  · intro heq
    have hvalue := congrArg (fun bytes => signed32 (ofLe bytes)) heq
    rw [signed32_ofLe_le32 hlo hhi, ofLe_le32, signed32] at hvalue
    rw [hvalue, signed16]
    split <;> split <;> omega
  · intro hlevel
    have hnat : (level % 2 ^ 32).toNat = ofLe sample * 2 ^ 16 := by
      rw [hlevel, signed16]
      split <;> omega
    rw [hnat]

/-! ### Frames -/

theorem signed16_mem {sample : List UInt8} (h : sample.length = 2) :
  -2 ^ 15 ≤ signed16 (ofLe sample) ∧ signed16 (ofLe sample) < 2 ^ 15
  := by
  have hlt := ofLe_lt h
  rw [signed16]
  split <;> omega

/-- A frame of at least two channels begins with its front samples. -/
theorem exists_front {frame : List UInt8} (h : 4 ≤ frame.length) :
  ∃ left right rest, blocks 2 frame = left :: right :: rest
    ∧ left.length = 2 ∧ right.length = 2 ∧ frame.take 4 = left ++ right
  := by
  have hrest : 2 ≤ (frame.drop 2).length := by
    rw [List.length_drop]
    omega
  refine ⟨frame.take 2, (frame.drop 2).take 2, blocks 2 ((frame.drop 2).drop 2), ?_, ?_, ?_, ?_⟩
  · rw [blocks_of_le (by decide) (by omega), blocks_of_le (by decide) hrest]
  · apply List.length_take_of_le
    omega
  · apply List.length_take_of_le hrest
  · exact List.take_add (i := 2) (j := 2)

/-- The mix of 16-bit samples is the front samples when it moves neither. -/
theorem mixI16_eq_iff {frame : List UInt8} (h : 4 ≤ frame.length) :
  frame.take 4 = mixI16 frame
    ↔ Unmoved 1 (2 ^ 15) frame 0 4 6 ∧ Unmoved 1 (2 ^ 15) frame 1 5 7
  := by
  obtain ⟨left, right, rest, hblocks, hleft, hright, htake⟩ := exists_front h
  have hsample (i : ℕ) (sample : List UInt8) (hi : (blocks 2 frame)[i]? = some sample) :
      sampleAt 1 frame i = signed16 (ofLe sample) := by
    rw [sampleAt, hi, Option.map_some, Option.getD_some, Int.mul_one]
  have hfirst := hsample 0 left (by rw [hblocks]; rfl)
  have hsecond := hsample 1 right (by rw [hblocks]; rfl)
  have hmove (front back side : ℕ) (sample : List UInt8) (hlength : sample.length = 2)
      (heq : sampleAt 1 frame front = signed16 (ofLe sample)) :
      le16 (mixSide 1 (2 ^ 15) frame front back side % 2 ^ 16).toNat = sample
        ↔ Unmoved 1 (2 ^ 15) frame front back side := by
    obtain ⟨hlo, hhi⟩ := mixSide_mem (by decide : (0 : Int) < 2 ^ 15) 1 frame front back side
    obtain ⟨hmin, hmax⟩ := signed16_mem hlength
    rw [le16_eq_iff hlo hhi hlength, ← heq]
    rw [← heq] at hmin hmax
    apply mixSide_eq_iff back side hmin hmax
  rw [htake, eq_comm, mixI16, ← hmove 0 4 6 left hleft hfirst, ← hmove 1 5 7 right hright hsecond]
  constructor
  · intro heq
    apply List.append_inj heq
    rw [hleft]
    rfl
  · rintro ⟨hl, hr⟩
    rw [hl, hr]

/-- The mix of 32-bit samples is the front samples when it moves neither. -/
theorem mixI32_eq_iff {frame : List UInt8} (h : 4 ≤ frame.length) :
  (mapBlocks 2 i16ToI32 frame).take 8 = mixI32 frame
    ↔ Unmoved (2 ^ 16) (2 ^ 31) frame 0 4 6 ∧ Unmoved (2 ^ 16) (2 ^ 31) frame 1 5 7
  := by
  obtain ⟨left, right, rest, hblocks, hleft, hright, -⟩ := exists_front h
  have htake : (mapBlocks 2 i16ToI32 frame).take 8 = i16ToI32 left ++ i16ToI32 right := by
    rw [mapBlocks, hblocks, List.flatMap_cons, List.flatMap_cons, ← List.append_assoc]
    exact List.take_left' (by rfl)
  have hsample (i : ℕ) (sample : List UInt8) (hi : (blocks 2 frame)[i]? = some sample) :
      sampleAt (2 ^ 16) frame i = signed16 (ofLe sample) * 2 ^ 16 := by
    rw [sampleAt, hi, Option.map_some, Option.getD_some]
  have hfirst := hsample 0 left (by rw [hblocks]; rfl)
  have hsecond := hsample 1 right (by rw [hblocks]; rfl)
  have hmove (front back side : ℕ) (sample : List UInt8) (hlength : sample.length = 2)
      (heq : sampleAt (2 ^ 16) frame front = signed16 (ofLe sample) * 2 ^ 16) :
      le32 (mixSide (2 ^ 16) (2 ^ 31) frame front back side % 2 ^ 32).toNat = i16ToI32 sample
        ↔ Unmoved (2 ^ 16) (2 ^ 31) frame front back side := by
    obtain ⟨hlo, hhi⟩ := mixSide_mem (by decide : (0 : Int) < 2 ^ 31) (2 ^ 16) frame front
      back side
    obtain ⟨hmin, hmax⟩ := signed16_mem hlength
    rw [le32_eq_iff hlo hhi hlength, ← heq]
    apply mixSide_eq_iff back side
    · omega
    · omega
  rw [htake, eq_comm, mixI32, ← hmove 0 4 6 left hleft hfirst, ← hmove 1 5 7 right hright hsecond]
  constructor
  · intro heq
    apply List.append_inj heq
    rw [length_le32, i16ToI32, length_le32]
  · rintro ⟨hl, hr⟩
    rw [hl, hr]

/-! ### The two programs -/

namespace ChunkConfig

variable {cfg : ChunkConfig}

/-- Without channels to mix in, integers are taken as they are, or widened. -/
theorem pcm_eq_of_channels_le (h16 : cfg.bitsPerSample = 16) (h : cfg.channels ≤ 2)
    (bytes : List UInt8) :
  cfg.servicePcm bytes = cfg.cliPcm bytes
  := by
  have hactive : ¬ cfg.channels > cfg.activeChannels := by
    rw [cfg.active_eq, if_neg (by omega)]
    apply Nat.lt_irrefl
  have h32 : ¬ cfg.bitsPerSample = 32 := by
    rw [h16]
    decide
  have hupsampled : ¬ cfg.upsampled = true := by simp [EncodeConfig.upsampled, h32]
  have hneed : ¬ (cfg.needDownmix && cfg.activeChannels = 2) = true := by
    simp [needDownmix, hactive]
  rw [servicePcm, if_neg hupsampled, serviceConvert, if_neg h32, if_pos h16, cliPcm, if_neg h32,
    if_pos h16, if_neg hneed]
  cases cfg.width_eq with
  | inl hwidth =>
      rw [if_pos hwidth, if_neg (by rw [hwidth]; decide), Option.map_some, serviceDownmix,
        if_neg hactive]
  | inr hwidth =>
      rw [if_neg (by rw [hwidth]; decide), if_pos hwidth, Option.map_some, serviceDownmix,
        if_neg hactive]

/-- With channels to mix in, the PCM is the same when no frame is moved. -/
theorem pcm_eq_iff_of_channels_gt (h16 : cfg.bitsPerSample = 16) (h : 2 < cfg.channels)
    {bytes : List UInt8} (hbytes : cfg.channels * 2 ∣ bytes.length) :
  cfg.servicePcm bytes = cfg.cliPcm bytes
    ↔ ∀ frame ∈ blocks (cfg.channels * 2) bytes, FrameUnmoved cfg frame
  := by
  have hactive : cfg.activeChannels = 2 := by rw [cfg.active_eq, if_pos h]
  have hmix : cfg.channels > cfg.activeChannels := by
    rw [hactive]
    apply h
  have h32 : ¬ cfg.bitsPerSample = 32 := by
    rw [h16]
    decide
  have hupsampled : ¬ cfg.upsampled = true := by simp [EncodeConfig.upsampled, h32]
  have hneed : (cfg.needDownmix && cfg.activeChannels = 2) = true := by
    simp [needDownmix, hactive, h]
  have hpos : 0 < cfg.channels * 2 := by omega
  have hframe {frame : List UInt8} (hmem : frame ∈ blocks (cfg.channels * 2) bytes) :
      4 ≤ frame.length := by
    rw [length_of_mem_blocks hpos hmem]
    omega
  rw [servicePcm, if_neg hupsampled, serviceConvert, if_neg h32, if_pos h16, cliPcm, if_neg h32,
    if_pos h16, if_pos hneed]
  cases cfg.width_eq with
  | inl hwidth =>
      rw [if_pos hwidth, if_neg (by rw [hwidth]; decide), Option.map_some, serviceDownmix,
        if_pos hmix, hactive, hwidth, Option.some_inj, mapBlocks_eq_iff (m := 4) hpos]
      · apply forall₂_congr
        intro frame hmem
        have hnarrow : ¬ cfg.bytesPerSample = 4 := by
          rw [hwidth]
          decide
        rw [FrameUnmoved, sampleUnit, sampleLimit, if_neg hnarrow, if_neg hnarrow]
        apply mixI16_eq_iff (hframe hmem)
      · intro frame hlength
        apply List.length_take_of_le
        omega
      · intro frame _
        rfl
  | inr hwidth =>
      have hwide : Framewise (cfg.channels * 2) (cfg.channels * 4) (mapBlocks 2 i16ToI32) :=
        i16ToI32_framewise.mul _
      rw [if_neg (by rw [hwidth]; decide), if_pos hwidth, Option.map_some, serviceDownmix,
        if_pos hmix, hactive, hwidth, Option.some_inj,
        hwide.mapBlocks_map hpos (by omega) _ hbytes, mapBlocks_eq_iff (m := 8) hpos]
      · apply forall₂_congr
        intro frame hmem
        rw [FrameUnmoved, sampleUnit, sampleLimit, if_pos hwidth, if_pos hwidth]
        apply mixI32_eq_iff (hframe hmem)
      · intro frame hlength
        apply List.length_take_of_le
        rw [hwide.length 1 frame (by rw [hlength, Nat.one_mul])]
        omega
      · intro frame _
        rfl

end ChunkConfig

/-- The programs make the same PCM of a capture of 16-bit integers exactly when it has no more
than two channels, or the mix moves no front sample of it. -/
theorem pcm_eq_iff (cfg : ChunkConfig) (h16 : cfg.bitsPerSample = 16)
    (cb : Callback UInt8 cfg.frameBytes) :
  cfg.servicePcm cb.data = cfg.cliPcm cb.data
    ↔ cfg.channels ≤ 2 ∨ ∀ frame ∈ blocks cfg.frameBytes cb.data, FrameUnmoved cfg frame
  := by
  obtain ⟨data, hwhole, -⟩ := cb
  dsimp only
  rw [ChunkConfig.frameBytes_of_bits 2 h16] at hwhole ⊢
  by_cases h : cfg.channels ≤ 2
  · simp [h, ChunkConfig.pcm_eq_of_channels_le h16 h]
  · rw [or_iff_right h]
    apply ChunkConfig.pcm_eq_iff_of_channels_gt h16 (by omega) hwhole

/-- Three channels of 16-bit integers for an encoder of 16-bit samples. -/
def surround16 : ChunkConfig where
  channels := 3
  bitsPerSample := 16
  sampleRate := 48000
  encodeSampleRate := 48000
  activeChannels := 2
  bytesPerSample := 2
  pcmFramesPerEncode := 128
  sbc := true
  positive := by decide
  scale := 2147483647
  active_eq := by decide
  width_eq := ChunkConfig.width_two

/-- A frame with the samples 1, 2 and 1 is not moved. -/
theorem pcm_eq_quiet :
  surround16.servicePcm [1, 0, 2, 0, 1, 0] = surround16.cliPcm [1, 0, 2, 0, 1, 0]
  := by
  apply (pcm_eq_iff surround16 rfl ⟨[1, 0, 2, 0, 1, 0], by decide, by decide⟩).mpr
  right
  decide

/-- A frame with the samples 0, 0 and 256 is. -/
theorem pcm_ne_centre :
  surround16.servicePcm [0, 0, 0, 0, 0, 1] ≠ surround16.cliPcm [0, 0, 0, 0, 0, 1]
  := by decide

end Ssc
