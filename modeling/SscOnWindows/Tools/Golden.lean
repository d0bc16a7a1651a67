import SscOnWindows.Lib.Struct

/-!
# Golden files

The regression tool freezes what the daemon of the encoder answers to a fixed signal in a golden
file, and later compares the answers of a daemon with the file.  A file has a packed header and a
record for each payload, its length in front.

The daemon and the signal, which is made of floating-point numbers, are parameters.  What the tool
prints is left out, but for the exception of the smallest of no sizes.
-/

namespace Ssc.Golden

open ByteStream Struct

/-- The exceptions of the tool. -/
inductive PyError where
  | structError
  | runtimeError (text : String)
  | connectionError (text : String)
  | valueError
  | indexError
  | zeroDivisionError
  | systemExit (status : ℤ)
  deriving DecidableEq, Repr

/-! ### Files -/

def magic : List UInt8 := [0x53, 0x53, 0x43, 0x47]

def version : ℤ := 1

def channels : ℤ := 2

/-- `<4sHHIIIII` -/
abbrev headerFormat : List Field :=
  [.string 4, .unsigned 2, .unsigned 2, .unsigned 4, .unsigned 4, .unsigned 4, .unsigned 4,
    .unsigned 4]

/-- `<I` -/
abbrev lengthFormat : List Field := [.unsigned 4]

/-- `struct.pack` -/
def packed (fs : List Field) (vs : Values fs) : Except PyError (List UInt8) :=
  match pack fs vs with
  | some bytes => .ok bytes
  | none => .error .structError

/-- `struct.unpack_from` -/
def unpackedFrom (fs : List Field) (blob : List UInt8) (off : ℕ) : Except PyError (Values fs) :=
  match unpackFrom fs blob off with
  | some vs => .ok vs
  | none => .error .structError

/-- The payloads, each behind its length. -/
def records : List (List UInt8) → Except PyError (List UInt8)
  | [] => .ok []
  | p :: payloads => do
      let length ← packed lengthFormat ((p.length : ℤ), ())
      let rest ← records payloads
      .ok (length ++ p ++ rest)

/-- The bytes of a golden file. -/
def goldenBlob (rate ch bitrate frames seed : ℤ) (payloads : List (List UInt8)) :
    Except PyError (List UInt8) := do
  let header ← packed headerFormat (magic, version, (0 : ℤ), rate, ch, bitrate, frames, seed, ())
  let body ← records payloads
  .ok (header ++ body)

/-- What is read from a golden file. -/
structure Contents where
  rate : ℤ
  ch : ℤ
  br : ℤ
  frames : ℤ
  seed : ℤ
  payloads : List (List UInt8)
  deriving DecidableEq, Repr

/-- The next payloads from an offset on.  The slice of a payload ends with the file. -/
def loadPayloads (blob : List UInt8) : ℕ → ℕ → Except PyError (List (List UInt8))
  | 0, _ => .ok []
  | frames + 1, off => do
      let (n, _) ← unpackedFrom lengthFormat blob off
      let rest ← loadPayloads blob frames (off + 4 + n.toNat)
      .ok ((blob.drop (off + 4)).take n.toNat :: rest)

def loadGolden (path : String) (blob : List UInt8) : Except PyError Contents := do
  let (mag, ver, _, rate, ch, br, frames, seed, _) ← unpackedFrom headerFormat blob 0
  if mag ≠ magic ∨ ver ≠ version then
    .error (.runtimeError (path ++ ": bad header magic/version"))
  else
    let payloads ← loadPayloads blob frames.toNat (calcsize headerFormat)
    .ok ⟨rate, ch, br, frames, seed, payloads⟩

/-! ### Sessions with the daemon -/

def frameSamples : ℕ := 864

def maxEncode : ℤ := 4096

/-- The daemon: how it is started for a bitrate, a rate and channels and connected to, unless that
fails, and what it sends back when it is sent bytes. -/
structure Daemon (σ : Type) where
  restart : ℤ → ℤ → ℤ → Option σ
  respond : σ → List UInt8 → List UInt8 × σ

/-- The daemon, and the bytes it has sent that are not read yet. -/
structure Connection (σ : Type) where
  daemon : σ
  incoming : List UInt8

variable {σ : Type}

/-- The next `n` bytes from the daemon, which closes the connection when it has sent no more. -/
def Connection.recvExact (conn : Connection σ) (n : ℕ) :
    Except PyError (List UInt8 × Connection σ) :=
  if conn.incoming.length < n then .error (.connectionError "daemon closed connection")
  else .ok (conn.incoming.take n, { conn with incoming := conn.incoming.drop n })

def Connection.sendall (daemon : Daemon σ) (conn : Connection σ) (bytes : List UInt8) :
    Connection σ :=
  let (reply, next) := daemon.respond conn.daemon bytes
  ⟨next, conn.incoming ++ reply⟩

def encodeOne (daemon : Daemon σ) (conn : Connection σ) (pcm : List UInt8) :
    Except PyError (List UInt8 × Connection σ) := do
  let conn := (conn.sendall daemon (le32 frameSamples)).sendall daemon pcm
  let (bytes, conn) ← conn.recvExact 4
  let ret := signed32 (ofLe bytes)
  if ret ≤ 0 ∨ ret > maxEncode then .error (.runtimeError ("bad ret=" ++ toString ret))
  else conn.recvExact ret.toNat

/-- The signal of a frame, from a seed, the index of the frame and a rate, by which it divides. -/
def genFramePcm (framePcm : ℤ → ℕ → ℤ → List UInt8) (seed : ℤ) (frameIndex : ℕ) (rate : ℤ) :
    Except PyError (List UInt8) :=
  if rate = 0 then .error .zeroDivisionError else .ok (framePcm seed frameIndex rate)

variable (daemon : Daemon σ) (framePcm : ℤ → ℕ → ℤ → List UInt8)

/-- The payloads of some frames from the frame `f` on. -/
def encodeFrames (seed rate : ℤ) : ℕ → ℕ → Connection σ → Except PyError (List (List UInt8))
  | _, 0, _ => .ok []
  | f, frames + 1, conn => do
      let pcm ← genFramePcm framePcm seed f rate
      let (payload, conn) ← encodeOne daemon conn pcm
      let rest ← encodeFrames seed rate (f + 1) frames conn
      .ok (payload :: rest)

/-- A session with a daemon that has been started anew. -/
def withDaemon {α : Type} (bitrate rate ch : ℤ) (session : Connection σ → Except PyError α) :
    Except PyError α :=
  match daemon.restart bitrate rate ch with
  | none => .error (.systemExit 1)
  | some s => session ⟨s, []⟩

/-- The file that is written, with its path, and whether the call returns. -/
structure Written where
  file : Option (String × List UInt8)
  result : Except PyError Unit

/-- The path of the golden file. -/
def goldenPath (bitrate : ℤ) (outPath : Option String) : String :=
  outPath.getD (toString (bitrate / 1000) ++ "k.golden")

def genGolden (bitrate frames : ℤ) (outPath : Option String) (seed rate : ℤ) : Written :=
  match withDaemon daemon bitrate rate channels
      (encodeFrames daemon framePcm seed rate 0 frames.toNat) with
  | .error e => ⟨none, .error e⟩
  | .ok payloads =>
      match goldenBlob rate channels bitrate frames seed payloads with
      | .error e => ⟨none, .error e⟩
      | .ok blob =>
          ⟨some (goldenPath bitrate outPath, blob),
            if payloads = [] then .error .valueError else .ok ()⟩

/-- Whether the answers to some frames from the frame `f` on are the expected payloads. -/
def checkFrames (seed rate : ℤ) (expect : List (List UInt8)) :
    ℕ → ℕ → Connection σ → Except PyError Bool
  | _, 0, _ => .ok true
  | f, frames + 1, conn => do
      let pcm ← genFramePcm framePcm seed f rate
      let (payload, conn) ← encodeOne daemon conn pcm
      match expect[f]? with
      | none => .error .indexError
      | some expected =>
          if payload ≠ expected then .ok false
          else checkFrames seed rate expect (f + 1) frames conn

def checkGolden (path : String) (blob : List UInt8) : Except PyError Bool := do
  let golden ← loadGolden path blob
  withDaemon daemon golden.br golden.rate golden.ch
    (checkFrames daemon framePcm golden.seed golden.rate golden.payloads 0 golden.frames.toNat)

/-! ### The round trip -/

theorem bind_eq_ok_iff {α β : Type} {x : Except PyError α} {f : α → Except PyError β} {b : β} :
  (x >>= f) = .ok b ↔ ∃ a, x = .ok a ∧ f a = .ok b
  := by
  cases x with
  | error e => simp [bind, Except.bind]
  | ok a => simp [bind, Except.bind]

variable {fs : List Field} {vs : Values fs} {bytes : List UInt8}

theorem packed_eq_ok_iff :
  packed fs vs = .ok bytes ↔ pack fs vs = some bytes
  := by
  rw [packed]
  cases pack fs vs with
  | none => simp
  | some bytes => simp

theorem exists_packed_iff :
  (∃ bytes, packed fs vs = .ok bytes) ↔ InRange fs vs
  := by
  rw [← exists_pack_iff]
  simp only [packed_eq_ok_iff]

theorem unpackedFrom_packed (h : packed fs vs = .ok bytes) (hwhole : Whole fs vs)
    (before after : List UInt8) :
  unpackedFrom fs (before ++ (bytes ++ after)) before.length = .ok vs
  := by
  rw [unpackedFrom, unpackFrom_pack (packed_eq_ok_iff.mp h) hwhole]

/-- The records are read back behind anything. -/
theorem loadPayloads_records {payloads : List (List UInt8)} {body : List UInt8}
    (h : records payloads = .ok body) (before : List UInt8) :
  loadPayloads (before ++ body) payloads.length before.length = .ok payloads
  := by
  induction payloads generalizing body before with
  | nil => rfl
  | cons p payloads ih =>
      obtain ⟨length, hlength, hbind⟩ := bind_eq_ok_iff.mp h
      obtain ⟨rest, hrest, hok⟩ := bind_eq_ok_iff.mp hbind
      obtain rfl := Except.ok.inj hok
      have hsize : length.length = 4 := length_pack (packed_eq_ok_iff.mp hlength)
      have hread := unpackedFrom_packed hlength ⟨trivial, trivial⟩ before (p ++ rest)
      have hpayloads := ih hrest (before ++ (length ++ p))
      have hslice : ((before ++ (length ++ (p ++ rest))).drop (before.length + 4)).take p.length
          = p := by
        rw [← List.drop_drop, List.drop_left, List.drop_left' hsize, List.take_left]
      rw [List.append_assoc, List.append_assoc, List.length_append, List.length_append, hsize,
        ← Nat.add_assoc] at hpayloads
      rw [List.append_assoc, List.length_cons, loadPayloads]
      refine bind_eq_ok_iff.mpr ⟨_, hread, bind_eq_ok_iff.mpr ⟨payloads, hpayloads, ?_⟩⟩
      rw [Int.toNat_natCast, hslice]

/-- The file of some values is read back as these values. -/
theorem loadGolden_of_eq_ok {rate ch bitrate seed : ℤ} {payloads : List (List UInt8)}
    {blob : List UInt8} (h : goldenBlob rate ch bitrate payloads.length seed payloads = .ok blob)
    (path : String) :
  loadGolden path blob = .ok ⟨rate, ch, bitrate, payloads.length, seed, payloads⟩
  := by
  obtain ⟨header, hheader, hbind⟩ := bind_eq_ok_iff.mp h
  obtain ⟨body, hbody, hok⟩ := bind_eq_ok_iff.mp hbind
  obtain rfl := Except.ok.inj hok
  have hsize : header.length = calcsize headerFormat := length_pack (packed_eq_ok_iff.mp hheader)
  have hread := unpackedFrom_packed hheader
    ⟨rfl, trivial, trivial, trivial, trivial, trivial, trivial, trivial, trivial⟩ [] body
  have hpayloads := loadPayloads_records hbody header
  rw [hsize] at hpayloads
  have hvalid : ¬ (magic ≠ magic ∨ version ≠ version) := by
    rintro (hmagic | hversion)
    · apply hmagic rfl
    · apply hversion rfl
  refine bind_eq_ok_iff.mpr ⟨_, hread, (if_neg hvalid).trans ?_⟩
  exact bind_eq_ok_iff.mpr ⟨payloads, hpayloads, rfl⟩

theorem inRange_unsigned {i : ℤ} :
  Field.InRange (.unsigned 4) i ↔ 0 ≤ i ∧ i < 2 ^ 32
  := by
  rw [Field.InRange, show (256 : ℤ) ^ 4 = 2 ^ 32 by decide]

theorem inRange_length {n : ℕ} (h : n < 2 ^ 32) :
  Field.InRange (.unsigned 4) (n : ℤ)
  := by
  apply inRange_unsigned.mpr
  omega

theorem exists_records {payloads : List (List UInt8)}
    (h : ∀ p ∈ payloads, p.length < 2 ^ 32) :
  ∃ body, records payloads = .ok body
  := by
  induction payloads with
  | nil => exact ⟨[], rfl⟩
  | cons p payloads ih =>
      obtain ⟨length, hlength⟩ := (@exists_packed_iff lengthFormat ((p.length : ℤ), ())).mpr
        ⟨inRange_length (h p List.mem_cons_self), trivial⟩
      obtain ⟨rest, hrest⟩ := ih (fun q hq => h q (List.mem_cons_of_mem _ hq))
      use length ++ p ++ rest
      rw [records, hlength, hrest]
      rfl

/-- The file is made when all numbers are in 32 bits. -/
theorem exists_goldenBlob {rate ch bitrate seed : ℤ} {payloads : List (List UInt8)}
    (hrate : 0 ≤ rate ∧ rate < 2 ^ 32) (hch : 0 ≤ ch ∧ ch < 2 ^ 32)
    (hbitrate : 0 ≤ bitrate ∧ bitrate < 2 ^ 32) (hseed : 0 ≤ seed ∧ seed < 2 ^ 32)
    (hcount : payloads.length < 2 ^ 32) (hpayloads : ∀ p ∈ payloads, p.length < 2 ^ 32) :
  ∃ blob, goldenBlob rate ch bitrate payloads.length seed payloads = .ok blob
  := by
  obtain ⟨header, hheader⟩ := (@exists_packed_iff headerFormat
    (magic, version, (0 : ℤ), rate, ch, bitrate, (payloads.length : ℤ), seed, ())).mpr
    ⟨trivial, by decide, by decide, inRange_unsigned.mpr hrate, inRange_unsigned.mpr hch,
      inRange_unsigned.mpr hbitrate, inRange_length hcount, inRange_unsigned.mpr hseed, trivial⟩
  obtain ⟨body, hbody⟩ := exists_records hpayloads
  use header ++ body
  rw [goldenBlob, hheader, hbody]
  rfl

variable {daemon framePcm}
variable {rate ch bitrate frames seed : ℤ} {payloads : List (List UInt8)} {blob : List UInt8}

/-- The file that is written when the daemon has given its payloads. -/
theorem file_genGolden
    (hpayloads : withDaemon daemon bitrate rate channels
      (encodeFrames daemon framePcm seed rate 0 frames.toNat) = .ok payloads)
    (hblob : goldenBlob rate channels bitrate frames seed payloads = .ok blob)
    (outPath : Option String) :
  (genGolden daemon framePcm bitrate frames outPath seed rate).file
    = some (goldenPath bitrate outPath, blob)
  := by
  simp only [genGolden, hpayloads, hblob]

/-- For all numbers in 32 bits and all payloads there is a golden file, which is read back as what
it was made of.  It is the file that is written when the daemon gives the payloads. -/
theorem loadGolden_goldenBlob
    (hrate : 0 ≤ rate ∧ rate < 2 ^ 32) (hch : 0 ≤ ch ∧ ch < 2 ^ 32)
    (hbitrate : 0 ≤ bitrate ∧ bitrate < 2 ^ 32) (hseed : 0 ≤ seed ∧ seed < 2 ^ 32)
    (hcount : payloads.length < 2 ^ 32) (hpayloads : ∀ p ∈ payloads, p.length < 2 ^ 32) :
  ∃ blob, goldenBlob rate ch bitrate payloads.length seed payloads = .ok blob
    ∧ (∀ path, loadGolden path blob
        = .ok ⟨rate, ch, bitrate, payloads.length, seed, payloads⟩)
    ∧ ∀ (σ : Type) (daemon : Daemon σ) (framePcm : ℤ → ℕ → ℤ → List UInt8)
        (outPath : Option String),
        ch = channels →
        withDaemon daemon bitrate rate channels
          (encodeFrames daemon framePcm seed rate 0 payloads.length) = .ok payloads →
        (genGolden daemon framePcm bitrate payloads.length outPath seed rate).file
          = some (goldenPath bitrate outPath, blob)
  := by
  obtain ⟨blob, hblob⟩ := exists_goldenBlob hrate hch hbitrate hseed hcount hpayloads
  refine ⟨blob, hblob, loadGolden_of_eq_ok hblob, ?_⟩
  rintro σ daemon framePcm outPath rfl hsession
  apply file_genGolden hsession hblob

/-- A daemon that answers every signal with the same two bytes. -/
def steadyDaemon : Daemon Unit where
  restart _ _ _ := some ()
  respond _ bytes := if bytes.length = 4 then ([], ()) else (le32 2 ++ [0x9C, 0x31], ())

/-- The file of two of its payloads. -/
theorem loadGolden_steadyDaemon :
  ∃ blob, (genGolden steadyDaemon (fun _ _ _ => []) 229000 2 none 0x5A5C2026 48000).file
      = some (goldenPath 229000 none, blob)
    ∧ ∀ path, loadGolden path blob
        = .ok ⟨48000, 2, 229000, 2, 0x5A5C2026, [[0x9C, 0x31], [0x9C, 0x31]]⟩
  := by
  obtain ⟨blob, -, hload, hfile⟩ := @loadGolden_goldenBlob 48000 2 229000 0x5A5C2026
    [[0x9C, 0x31], [0x9C, 0x31]] (by decide) (by decide) (by decide) (by decide) (by decide)
    (by decide)
  exact ⟨blob, hfile Unit steadyDaemon (fun _ _ _ => []) none rfl rfl, hload⟩

/-! ### The comparison -/

theorem withDaemon_eq_ok_iff {α : Type} {session : Connection σ → Except PyError α} {a : α} :
  withDaemon daemon bitrate rate ch session = .ok a
    ↔ ∃ s, daemon.restart bitrate rate ch = some s ∧ session ⟨s, []⟩ = .ok a
  := by
  rw [withDaemon]
  cases daemon.restart bitrate rate ch with
  | none => simp
  | some s => simp

theorem length_encodeFrames {f n : ℕ} {conn : Connection σ}
    (h : encodeFrames daemon framePcm seed rate f n conn = .ok payloads) :
  payloads.length = n
  := by
  induction n generalizing f conn payloads with
  | zero =>
      obtain rfl := Except.ok.inj h
      rfl
  | succ n ih =>
      obtain ⟨pcm, -, hpcm⟩ := bind_eq_ok_iff.mp h
      obtain ⟨⟨payload, next⟩, -, hpayload⟩ := bind_eq_ok_iff.mp hpcm
      obtain ⟨rest, hrest, hok⟩ := bind_eq_ok_iff.mp hpayload
      obtain rfl := Except.ok.inj hok
      rw [List.length_cons, ih hrest]

/-- The comparison of some frames succeeds when the payloads of the daemon are those expected, and
only then. -/
theorem checkFrames_iff {expect : List (List UInt8)} {f n : ℕ} {conn : Connection σ}
    (h : f + n ≤ expect.length) :
  checkFrames daemon framePcm seed rate expect f n conn = .ok true
    ↔ encodeFrames daemon framePcm seed rate f n conn = .ok ((expect.drop f).take n)
  := by
  induction n generalizing f conn with
  | zero => simp [checkFrames, encodeFrames]
  | succ n ih =>
      have hf : f < expect.length := by omega
      rw [checkFrames, encodeFrames, bind_eq_ok_iff, bind_eq_ok_iff]
      apply exists_congr
      intro pcm
      apply and_congr_right
      intro hpcm
      rw [bind_eq_ok_iff, bind_eq_ok_iff]
      apply exists_congr
      rintro ⟨payload, next⟩
      apply and_congr_right
      intro hpayload
      rw [List.drop_eq_getElem_cons hf, List.take_succ_cons]
      simp only [List.getElem?_eq_getElem hf, bind_eq_ok_iff, Except.ok.injEq, List.cons.injEq]
      split
      next hne =>
        constructor
        · intro hfalse
          cases hfalse
        · rintro ⟨rest, -, heq, -⟩
          apply absurd heq hne
      next heq =>
        rw [ih (by omega)]
        constructor
        · intro hrest
          exact ⟨_, hrest, not_not.mp heq, rfl⟩
        · rintro ⟨rest, hrest, -, rfl⟩
          apply hrest

/-- A daemon passes the check of a golden file when it gives the payloads of the file, and only
then. -/
theorem checkGolden_iff
    (h : goldenBlob rate ch bitrate payloads.length seed payloads = .ok blob) (path : String) :
  checkGolden daemon framePcm path blob = .ok true
    ↔ withDaemon daemon bitrate rate ch
        (encodeFrames daemon framePcm seed rate 0 payloads.length) = .ok payloads
  := by
  rw [checkGolden, loadGolden_of_eq_ok h]
  change withDaemon _ _ _ _ _ = _ ↔ _
  rw [withDaemon_eq_ok_iff, withDaemon_eq_ok_iff]
  apply exists_congr
  intro s
  have hcheck := @checkFrames_iff σ daemon framePcm rate seed payloads 0 payloads.length ⟨s, []⟩
    (by omega)
  rw [List.drop_zero, List.take_length] at hcheck
  apply and_congr_right
  intro _
  apply hcheck

/-- A daemon passes the check of a file when it gives the same payloads as the daemon the file was
made with, and only then.  The signal is the same for both. -/
theorem checkGolden_genGolden {τ : Type} {other : Daemon τ} {outPath : Option String}
    {path : String}
    (h : (genGolden daemon framePcm bitrate frames outPath seed rate).file = some (path, blob)) :
  checkGolden other framePcm path blob = .ok true
    ↔ withDaemon other bitrate rate channels
        (encodeFrames other framePcm seed rate 0 frames.toNat)
      = withDaemon daemon bitrate rate channels
        (encodeFrames daemon framePcm seed rate 0 frames.toNat)
  := by
  rw [genGolden] at h
  split at h
  next => cases h
  next payloads hsession =>
    split at h
    next => cases h
    next blob' hblob =>
      obtain rfl : blob' = blob := congrArg Prod.snd (Option.some.inj h)
      obtain ⟨header, hheader, -⟩ := bind_eq_ok_iff.mp hblob
      obtain ⟨-, -, -, -, -, -, ⟨hframes, -⟩, -⟩ := exists_packed_iff.mp ⟨header, hheader⟩
      obtain ⟨s, -, hpayloads⟩ := withDaemon_eq_ok_iff.mp hsession
      have hlength := length_encodeFrames hpayloads
      have hcount : frames = payloads.length := by
        rw [hlength, Int.toNat_of_nonneg hframes]
      rw [hcount] at hblob
      rw [checkGolden_iff hblob, hsession, hlength]

/-- A daemon that answers with another byte. -/
def alteredDaemon : Daemon Unit where
  restart _ _ _ := some ()
  respond _ bytes := if bytes.length = 4 then ([], ()) else (le32 2 ++ [0x9C, 0x32], ())

/-- It fails the check of the file that the other daemon passes. -/
theorem checkGolden_alteredDaemon :
  ∃ path blob, (genGolden steadyDaemon (fun _ _ _ => []) 229000 2 none 0x5A5C2026 48000).file
      = some (path, blob)
    ∧ checkGolden steadyDaemon (fun _ _ _ => []) path blob = .ok true
    ∧ checkGolden alteredDaemon (fun _ _ _ => []) path blob ≠ .ok true
  := by
  have hsession : withDaemon steadyDaemon 229000 48000 channels
      (encodeFrames steadyDaemon (fun _ _ _ => []) 0x5A5C2026 48000 0 2)
        = .ok [[0x9C, 0x31], [0x9C, 0x31]] := rfl
  have haltered : withDaemon alteredDaemon 229000 48000 channels
      (encodeFrames alteredDaemon (fun _ _ _ => []) 0x5A5C2026 48000 0 2)
        = .ok [[0x9C, 0x32], [0x9C, 0x32]] := rfl
  obtain ⟨blob, hblob⟩ := @exists_goldenBlob 48000 channels 229000 0x5A5C2026
    [[0x9C, 0x31], [0x9C, 0x31]] (by decide) (by decide) (by decide) (by decide) (by decide)
    (by decide)
  have hfile := file_genGolden hsession hblob none
  refine ⟨_, blob, hfile, (checkGolden_genGolden hfile).mpr rfl, ?_⟩
  rw [ne_eq, checkGolden_genGolden hfile]
  intro hsame
  have hsame : (.ok [[0x9C, 0x32], [0x9C, 0x32]] : Except PyError (List (List UInt8)))
      = .ok [[0x9C, 0x31], [0x9C, 0x31]] := haltered.symm.trans (hsame.trans hsession)
  revert hsame
  decide

end Ssc.Golden
