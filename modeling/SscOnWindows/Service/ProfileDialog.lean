import SscOnWindows.Service.AddressGrammar
import SscOnWindows.Service.ProfileStore

/-!
# The profile dialog

`ProfileDialog` shows a profile in its controls, and `OnSave` makes a new profile of them.  Here no
control is touched in between.  The text control is a parameter, `value`: what `GetValue` returns
behind a `SetValue` of the text.  The virtual playback devices are the same each time they are
enumerated.
-/

namespace Ssc

namespace ProfileManager

/-- `codec_to_index`. -/
def codecToIndex (codec : List Char) : Nat :=
  if codec = "aac".toList then 1 else if codec = "sbc".toList then 2 else 0

/-- `index_to_codec`. -/
def indexToCodec : Option Nat → List Char
  | some 1 => "aac".toList
  | some 2 => "sbc".toList
  | _ => "ssc".toList

/-- `quality_to_index`. -/
def qualityToIndex (quality : List Char) : Nat :=
  if quality = "hq".toList then 0 else if quality = "sq".toList then 1
  else if quality = "mq".toList then 2 else 0

/-- `index_to_quality`. -/
def indexToQuality : Option Nat → List Char
  | some 1 => "sq".toList
  | some 2 => "mq".toList
  | _ => "hq".toList

/-- `bit_depth_to_index`. -/
def bitDepthToIndex (bitDepth : UInt32) : Nat :=
  if bitDepth = 16 then 1 else if bitDepth = 24 then 2 else if bitDepth = 32 then 3 else 0

/-- The name of `VirtualDevice` in the file. -/
def virtualDevice : List Char := "virtual".toList

/-- `capture_mode_to_index`. -/
def captureModeToIndex (mode : List Char) : Nat :=
  if mode = virtualDevice then 1 else 0

/-- `index_to_capture_mode`. -/
def indexToCaptureMode : Option Nat → List Char
  | some 1 => virtualDevice
  | _ => "loopback".toList

/-- `update`. -/
def update (profiles : List (ConnectionProfile Char)) (index : Nat)
    (profile : ConnectionProfile Char) : List (ConnectionProfile Char) :=
  if profiles.length ≤ index then profiles else profiles.set index profile

end ProfileManager

open ProfileManager

/-- A virtual playback device. -/
structure AudioDevice where
  id : List Char
  displayName : List Char
  deriving DecidableEq

/-- A `wxChoice`: the number of its items, and the one that is selected. -/
structure Choice where
  count : Nat := 0
  selection : Option Nat := none
  deriving DecidableEq

namespace Choice

/-- The control is cleared and filled with `count` items; the selection is kept if there is such an
item, and else the first item is selected. -/
def rebuild (c : Choice) (count : Nat) : Choice where
  count := count
  selection := some ((c.selection.filter (· < count)).getD 0)

/-- `SetSelection`. -/
def select (c : Choice) (index : Nat) : Choice :=
  { c with selection := some index }

/-- `SetSelection` of an item there is. -/
def selectIfAny (c : Choice) (index : Nat) : Choice :=
  if index < c.count then c.select index else c

end Choice

/-- The controls of the dialog, and the devices it has enumerated. -/
structure ProfileDialog where
  addr : List Char := []
  devname : List Char := []
  codec : Choice := { count := 3, selection := some 0 }
  quality : Choice := { count := 3, selection := some 0 }
  sampleRate : Choice := {}
  bitDepth : Choice := {}
  capture : Choice := { count := 2, selection := some 0 }
  audioDev : Choice := {}
  audioDevices : List AudioDevice := []
  autoSwitch : Bool := true
  deriving DecidableEq

/-- The index of the sample rate in the dialog. -/
def sampleRateToIndex (sampleRate : UInt32) : Nat :=
  if sampleRate = 44100 then 1 else if sampleRate = 48000 then 2
  else if sampleRate = 88200 then 3 else if sampleRate = 96000 then 4 else 0

/-- `rate_values`. -/
def rateValues : List UInt32 := [0, 44100, 48000, 88200, 96000]

/-- `bd_values`. -/
def bdValues : List UInt32 := [0, 16, 24, 32]

/-- `codec_short`. -/
def codecShort : List (List Char) := ["SSC", "AAC", "SBC"].map String.toList

namespace ProfileDialog

/-- The number of sample rates offered for the codec. -/
def rateCount (codec : Option Nat) : Nat :=
  if codec = some 0 then 5 else 3

/-- `update_codec_dependent`. -/
def updateCodecDependent (present : List AudioDevice) (d : ProfileDialog) : ProfileDialog :=
  let d := { d with
    quality := d.quality.rebuild 3
    sampleRate := d.sampleRate.rebuild (rateCount d.codec.selection)
    bitDepth := d.bitDepth.rebuild 4 }
  if d.capture.selection = some 1 ∧ d.audioDev.count = 0 then
    { d with
      audioDevices := present
      audioDev := {
        count := present.length
        selection := if present = [] then none else some 0 } }
  else d

/-- The selection of the audio device that is stored, if it is one of those enumerated. -/
def selectAudioDevice (id : List Char) (d : ProfileDialog) : ProfileDialog :=
  if id = [] then d
  else match d.audioDevices.findIdx? (·.id = id) with
    | some i => { d with audioDev := d.audioDev.select i }
    | none => d

/-- `populate_from_profile`. -/
def populateFromProfile (value : List Char → List Char) (present : List AudioDevice)
    (p : ConnectionProfile Char) (d : ProfileDialog) : ProfileDialog :=
  let d := updateCodecDependent present { d with
    addr := value p.deviceAddress
    devname := value p.deviceName
    codec := d.codec.select (codecToIndex p.codec)
    quality := d.quality.select (qualityToIndex p.quality)
    capture := d.capture.select (captureModeToIndex p.captureMode) }
  selectAudioDevice p.audioDeviceId { d with
    autoSwitch := p.autoSwitchDevice
    sampleRate := d.sampleRate.selectIfAny (sampleRateToIndex p.sampleRate)
    bitDepth := d.bitDepth.selectIfAny (bitDepthToIndex p.bitDepth) }

/-- The dialog on a profile, or on none. -/
def create (value : List Char → List Char) (present : List AudioDevice)
    (p : Option (ConnectionProfile Char)) : ProfileDialog :=
  updateCodecDependent present (match p with
    | some p => populateFromProfile value present p {}
    | none => {})

/-- The audio device that is selected, in `VirtualDevice` mode. -/
def audioDevice (d : ProfileDialog) : Option AudioDevice :=
  if d.capture.selection = some 1 then d.audioDev.selection.bind (d.audioDevices[·]?) else none

/-- The name `OnSave` makes up. -/
def autoName (d : ProfileDialog) : List Char :=
  (if d.devname = [] then d.addr else d.devname)
    ++ ((d.codec.selection.bind (codecShort[·]?)).map (' ' :: ·)).getD []

/-- The profile `OnSave` makes, if it makes one. -/
def onSave (d : ProfileDialog) : Option (ConnectionProfile Char) :=
  if d.addr = [] ∨ validateAddress d.addr = false then none
  else some {
    name := d.autoName
    deviceAddress := d.addr
    deviceName := d.devname
    codec := indexToCodec d.codec.selection
    quality := indexToQuality d.quality.selection
    sampleRate := (d.sampleRate.selection.bind (rateValues[·]?)).getD 0
    bitDepth := (d.bitDepth.selection.bind (bdValues[·]?)).getD 0
    captureMode := indexToCaptureMode d.capture.selection
    audioDeviceId := (d.audioDevice.map AudioDevice.id).getD []
    audioDeviceName := (d.audioDevice.map AudioDevice.displayName).getD []
    autoSwitchDevice := d.autoSwitch }

/-- The profiles behind a dialog on the profile with the index that is saved. -/
def edit (value : List Char → List Char) (present : List AudioDevice)
    (profiles : List (ConnectionProfile Char)) (index : Nat) : List (ConnectionProfile Char) :=
  match (create value present profiles[index]?).onSave with
  | some p => update profiles index p
  | none => profiles

end ProfileDialog

/-- The sample rates the dialog offers for the codec. -/
def offeredRates (codec : List Char) : List UInt32 :=
  rateValues.take (ProfileDialog.rateCount (some (codecToIndex codec)))

/-- What the profile `q` keeps of the profile `p` it is an edited version of: what the dialog does
not show, what it offers, and the audio device. -/
structure Kept (value : List Char → List Char) (present : List AudioDevice)
    (p q : ConnectionProfile Char) : Prop where
  linkKey : q.linkKey = p.linkKey
  linkKeyType : q.linkKeyType = p.linkKeyType
  bitrateKbps : q.bitrateKbps = p.bitrateKbps
  deviceAddress : value p.deviceAddress = p.deviceAddress → q.deviceAddress = p.deviceAddress
  deviceName : value p.deviceName = p.deviceName → q.deviceName = p.deviceName
  codec : p.codec ∈ ["ssc".toList, "aac".toList, "sbc".toList] → q.codec = p.codec
  quality : p.quality ∈ ["hq".toList, "sq".toList, "mq".toList] → q.quality = p.quality
  sampleRate : p.sampleRate ∈ offeredRates p.codec → q.sampleRate = p.sampleRate
  bitDepth : p.bitDepth ∈ bdValues → q.bitDepth = p.bitDepth
  captureMode : p.captureMode ∈ ["loopback".toList, virtualDevice] →
    q.captureMode = p.captureMode
  autoSwitchDevice : q.autoSwitchDevice = p.autoSwitchDevice
  audioDeviceId : q.audioDeviceId = p.audioDeviceId
  audioDeviceName : p.captureMode = virtualDevice →
    (present.find? (·.id = p.audioDeviceId)).map AudioDevice.displayName
      = some p.audioDeviceName → q.audioDeviceName = p.audioDeviceName

/-- What is promised of the profiles behind an edit. -/
structure EditLaw (value : List Char → List Char) (present : List AudioDevice)
    (before after : List (ConnectionProfile Char)) (index : Nat) : Prop where
  length : after.length = before.length
  others : ∀ i, i ≠ index → after[i]? = before[i]?
  edited : ∀ p q, before[index]? = some p → after[index]? = some q → Kept value present p q

/-- The dialog saves the profile. -/
def Saves (value : List Char → List Char) (p : ConnectionProfile Char) : Prop :=
  value p.deviceAddress ≠ [] ∧ validateAddress (value p.deviceAddress) = true

/-- The audio device of the profile is the one the dialog takes: one that is present, or no one in
`SystemLoopback` mode and where none is present. -/
def TakesDevice (present : List AudioDevice) (p : ConnectionProfile Char) : Prop :=
  if p.captureMode = virtualDevice then
    if p.audioDeviceId = [] then ∀ d ∈ present.head?, d.id = []
    else p.audioDeviceId ∈ present.map AudioDevice.id
  else p.audioDeviceId = []

/-- There is nothing in the profile that the dialog drops. -/
structure Survives (present : List AudioDevice) (p : ConnectionProfile Char) : Prop where
  linkKey : p.linkKey = []
  linkKeyType : p.linkKeyType = 0
  bitrateKbps : p.bitrateKbps = 0
  device : TakesDevice present p

/-! ### The indices -/

namespace ProfileManager

theorem qualityToIndex_lt (quality : List Char) :
  qualityToIndex quality < 3
  := by
  rw [qualityToIndex]
  grind

theorem bitDepthToIndex_lt (bitDepth : UInt32) :
  bitDepthToIndex bitDepth < 4
  := by
  rw [bitDepthToIndex]
  grind

theorem captureModeToIndex_eq_one {mode : List Char} :
  captureModeToIndex mode = 1 ↔ mode = virtualDevice
  := by
  rw [captureModeToIndex]
  grind

theorem indexToCodec_codecToIndex {codec : List Char}
    (h : codec ∈ ["ssc".toList, "aac".toList, "sbc".toList]) :
  indexToCodec (some (codecToIndex codec)) = codec
  := by
  simp only [List.mem_cons, List.not_mem_nil, or_false] at h
  rcases h with rfl | rfl | rfl <;> decide

theorem indexToQuality_qualityToIndex {quality : List Char}
    (h : quality ∈ ["hq".toList, "sq".toList, "mq".toList]) :
  indexToQuality (some (qualityToIndex quality)) = quality
  := by
  simp only [List.mem_cons, List.not_mem_nil, or_false] at h
  rcases h with rfl | rfl | rfl <;> decide

theorem indexToCaptureMode_captureModeToIndex {mode : List Char}
    (h : mode ∈ ["loopback".toList, virtualDevice]) :
  indexToCaptureMode (some (captureModeToIndex mode)) = mode
  := by
  simp only [List.mem_cons, List.not_mem_nil, or_false] at h
  rcases h with rfl | rfl <;> decide

theorem bdValues_bitDepthToIndex {bitDepth : UInt32} (h : bitDepth ∈ bdValues) :
  bdValues[bitDepthToIndex bitDepth]? = some bitDepth
  := by
  simp only [bdValues, List.mem_cons, List.not_mem_nil, or_false] at h
  rcases h with rfl | rfl | rfl | rfl <;> rfl

theorem rateValues_sampleRateToIndex {sampleRate : UInt32} (h : sampleRate ∈ rateValues) :
  rateValues[sampleRateToIndex sampleRate]? = some sampleRate
  := by
  simp only [rateValues, List.mem_cons, List.not_mem_nil, or_false] at h
  rcases h with rfl | rfl | rfl | rfl | rfl <;> rfl

theorem sampleRateToIndex_lt {sampleRate : UInt32} {codec : Option Nat}
    (h : sampleRate ∈ rateValues.take (ProfileDialog.rateCount codec)) :
  sampleRateToIndex sampleRate < ProfileDialog.rateCount codec
  := by
  rw [ProfileDialog.rateCount] at h ⊢
  split at h
  next hcodec =>
    rw [if_pos hcodec]
    simp only [rateValues, List.take_succ_cons, List.take_zero, List.mem_cons, List.not_mem_nil,
      or_false] at h
    rcases h with rfl | rfl | rfl | rfl | rfl <;> decide
  next hcodec =>
    rw [if_neg hcodec]
    simp only [rateValues, List.take_succ_cons, List.take_zero, List.mem_cons, List.not_mem_nil,
      or_false] at h
    rcases h with rfl | rfl | rfl <;> decide

end ProfileManager

/-! ### The controls -/

namespace Choice

/-- A selection there is survives. -/
theorem rebuild_select {c : Choice} {count index : Nat} (h : index < count) :
  (c.select index).rebuild count = { count := count, selection := some index }
  := by
  simp [rebuild, select, Option.filter, h]

theorem rebuild_self {count index : Nat} (h : index < count) :
  ({ count := count, selection := some index } : Choice).rebuild count
    = { count := count, selection := some index }
  := rebuild_select (c := { count := count }) h

/-- An empty control gets its first item selected. -/
theorem rebuild_none {count count' : Nat} :
  ({ count := count' } : Choice).rebuild count = { count := count, selection := some 0 }
  := by rw [rebuild, Option.filter_none, Option.getD_none]

theorem selectIfAny_of_lt {count index : Nat} {selection : Option Nat} (h : index < count) :
  ({ count := count, selection := selection } : Choice).selectIfAny index
    = { count := count, selection := some index }
  := by
  rw [selectIfAny, if_pos h, select]

end Choice

namespace ProfileDialog

/-- The control for the audio devices. -/
def audioChoice (present : List AudioDevice) (id : List Char) : Choice where
  count := present.length
  selection :=
    if present = [] then none
    else if id = [] then some 0
    else some ((present.findIdx? (·.id = id)).getD 0)

/-- The dialog on a profile. -/
def shown (value : List Char → List Char) (present : List AudioDevice)
    (p : ConnectionProfile Char) : ProfileDialog where
  addr := value p.deviceAddress
  devname := value p.deviceName
  codec := { count := 3, selection := some (codecToIndex p.codec) }
  quality := { count := 3, selection := some (qualityToIndex p.quality) }
  sampleRate := ({
    count := rateCount (some (codecToIndex p.codec))
    selection := some 0 } : Choice).selectIfAny (sampleRateToIndex p.sampleRate)
  bitDepth := { count := 4, selection := some (bitDepthToIndex p.bitDepth) }
  capture := { count := 2, selection := some (captureModeToIndex p.captureMode) }
  audioDev := if p.captureMode = virtualDevice then audioChoice present p.audioDeviceId else {}
  audioDevices := if p.captureMode = virtualDevice then present else []
  autoSwitch := p.autoSwitchDevice

/-- The stored device is selected among those that are present. -/
theorem selectAudioDevice_eq (present : List AudioDevice) (id : List Char) (d : ProfileDialog)
    (hdevices : d.audioDevices = present) (hdev : d.audioDev = audioChoice present []) :
  selectAudioDevice id d = { d with audioDev := audioChoice present id }
  := by
  subst hdevices
  rw [selectAudioDevice]
  split
  next h =>
    rw [h, ← hdev]
  next h =>
    cases hfind : d.audioDevices.findIdx? (·.id = id) with
    | none =>
        have hsame : audioChoice d.audioDevices id = audioChoice d.audioDevices [] := by
          simp [audioChoice, hfind]
        rw [hsame, ← hdev]
    | some i =>
        have hne : d.audioDevices ≠ [] := by
          intro hnil
          rw [hnil] at hfind
          contradiction
        simp [hdev, audioChoice, Choice.select, h, hfind, hne]

theorem populateFromProfile_eq (value : List Char → List Char) (present : List AudioDevice)
    (p : ConnectionProfile Char) :
  populateFromProfile value present p {} = shown value present p
  := by
  have hbits := bitDepthToIndex_lt p.bitDepth
  by_cases hmode : p.captureMode = virtualDevice
  · have hone := captureModeToIndex_eq_one.mpr hmode
    rw [populateFromProfile, updateCodecDependent, if_pos, selectAudioDevice_eq present]
    · simp [shown, hmode, Choice.select, Choice.rebuild_self, qualityToIndex_lt,
        Choice.rebuild_none, Choice.selectIfAny_of_lt, hbits]
    · rfl
    · simp [audioChoice]
    · simp [Choice.select, hone]
  · have hzero : captureModeToIndex p.captureMode ≠ 1 := by
      rw [Ne, captureModeToIndex_eq_one]
      apply hmode
    rw [populateFromProfile, updateCodecDependent, if_neg]
    · have hnone : ∀ d : ProfileDialog, d.audioDevices = [] →
          selectAudioDevice p.audioDeviceId d = d := by
        intro d hd
        simp [selectAudioDevice, hd]
      rw [hnone _ rfl]
      simp [shown, hmode, Choice.select, Choice.rebuild_self, qualityToIndex_lt,
        Choice.rebuild_none, Choice.selectIfAny_of_lt, hbits]
    · simp [Choice.select, hzero]

/-- A control of sample rates keeps its selection. -/
theorem rebuild_rates (codec : Option Nat) (index : Nat) :
  (({ count := rateCount codec, selection := some 0 } : Choice).selectIfAny index).rebuild
      (rateCount codec)
    = ({ count := rateCount codec, selection := some 0 } : Choice).selectIfAny index
  := by
  have hpos : 0 < rateCount codec := by
    rw [rateCount]
    split <;> decide
  rw [Choice.selectIfAny]
  split
  next h => apply Choice.rebuild_select h
  next => apply Choice.rebuild_self hpos

/-- The dialog looks the same when its controls are filled once more. -/
theorem create_some (value : List Char → List Char) (present : List AudioDevice)
    (p : ConnectionProfile Char) :
  create value present (some p) = shown value present p
  := by
  have hempty : audioChoice [] p.audioDeviceId = {} := by
    simp [audioChoice]
  have hbits := bitDepthToIndex_lt p.bitDepth
  rw [create, populateFromProfile_eq, updateCodecDependent]
  split
  next h =>
    obtain ⟨hvirtual, hcount⟩ := h
    have hmode := captureModeToIndex_eq_one.mp (Option.some.inj hvirtual)
    obtain rfl : present = [] := by
      simpa [shown, hmode, audioChoice] using hcount
    simp [shown, hmode, hempty, Choice.rebuild_self, qualityToIndex_lt, hbits, rebuild_rates]
  next =>
    simp [shown, Choice.rebuild_self, qualityToIndex_lt, hbits, rebuild_rates]

/-- The item that is selected is the stored device, or the first one if that is not present. -/
theorem selection_audioChoice (present : List AudioDevice) (id : List Char) :
  (audioChoice present id).selection.bind (present[·]?)
    = (if id = [] then none else present.find? (·.id = id)).or present.head?
  := by
  cases present with
  | nil => simp [audioChoice]
  | cons first rest =>
      by_cases hid : id = []
      · simp [audioChoice, hid]
      · have hfind := @List.find?_eq_bind_findIdx?_getElem? _ (first :: rest)
          (fun d => decide (d.id = id))
        cases hindex : (first :: rest).findIdx? (·.id = id) with
        | none =>
            rw [hindex] at hfind
            simp [audioChoice, hid, hindex, hfind]
        | some i =>
            rw [hindex] at hfind
            obtain ⟨hi, -⟩ := List.findIdx?_eq_some_iff_getElem.mp hindex
            simp only [audioChoice, hid, hindex, hfind]
            simp [List.getElem?_eq_getElem hi]

/-- The audio device `OnSave` takes. -/
theorem audioDevice_shown (value : List Char → List Char) (present : List AudioDevice)
    (p : ConnectionProfile Char) :
  (shown value present p).audioDevice
    = if p.captureMode = virtualDevice then
        (if p.audioDeviceId = [] then none else present.find? (·.id = p.audioDeviceId)).or
          present.head?
      else none
  := by
  rw [audioDevice]
  by_cases hmode : p.captureMode = virtualDevice
  · have hone := captureModeToIndex_eq_one.mpr hmode
    simp only [shown, hmode, if_true]
    rw [← hmode, hone, if_pos rfl, selection_audioChoice]
  · have hone := mt captureModeToIndex_eq_one.mp hmode
    simp [shown, hmode, hone]

/-- The audio device is kept when the dialog takes the stored one, or there is none to take. -/
theorem audioDeviceId_iff (value : List Char → List Char) (present : List AudioDevice)
    (p : ConnectionProfile Char) :
  ((shown value present p).audioDevice.map AudioDevice.id).getD [] = p.audioDeviceId
    ↔ TakesDevice present p
  := by
  rw [audioDevice_shown, TakesDevice]
  split
  · split
    next hid =>
      rw [Option.none_or, hid]
      cases present.head? with
      | none => simp
      | some d => simp
    next hid =>
      cases hfind : present.find? (·.id = p.audioDeviceId) with
      | none =>
          have hnone : ∀ d ∈ present, d.id ≠ p.audioDeviceId := by
            simpa using hfind
          rw [Option.none_or, List.mem_map]
          constructor
          · cases hhead : present.head? with
            | none =>
                intro hempty
                exact absurd hempty.symm hid
            | some d =>
                intro hd
                exact ⟨d, List.mem_of_head? hhead, hd⟩
          · rintro ⟨d, hd, hsame⟩
            exact absurd hsame (hnone d hd)
      | some d =>
          have hsame : d.id = p.audioDeviceId := by
            simpa using List.find?_some hfind
          rw [Option.some_or, ← hsame]
          constructor
          · intro _
            apply List.mem_map_of_mem (List.mem_of_find?_eq_some hfind)
          · intro _
            rfl
  · constructor
    · intro hempty
      apply hempty.symm
    · intro hempty
      apply hempty.symm

/-- The dialog takes the stored device if that is present. -/
theorem audioDevice_of_find? (value : List Char → List Char) {present : List AudioDevice}
    {p : ConnectionProfile Char} {d : AudioDevice} (hmode : p.captureMode = virtualDevice)
    (htakes : TakesDevice present p)
    (hfind : present.find? (·.id = p.audioDeviceId) = some d) :
  (shown value present p).audioDevice = some d
  := by
  rw [TakesDevice, if_pos hmode] at htakes
  rw [audioDevice_shown, if_pos hmode]
  split
  next hid =>
    rw [if_pos hid] at htakes
    rw [Option.none_or]
    cases present with
    | nil => contradiction
    | cons first rest =>
        have hfirst : first.id = [] := htakes first rfl
        rw [hid, List.find?_cons_of_pos (by simp [hfirst])] at hfind
        apply hfind
  next => rw [hfind, Option.some_or]

/-- What the dialog makes of a profile that it saves. -/
theorem onSave_create {value : List Char → List Char} (present : List AudioDevice)
    {p : ConnectionProfile Char} (hsaves : Saves value p) :
  ∃ q, (create value present (some p)).onSave = some q
    ∧ (Kept value present p q ↔ Survives present p)
  := by
  have hnot : ¬ ((shown value present p).addr = []
      ∨ validateAddress (shown value present p).addr = false) := by
    rw [not_or, Bool.not_eq_false]
    apply hsaves
  rw [create_some, onSave, if_neg hnot]
  refine ⟨_, rfl, ?_⟩
  constructor
  · intro h
    constructor
    · apply h.linkKey.symm
    · apply h.linkKeyType.symm
    · apply h.bitrateKbps.symm
    · apply (audioDeviceId_iff value present p).mp h.audioDeviceId
  · intro h
    constructor
    · apply h.linkKey.symm
    · apply h.linkKeyType.symm
    · apply h.bitrateKbps.symm
    · intro hvalue
      apply hvalue
    · intro hvalue
      simp [shown, hvalue]
    · intro hcodec
      apply indexToCodec_codecToIndex hcodec
    · intro hquality
      apply indexToQuality_qualityToIndex hquality
    · intro hrate
      rw [offeredRates] at hrate
      simp [shown, Choice.selectIfAny, Choice.select, sampleRateToIndex_lt hrate,
        rateValues_sampleRateToIndex (List.mem_of_mem_take hrate)]
    · intro hbits
      simp [shown, bdValues_bitDepthToIndex hbits]
    · intro hmode
      apply indexToCaptureMode_captureModeToIndex hmode
    · rfl
    · apply (audioDeviceId_iff value present p).mpr h.device
    · intro hmode hname
      obtain ⟨d, hd, hname⟩ := Option.map_eq_some_iff.mp hname
      simp [audioDevice_of_find? value hmode h.device hd, hname]

/-- The dialog does not save a profile whose address it does not take, and nothing where there is
no profile. -/
theorem edit_of_not_saves {value : List Char → List Char} {present : List AudioDevice}
    {profiles : List (ConnectionProfile Char)} {index : Nat}
    (h : ∀ p, profiles[index]? = some p → ¬ Saves value p) :
  edit value present profiles index = profiles
  := by
  rw [edit]
  cases hindex : profiles[index]? with
  | none => rfl
  | some p =>
      have hnot : (shown value present p).addr = []
          ∨ validateAddress (shown value present p).addr = false := by
        by_contra hnot
        rw [not_or, Bool.not_eq_false] at hnot
        exact h p hindex hnot
      rw [create_some, onSave, if_pos hnot]

/-- The dialog replaces a profile whose address it takes. -/
theorem edit_of_saves {value : List Char → List Char} (present : List AudioDevice)
    {profiles : List (ConnectionProfile Char)} {index : Nat} {p : ConnectionProfile Char}
    (hindex : profiles[index]? = some p) (hsaves : Saves value p) :
  ∃ q, edit value present profiles index = profiles.set index q
    ∧ (Kept value present p q ↔ Survives present p)
  := by
  obtain ⟨q, hq, hkept⟩ := onSave_create present hsaves
  obtain ⟨hlt, -⟩ := List.getElem?_eq_some_iff.mp hindex
  use q
  constructor
  · rw [edit, hindex, hq]
    apply if_neg
    omega
  · apply hkept

theorem kept_self (value : List Char → List Char) (present : List AudioDevice)
    (p : ConnectionProfile Char) :
  Kept value present p p
  := by
  constructor <;> intros <;> rfl

/-- Editing a profile without touching a control keeps what it does not edit when the dialog does
not save the profile, or when there is nothing in the profile that the dialog drops, and only
then. -/
theorem editLaw_iff (value : List Char → List Char) (present : List AudioDevice)
    (profiles : List (ConnectionProfile Char)) (index : Nat) :
  EditLaw value present profiles (edit value present profiles index) index
    ↔ ∀ p, profiles[index]? = some p → Saves value p → Survives present p
  := by
  constructor
  · intro h p hindex hsaves
    obtain ⟨q, hedit, hkept⟩ := edit_of_saves present hindex hsaves
    obtain ⟨hlt, -⟩ := List.getElem?_eq_some_iff.mp hindex
    apply hkept.mp
    apply h.edited p q hindex
    rw [hedit, List.getElem?_set_self hlt]
  · intro h
    by_cases hsaves : ∃ p, profiles[index]? = some p ∧ Saves value p
    · obtain ⟨p, hindex, hsaves⟩ := hsaves
      obtain ⟨q, hedit, hkept⟩ := edit_of_saves present hindex hsaves
      obtain ⟨hlt, -⟩ := List.getElem?_eq_some_iff.mp hindex
      rw [hedit]
      constructor
      · apply List.length_set
      · intro i hi
        apply List.getElem?_set_ne hi.symm
      · intro p' q' hp' hq'
        rw [hindex] at hp'
        rw [List.getElem?_set_self hlt] at hq'
        obtain rfl := Option.some.inj hp'
        obtain rfl := Option.some.inj hq'
        apply hkept.mpr (h p hindex hsaves)
    · rw [edit_of_not_saves (fun p hindex hp => hsaves ⟨p, hindex, hp⟩)]
      constructor
      · rfl
      · intro i _
        rfl
      · intro p q hp hq
        rw [hp] at hq
        obtain rfl := Option.some.inj hq
        apply kept_self

/-- A profile that has been paired: it has a link key. -/
def pairedProfile : ConnectionProfile Char where
  name := "Buds SSC".toList
  deviceAddress := "AA:BB:CC:DD:EE:FF".toList
  deviceName := "Buds".toList
  codec := "ssc".toList
  quality := "hq".toList
  captureMode := "loopback".toList
  linkKey := "00112233445566778899AABBCCDDEEFF".toList

/-- The dialog drops the link key. -/
theorem not_editLaw_pairedProfile :
  ¬ EditLaw id [] [pairedProfile] (edit id [] [pairedProfile] 0) 0
  := by
  intro h
  have hedit : (edit id [] [pairedProfile] 0)[0]?
      = some { pairedProfile with linkKey := [] } := by
    decide
  have hkey := (h.edited _ _ rfl hedit).linkKey
  contradiction

end ProfileDialog

end Ssc
