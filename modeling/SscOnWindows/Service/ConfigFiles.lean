import Mathlib.Tactic
import SscOnWindows.Lib.JsonText
import SscOnWindows.Service.ProfileStore

/-!
# The configuration files

`ProfileManager` keeps its profiles in `profiles.json`, and `AppSettings` its fields in
`settings.json`.  Both write a document that a JSON library prints, and read one that it parses.
Strings are bytes here, as names come from remote devices, and numbers have the width they have in
the code.  A file has the text that a stream reads from it, and no text if there is no file.
-/

namespace Ssc

open Json

variable {F : Type}

/-! ### Profiles -/

namespace ConnectionProfile

/-- The strings of the profile. -/
def strings (p : ConnectionProfile UInt8) : List (List UInt8) :=
  [p.name, p.deviceAddress, p.deviceName, p.codec, p.quality, p.captureMode, p.audioDeviceId,
    p.audioDeviceName, p.linkKey]

/-- The strings of the profile are UTF-8. -/
def Utf8 (p : ConnectionProfile UInt8) : Prop :=
  ∀ s ∈ p.strings, IsUtf8 s

/-- The members of the profile's entry in the file. -/
def members (p : ConnectionProfile UInt8) : List (String × Json F) := [
  ("name", .string p.name),
  ("device_address", .string p.deviceAddress),
  ("device_name", .string p.deviceName),
  ("codec", .string p.codec),
  ("quality", .string p.quality),
  ("bitrate_kbps", .integer p.bitrateKbps.toNat),
  ("sample_rate", .integer p.sampleRate.toNat),
  ("bit_depth", .integer p.bitDepth.toNat),
  ("capture_mode", .string p.captureMode),
  ("audio_device_id", .string p.audioDeviceId),
  ("audio_device_name", .string p.audioDeviceName),
  ("auto_switch_device", .boolean p.autoSwitchDevice),
  ("link_key", .string p.linkKey),
  ("link_key_type", .integer p.linkKeyType.toInt)]

/-- The entry of the profile in the file. -/
def toJson (p : ConnectionProfile UInt8) : Json F :=
  mkObject p.members

/-- The profile of an entry in the file. -/
def ofJson (lib : JsonLibrary F) (item : Json F) : Except JsonError (ConnectionProfile UInt8) := do
  let name ← lib.value .string item "name" (utf8 "")
  let deviceAddress ← lib.value .string item "device_address" (utf8 "")
  let deviceName ← lib.value .string item "device_name" (utf8 "")
  let codec ← lib.value .string item "codec" (utf8 "ssc")
  let quality ← lib.value .string item "quality" (utf8 "hq")
  let bitrateKbps ← lib.value .uint32 item "bitrate_kbps" 0
  let sampleRate ← lib.value .uint32 item "sample_rate" 0
  let bitDepth ← lib.value .uint32 item "bit_depth" 0
  let captureMode ← lib.value .string item "capture_mode" (utf8 "loopback")
  let audioDeviceId ← lib.value .string item "audio_device_id" (utf8 "")
  let audioDeviceName ← lib.value .string item "audio_device_name" (utf8 "")
  let autoSwitchDevice ← lib.value .boolean item "auto_switch_device" true
  let linkKey ← lib.value .string item "link_key" (utf8 "")
  let linkKeyType ← lib.value .int item "link_key_type" 0
  pure { name, deviceAddress, deviceName, codec, quality, bitrateKbps, sampleRate, bitDepth,
         captureMode, audioDeviceId, audioDeviceName, autoSwitchDevice, linkKey, linkKeyType }

/-- The members of an entry, with the types they are read as. -/
def fields : List (String × ValueType) := [
  ("name", .string), ("device_address", .string), ("device_name", .string), ("codec", .string),
  ("quality", .string), ("bitrate_kbps", .uint32), ("sample_rate", .uint32),
  ("bit_depth", .uint32), ("capture_mode", .string), ("audio_device_id", .string),
  ("audio_device_name", .string), ("auto_switch_device", .boolean), ("link_key", .string),
  ("link_key_type", .int)]

/-- The profile of an entry, with the defaults where a member cannot be read. -/
def ofEntry (lib : JsonLibrary F) (item : Json F) : ConnectionProfile UInt8 where
  name := lib.valueOr .string item "name" (utf8 "")
  deviceAddress := lib.valueOr .string item "device_address" (utf8 "")
  deviceName := lib.valueOr .string item "device_name" (utf8 "")
  codec := lib.valueOr .string item "codec" (utf8 "ssc")
  quality := lib.valueOr .string item "quality" (utf8 "hq")
  bitrateKbps := lib.valueOr .uint32 item "bitrate_kbps" 0
  sampleRate := lib.valueOr .uint32 item "sample_rate" 0
  bitDepth := lib.valueOr .uint32 item "bit_depth" 0
  captureMode := lib.valueOr .string item "capture_mode" (utf8 "loopback")
  audioDeviceId := lib.valueOr .string item "audio_device_id" (utf8 "")
  audioDeviceName := lib.valueOr .string item "audio_device_name" (utf8 "")
  autoSwitchDevice := lib.valueOr .boolean item "auto_switch_device" true
  linkKey := lib.valueOr .string item "link_key" (utf8 "")
  linkKeyType := lib.valueOr .int item "link_key_type" 0

variable {lib : JsonLibrary F}

/-- An entry is read if and only if it has the types. -/
theorem ofJson_ok_iff (hlib : lib.Lawful) (item : Json F) :
  (∃ p, ofJson lib item = .ok p) ↔ item.typed fields = true
  := by
  simp only [ofJson, exists_bind_ok_iff, exists_and_right, hlib.value_ok_iff .string,
    hlib.value_ok_iff .uint32, hlib.value_ok_iff .boolean, hlib.value_ok_iff .int,
    exists_pure_ok, and_true]
  simp only [typed, fields, List.all_cons, List.all_nil, Bool.and_eq_true, and_true]
  cases item.isObject with
  | false => simp
  | true => simp

/-- An entry of the types is read member by member. -/
theorem ofJson_of_typed (hlib : lib.Lawful) {item : Json F} (h : item.typed fields = true) :
  ofJson lib item = .ok (ofEntry lib item)
  := by
  have hvalue : ∀ {type key} (default : type.Carrier), (key, type) ∈ fields →
      lib.value type item key default = .ok (lib.valueOr type item key default) :=
    fun default hmem => hlib.value_of_typed h hmem default
  simp (disch := decide) only [ofJson, hvalue, bind, Except.bind, pure, Except.pure]
  rfl

/-- The strings of an entry are kept as they are. -/
theorem utf8_ofEntry (hlib : lib.Lawful) {item : Json F} (h : item.Utf8) :
  (ofEntry lib item).Utf8
  := by
  have hvalue : ∀ key text, IsUtf8 (lib.valueOr .string item key (utf8 text)) :=
    fun key text => hlib.isUtf8_valueOr h key (isUtf8_utf8 text)
  simp [Utf8, strings, ofEntry, hvalue]

theorem members_keys (p : ConnectionProfile UInt8) :
  ((p.members : List (String × Json F)).map Prod.fst).Nodup
  := by
  simp [members]

theorem utf8_toJson (p : ConnectionProfile UInt8) :
  (p.toJson : Json F).Utf8 ↔ p.Utf8
  := by
  simp [toJson, members, Utf8, strings]

theorem plain_toJson (p : ConnectionProfile UInt8) :
  (p.toJson : Json F).Plain
  := by
  apply plain_mkObject p.members_keys
  have hle := p.linkKeyType.le_toInt
  have hlt := p.linkKeyType.toInt_lt
  have hbitrate := p.bitrateKbps.toNat_lt
  have hrate := p.sampleRate.toNat_lt
  have hdepth := p.bitDepth.toNat_lt
  simp only [members, List.forall_mem_cons, List.not_mem_nil, false_implies, implies_true,
    plain_string, plain_boolean, plain_integer, true_and, and_true]
  omega

/-- A profile is read back from its entry. -/
theorem ofJson_toJson (hlib : lib.Lawful) (p : ConnectionProfile UInt8) :
  ofJson lib p.toJson = .ok p
  := by
  have hkeys := p.members_keys (F := F)
  have hs := hlib.value_string_of_mem hkeys
  have hu := hlib.value_uint32_of_mem hkeys
  have hb := hlib.value_boolean_of_mem hkeys
  have hi := hlib.value_int_of_mem hkeys
  simp only [ofJson, toJson, bind, Except.bind, pure, Except.pure]
  rw [hs "name" p.name (by simp [members]),
    hs "device_address" p.deviceAddress (by simp [members]),
    hs "device_name" p.deviceName (by simp [members]),
    hs "codec" p.codec (by simp [members]),
    hs "quality" p.quality (by simp [members]),
    hu "bitrate_kbps" p.bitrateKbps (by simp [members]),
    hu "sample_rate" p.sampleRate (by simp [members]),
    hu "bit_depth" p.bitDepth (by simp [members]),
    hs "capture_mode" p.captureMode (by simp [members]),
    hs "audio_device_id" p.audioDeviceId (by simp [members]),
    hs "audio_device_name" p.audioDeviceName (by simp [members]),
    hb "auto_switch_device" p.autoSwitchDevice (by simp [members]),
    hs "link_key" p.linkKey (by simp [members]),
    hi "link_key_type" p.linkKeyType (by simp [members])]

end ConnectionProfile

namespace Config

/-! ### Files -/

/-- The `ofstream` of a `save`: opened, it has emptied the file before the document is printed. -/
def write (lib : JsonLibrary F) (j : Json F) : Except JsonError Unit × List UInt8 :=
  match lib.dump j with
  | .ok text => (.ok (), text ++ [10])
  | .error e => (.error e, [])

/-- The `save` of a document in a file, which is left alone if it does not open. -/
def saveFile (lib : JsonLibrary F) (j : Json F) (opens : Bool) (file : Option (List UInt8)) :
    Except JsonError Unit × Option (List UInt8) :=
  if opens then ((write lib j).1, some (write lib j).2) else (.ok (), file)

namespace ProfileManager

open ConnectionProfile

/-- The profiles of the entries, up to the first that cannot be read. -/
def loadItems (lib : JsonLibrary F) : List (Json F) → List (ConnectionProfile UInt8)
  | [] => []
  | item :: items =>
      match ofJson lib item with
      | .error _ => []
      | .ok p => if p.named then p :: loadItems lib items else loadItems lib items

/-- The entries of a text. -/
def entries (lib : JsonLibrary F) (text : List UInt8) : List (Json F) :=
  match lib.parse text with
  | .error _ => []
  | .ok j =>
      match j.find? "profiles" with
      | some (.array items) => items
      | _ => []

/-- `load`. -/
def load (lib : JsonLibrary F) : Option (List UInt8) → List (ConnectionProfile UInt8)
  | none => []
  | some text => loadItems lib (entries lib text)

/-- The document of the profiles. -/
def document (profiles : List (ConnectionProfile UInt8)) : Json F :=
  mkObject [("profiles", .array (profiles.map toJson))]

/-- `save`. -/
def save (lib : JsonLibrary F) (profiles : List (ConnectionProfile UInt8)) (opens : Bool)
    (file : Option (List UInt8)) : Except JsonError Unit × Option (List UInt8) :=
  saveFile lib (document profiles) opens file

end ProfileManager

/-! ### Settings -/

/-- `AppSettings`. -/
structure AppSettings where
  language : List UInt8 := utf8 "en"
  theme : List UInt8 := utf8 "dark"
  startWithWindows : Bool := false
  startMinimized : Bool := false
  minimizeToTray : Bool := true
  autoConnectOnStart : Bool := false
  debugMode : Bool := false
  btChipPid : UInt16 := 0
  btChipFwStem : List UInt8 := []
  lastProfile : List UInt8 := []
  lastDeviceMac : List UInt8 := []
  lastDeviceName : List UInt8 := []
  deriving DecidableEq

namespace AppSettings

/-- The strings of the settings. -/
def strings (s : AppSettings) : List (List UInt8) :=
  [s.language, s.theme, s.btChipFwStem, s.lastProfile, s.lastDeviceMac, s.lastDeviceName]

/-- The strings of the settings are UTF-8. -/
def Utf8 (s : AppSettings) : Prop :=
  ∀ t ∈ s.strings, IsUtf8 t

/-- `static_cast<int>(bt_chip_pid)`. -/
def chipPid (s : AppSettings) : Int32 :=
  .ofNat s.btChipPid.toNat

/-- The members of the document. -/
def members (s : AppSettings) : List (String × Json F) := [
  ("language", .string s.language),
  ("theme", .string s.theme),
  ("start_with_windows", .boolean s.startWithWindows),
  ("start_minimized", .boolean s.startMinimized),
  ("minimize_to_tray", .boolean s.minimizeToTray),
  ("auto_connect_on_start", .boolean s.autoConnectOnStart),
  ("debug_mode", .boolean s.debugMode),
  ("bt_chip_pid", .integer s.chipPid.toInt),
  ("bt_chip_fw_stem", .string s.btChipFwStem),
  ("last_profile", .string s.lastProfile),
  ("last_device_mac", .string s.lastDeviceMac),
  ("last_device_name", .string s.lastDeviceName)]

/-- The document of the settings. -/
def document (s : AppSettings) : Json F :=
  mkObject s.members

/-- The fields are read from a document. -/
def ofJson (lib : JsonLibrary F) (s : AppSettings) (j : Json F) :
    Except JsonError AppSettings := do
  let language ← lib.value .string j "language" s.language
  let theme ← lib.value .string j "theme" s.theme
  let startWithWindows ← lib.value .boolean j "start_with_windows" s.startWithWindows
  let startMinimized ← lib.value .boolean j "start_minimized" s.startMinimized
  let minimizeToTray ← lib.value .boolean j "minimize_to_tray" s.minimizeToTray
  let autoConnectOnStart ← lib.value .boolean j "auto_connect_on_start" s.autoConnectOnStart
  let debugMode ← lib.value .boolean j "debug_mode" s.debugMode
  let btChipPid ← lib.value .int j "bt_chip_pid" s.chipPid
  let btChipFwStem ← lib.value .string j "bt_chip_fw_stem" s.btChipFwStem
  let lastProfile ← lib.value .string j "last_profile" s.lastProfile
  let lastDeviceMac ← lib.value .string j "last_device_mac" s.lastDeviceMac
  let lastDeviceName ← lib.value .string j "last_device_name" s.lastDeviceName
  pure { language, theme, startWithWindows, startMinimized, minimizeToTray, autoConnectOnStart,
         debugMode, btChipPid := .ofInt btChipPid.toInt, btChipFwStem, lastProfile,
         lastDeviceMac, lastDeviceName }

/-- The members of the document, with the types they are read as. -/
def fields : List (String × ValueType) := [
  ("language", .string), ("theme", .string), ("start_with_windows", .boolean),
  ("start_minimized", .boolean), ("minimize_to_tray", .boolean),
  ("auto_connect_on_start", .boolean), ("debug_mode", .boolean), ("bt_chip_pid", .int),
  ("bt_chip_fw_stem", .string), ("last_profile", .string), ("last_device_mac", .string),
  ("last_device_name", .string)]

/-- `load`: only a `parse_error` is caught. -/
def load (lib : JsonLibrary F) (s : AppSettings) :
    Option (List UInt8) → Except JsonError AppSettings
  | none => .ok s
  | some text =>
      match lib.read text with
      | .error .parseError => .ok s
      | .error e => .error e
      | .ok j => ofJson lib s j

/-- `save`. -/
def save (lib : JsonLibrary F) (s : AppSettings) (opens : Bool) (file : Option (List UInt8)) :
    Except JsonError Unit × Option (List UInt8) :=
  saveFile lib s.document opens file

variable {lib : JsonLibrary F}

/-- A document is read if and only if it has the types. -/
theorem ofJson_ok_iff (hlib : lib.Lawful) (s : AppSettings) (j : Json F) :
  (∃ t, ofJson lib s j = .ok t) ↔ j.typed fields = true
  := by
  simp only [ofJson, exists_bind_ok_iff, exists_and_right, hlib.value_ok_iff .string,
    hlib.value_ok_iff .boolean, hlib.value_ok_iff .int, exists_pure_ok, and_true]
  simp only [typed, fields, List.all_cons, List.all_nil, Bool.and_eq_true, and_true]
  cases j.isObject with
  | false => simp
  | true => simp

theorem members_keys (s : AppSettings) :
  ((s.members : List (String × Json F)).map Prod.fst).Nodup
  := by
  simp [members]

theorem utf8_document (s : AppSettings) :
  (s.document : Json F).Utf8 ↔ s.Utf8
  := by
  simp [document, members, Utf8, strings]

theorem plain_document (s : AppSettings) :
  (s.document : Json F).Plain
  := by
  apply plain_mkObject s.members_keys
  have hle := s.chipPid.le_toInt
  have hlt := s.chipPid.toInt_lt
  simp only [members, List.forall_mem_cons, List.not_mem_nil, false_implies, implies_true,
    plain_string, plain_boolean, plain_integer, true_and, and_true]
  omega

/-- The chip is kept when it is read as an `int`. -/
theorem ofInt_chipPid (s : AppSettings) :
  UInt16.ofInt s.chipPid.toInt = s.btChipPid
  := by
  have hlt := s.btChipPid.toNat_lt
  rw [chipPid, Int32.toInt_ofNat_of_lt (by omega)]
  rw [UInt16.ofInt, Int.emod_eq_of_lt (by omega) (by omega), Int.toNat_natCast, UInt16.ofNat_toNat]

/-- The settings are read back from their document. -/
theorem ofJson_document (hlib : lib.Lawful) (fresh s : AppSettings) :
  ofJson lib fresh s.document = .ok s
  := by
  have hkeys := s.members_keys (F := F)
  have hs := hlib.value_string_of_mem hkeys
  have hb := hlib.value_boolean_of_mem hkeys
  have hi := hlib.value_int_of_mem hkeys
  simp only [ofJson, document, bind, Except.bind, pure, Except.pure]
  rw [hs "language" s.language (by simp [members]),
    hs "theme" s.theme (by simp [members]),
    hb "start_with_windows" s.startWithWindows (by simp [members]),
    hb "start_minimized" s.startMinimized (by simp [members]),
    hb "minimize_to_tray" s.minimizeToTray (by simp [members]),
    hb "auto_connect_on_start" s.autoConnectOnStart (by simp [members]),
    hb "debug_mode" s.debugMode (by simp [members]),
    hi "bt_chip_pid" s.chipPid (by simp [members]),
    hs "bt_chip_fw_stem" s.btChipFwStem (by simp [members]),
    hs "last_profile" s.lastProfile (by simp [members]),
    hs "last_device_mac" s.lastDeviceMac (by simp [members]),
    hs "last_device_name" s.lastDeviceName (by simp [members])]
  simp only [ofInt_chipPid]

end AppSettings

/-! ### What is written is read back -/

variable {lib : JsonLibrary F}

/-- A document whose strings are UTF-8 is written. -/
theorem saveFile_of_utf8 (hlib : lib.Lawful) {j : Json F} (hj : j.Utf8)
    (file : Option (List UInt8)) :
  ∃ text, lib.dump j = .ok text ∧ saveFile lib j true file = (.ok (), some (text ++ [10]))
  := by
  obtain ⟨text, htext⟩ := (hlib.dump_ok_iff j).mpr hj
  use text, htext
  rw [saveFile, if_pos rfl, write, htext]

/-- A document with a string that is not UTF-8 leaves an empty file. -/
theorem saveFile_of_not_utf8 (hlib : lib.Lawful) {j : Json F} (hj : ¬ j.Utf8)
    (file : Option (List UInt8)) :
  (saveFile lib j true file).2 = some []
  := by
  rw [saveFile, if_pos rfl, write]
  split
  case h_1 text htext => apply absurd ((hlib.dump_ok_iff j).mp ⟨text, htext⟩) hj
  case h_2 => rfl

namespace ProfileManager

open ConnectionProfile

theorem utf8_document (profiles : List (ConnectionProfile UInt8)) :
  (document profiles : Json F).Utf8 ↔ ∀ p ∈ profiles, p.Utf8
  := by
  simp [document, utf8_toJson]

theorem plain_document (profiles : List (ConnectionProfile UInt8)) :
  (document profiles : Json F).Plain
  := by
  apply plain_mkObject (by simp)
  simp [plain_toJson]

/-- The profiles are read back from their entries, where they have a name and an address. -/
theorem loadItems_toJson (hlib : lib.Lawful) (profiles : List (ConnectionProfile UInt8)) :
  loadItems lib (profiles.map toJson) = profiles.filter named
  := by
  induction profiles with
  | nil => rfl
  | cons p profiles ih =>
      rw [List.map_cons, loadItems, ofJson_toJson hlib, List.filter_cons, ih]

/-- What is saved is loaded, where it has a name and an address. -/
theorem load_save (hlib : lib.Lawful) {profiles : List (ConnectionProfile UInt8)}
    (hutf8 : ∀ p ∈ profiles, p.Utf8) (file : Option (List UInt8)) :
  load lib (save lib profiles true file).2 = profiles.filter named
  := by
  obtain ⟨text, htext, hsave⟩ := saveFile_of_utf8 hlib ((utf8_document profiles).mpr hutf8) file
  have hparse := hlib.parse_dump _ text (plain_document profiles) htext
  have hfind : (document profiles : Json F).find? "profiles"
      = some (.array (profiles.map toJson)) := by
    apply find?_mkObject_of_mem (by simp) List.mem_cons_self
  rw [save, hsave, load, entries, hparse]
  dsimp only
  rw [hfind]
  apply loadItems_toJson hlib

/-- The store of the profiles loads what the file loads. -/
theorem load_save_profiles (hlib : lib.Lawful) {profiles : Profiles UInt8}
    (hutf8 : ∀ e ∈ profiles, e.profile.Utf8) (file : Option (List UInt8)) :
  load lib (save lib (profiles.map StoredProfile.profile) true file).2
    = profiles.load.map StoredProfile.profile
  := by
  rw [load_save hlib (List.forall_mem_map.mpr hutf8), List.filter_map]
  rfl

/-- An empty file has no profiles. -/
theorem load_nil (hlib : lib.Lawful) :
  load lib (some []) = []
  := by
  rw [load, entries, hlib.parse_nil, loadItems]

end ProfileManager

namespace AppSettings

/-- What is saved is loaded. -/
theorem load_save (hlib : lib.Lawful) {s : AppSettings} (hs : s.Utf8)
    (file : Option (List UInt8)) (fresh : AppSettings) :
  load lib fresh (save lib s true file).2 = .ok s
  := by
  obtain ⟨text, htext, hsave⟩ := saveFile_of_utf8 hlib ((utf8_document s).mpr hs) file
  rw [save, hsave, load, hlib.read_dump _ text (plain_document s) htext]
  apply ofJson_document hlib

end AppSettings

/-- A saved configuration is loaded as it was. -/
theorem load_saved (hlib : lib.Lawful) {profiles : List (ConnectionProfile UInt8)}
    (hprofiles : ∀ p ∈ profiles, p.Utf8 ∧ p.named = true) {settings : AppSettings}
    (hsettings : settings.Utf8) (profilesFile settingsFile : Option (List UInt8))
    (fresh : AppSettings) :
  ProfileManager.load lib (ProfileManager.save lib profiles true profilesFile).2 = profiles
    ∧ AppSettings.load lib fresh (AppSettings.save lib settings true settingsFile).2
      = .ok settings
  := by
  constructor
  · rw [ProfileManager.load_save hlib fun p hp => (hprofiles p hp).1, List.filter_eq_self]
    intro p hp
    apply (hprofiles p hp).2
  · apply AppSettings.load_save hlib hsettings

/-- A profile and settings with accented names, where there were no files. -/
theorem load_saved_accents :
  ProfileManager.load textLibrary (ProfileManager.save textLibrary
      [{ name := utf8 "Café SSC", deviceAddress := utf8 "00:11:22:33:44:55",
         linkKeyType := -1 }] true none).2
    = [{ name := utf8 "Café SSC", deviceAddress := utf8 "00:11:22:33:44:55",
         linkKeyType := -1 }]
    ∧ AppSettings.load textLibrary { theme := utf8 "light" } (AppSettings.save textLibrary
      { lastDeviceName := utf8 "Café", btChipPid := 0x8771 } true none).2
      = .ok { lastDeviceName := utf8 "Café", btChipPid := 0x8771 }
  := by
  apply load_saved textLibrary_lawful
  · simp [ConnectionProfile.Utf8, ConnectionProfile.strings, isUtf8_utf8, isUtf8_nil]
    decide
  · simp [AppSettings.Utf8, AppSettings.strings, isUtf8_utf8, isUtf8_nil]

/-! ### All or nothing -/

/-- The file stays as it is, or it becomes one from which the profiles are loaded. -/
def ProfileManager.AllOrNothing (lib : JsonLibrary F)
    (profiles : List (ConnectionProfile UInt8)) : Prop :=
  ∀ file, (save lib profiles true file).2 = file
    ∨ load lib (save lib profiles true file).2 = profiles

/-- The file stays as it is, or it becomes one from which the settings are loaded. -/
def AppSettings.AllOrNothing (lib : JsonLibrary F) (settings : AppSettings) : Prop :=
  ∀ file, (save lib settings true file).2 = file
    ∨ load lib {} (save lib settings true file).2 = .ok settings

theorem ProfileManager.allOrNothing (hlib : lib.Lawful)
    (profiles : List (ConnectionProfile UInt8)) :
  AllOrNothing lib profiles ↔ ∀ p ∈ profiles, p.Utf8 ∧ p.named = true
  := by
  constructor
  · intro h
    have hutf8 : ∀ p ∈ profiles, p.Utf8 := by
      rw [← utf8_document (F := F)]
      by_contra hnot
      have hsave := saveFile_of_not_utf8 hlib hnot none
      rcases h none with hfile | hload
      · rw [save, hsave] at hfile
        cases hfile
      · rw [save, hsave, load_nil hlib] at hload
        subst hload
        apply hnot
        simp [document]
    rcases h none with hfile | hload
    · obtain ⟨text, -, hsave⟩ := saveFile_of_utf8 hlib ((utf8_document profiles).mpr hutf8) none
      rw [save, hsave] at hfile
      cases hfile
    · rw [load_save hlib hutf8, List.filter_eq_self] at hload
      intro p hp
      apply And.intro (hutf8 p hp) (hload p hp)
  · intro h file
    right
    rw [load_save hlib fun p hp => (h p hp).1, List.filter_eq_self]
    intro p hp
    apply (h p hp).2

theorem AppSettings.allOrNothing (hlib : lib.Lawful) (settings : AppSettings) :
  AllOrNothing lib settings ↔ settings.Utf8
  := by
  constructor
  · intro h
    by_contra hnot
    have hsave := saveFile_of_not_utf8 hlib (mt (utf8_document settings).mp hnot) none
    rcases h none with hfile | hload
    · rw [save, hsave] at hfile
      cases hfile
    · rw [save, hsave, load, hlib.read_nil] at hload
      obtain rfl := Except.ok.inj hload
      apply hnot
      simp [Utf8, strings, isUtf8_utf8, isUtf8_nil]
  · intro h file
    right
    apply load_save hlib h

/-- Saving is all or nothing if and only if the strings are UTF-8, and the profiles have what is
needed to be loaded. -/
theorem savesAllOrNothing_iff (hlib : lib.Lawful) (profiles : List (ConnectionProfile UInt8))
    (settings : AppSettings) :
  (ProfileManager.AllOrNothing lib profiles ↔ ∀ p ∈ profiles, p.Utf8 ∧ p.named = true)
    ∧ (AppSettings.AllOrNothing lib settings ↔ settings.Utf8)
  := by
  constructor
  · apply ProfileManager.allOrNothing hlib
  · apply AppSettings.allOrNothing hlib

/-- Two profiles, one of them with a virtual device and a link key. -/
def twoProfiles : List (ConnectionProfile UInt8) := [
  { name := utf8 "Café SSC", deviceAddress := utf8 "00:11:22:33:44:55", codec := utf8 "ssc",
    captureMode := utf8 "virtual", audioDeviceId := utf8 "{0.0.0.00000000}",
    audioDeviceName := utf8 "Línea 1", linkKey := utf8 "5a5b", linkKeyType := 4 },
  { name := utf8 "Cocina", deviceAddress := utf8 "66:77:88:99:AA:BB", codec := utf8 "aac",
    bitrateKbps := 256, autoSwitchDevice := false }]

/-- Settings that were changed by their user. -/
def userSettings : AppSettings where
  language := utf8 "es"
  theme := utf8 "light"
  startMinimized := true
  btChipPid := 0x8771
  lastProfile := utf8 "Café SSC"
  lastDeviceName := utf8 "Buds de José"

/-- They are saved in full or not at all. -/
theorem savesAllOrNothing_accents :
  ProfileManager.AllOrNothing textLibrary twoProfiles
    ∧ AppSettings.AllOrNothing textLibrary userSettings
  := by
  have hiff := savesAllOrNothing_iff textLibrary_lawful twoProfiles userSettings
  constructor
  · apply hiff.1.mpr
    simp [twoProfiles, ConnectionProfile.Utf8, ConnectionProfile.strings, isUtf8_utf8, isUtf8_nil]
    decide
  · apply hiff.2.mpr
    simp [userSettings, AppSettings.Utf8, AppSettings.strings, isUtf8_utf8, isUtf8_nil]

/-- The last device has a name that is not UTF-8, and so has the audio device of a profile. -/
theorem not_allOrNothing_remoteName :
  ¬ AppSettings.AllOrNothing textLibrary { lastDeviceName := [0xFF] }
    ∧ ¬ ProfileManager.AllOrNothing textLibrary
      [{ name := utf8 "a", deviceAddress := utf8 "b", audioDeviceName := [0xFF] }]
  := by
  constructor
  · intro h
    rcases h (some (utf8 "[]")) with hfile | hload
    · revert hfile
      decide
    · revert hload
      decide
  · intro h
    rcases h (some (utf8 "[]")) with hfile | hload
    · revert hfile
      decide
    · revert hload
      decide

end Config

end Ssc
