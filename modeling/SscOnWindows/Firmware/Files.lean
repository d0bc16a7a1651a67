import SscOnWindows.Firmware.Adapters
import Mathlib.Data.List.Sort

/-!
# Firmware files

The firmware of a chip is a pair of files in the configuration folder, whose names are the stem
with `_fw.bin` and `_config.bin`.  `scan_firmware_files` looks for the pairs,
`check_firmware_present` for the one of a chip that is chosen, and the thread that starts BTstack
makes copies without the extension, which is what BTstack opens.

Windows tells files apart by their names in any case.  A file has the bytes that are read from it.
-/

namespace Ssc.Firmware

open Json

/-! ### Folders -/

/-- `std::tolower` in the C locale. -/
def lower (s : List UInt8) : List UInt8 :=
  s.map fun b => if 65 ≤ b ∧ b ≤ 90 then b + 32 else b

/-- `std::toupper` in the C locale. -/
def upper (s : List UInt8) : List UInt8 :=
  s.map fun b => if 97 ≤ b ∧ b ≤ 122 then b - 32 else b

/-- The files of a folder, by their names. -/
structure Folder where
  files : List (List UInt8 × List UInt8)
  distinct : (files.map fun f => lower f.1).Nodup

namespace Folder

/-- The content of a file. -/
def content (d : Folder) (name : List UInt8) : Option (List UInt8) :=
  (d.files.find? fun f => lower f.1 = lower name).map (·.2)

/-- A file that there is not yet. -/
def add (d : Folder) (name text : List UInt8) (hnew : d.content name = none) : Folder where
  files := d.files ++ [(name, text)]
  distinct := by
    rw [List.map_append, List.nodup_append]
    refine ⟨d.distinct, List.nodup_singleton _, ?_⟩
    intro a ha b hb
    obtain ⟨f, hf, rfl⟩ := List.mem_map.mp ha
    rw [List.map_singleton, List.mem_singleton] at hb
    rw [hb]
    simpa using List.find?_eq_none.mp (Option.map_eq_none_iff.mp hnew) f hf

end Folder

/-! ### The scan -/

structure FirmwareFileEntry where
  stem : List UInt8
  displayName : List UInt8
  pid : UInt16
  hasConfig : Bool
  deriving DecidableEq

/-- The end of the name of a firmware file. -/
def fwBin : List UInt8 :=
  utf8 "_fw.bin"

/-- The chip whose firmware has a stem. -/
def knownChip (stem : List UInt8) : Option RealtekChipInfo :=
  chipDb.find? fun c => c.pid ≠ customChipPid ∧ stem ++ utf8 "_fw" = c.fwName

/-- The entry of a stem. -/
def stemEntry (d : Folder) (stem : List UInt8) : FirmwareFileEntry :=
  let displayName := ((knownChip stem).map (·.chipName)).getD []
  { stem := stem
    displayName := if displayName = [] then upper stem else displayName
    pid := ((knownChip stem).map (·.pid)).getD 0
    hasConfig := (d.content (stem ++ utf8 "_config.bin")).isSome }

/-- What the scan makes of a file, if its name is one that `*_fw.bin` stands for. -/
def firmwareEntry (d : Folder) (fname : List UInt8) : Option FirmwareFileEntry :=
  if ¬ fwBin <:+ lower fname ∨ fname.length ≤ fwBin.length then none
  else
    let stem := fname.take (fname.length - fwBin.length)
    if lower stem = utf8 "custom" then none else some (stemEntry d stem)

/-- The order of the entries: those of known chips first. -/
def FirmwareFileEntry.before (a b : FirmwareFileEntry) : Prop :=
  if decide (a.pid ≠ 0) ≠ decide (b.pid ≠ 0) then a.pid ≠ 0 else a.displayName < b.displayName

instance (a b : FirmwareFileEntry) : Decidable (a.before b) := by
  unfold FirmwareFileEntry.before
  infer_instance

/-- The entries in the order in which Windows lists the files. -/
def firmwareEntries (d : Folder) : List FirmwareFileEntry :=
  d.files.filterMap fun f => firmwareEntry d f.1

def scanFirmwareFiles (d : Folder) : List FirmwareFileEntry :=
  (firmwareEntries d).insertionSort fun a b => ¬ b.before a

/-! ### The files of a chip -/

/-- The names of the files of a chip, without extension: of a known chip those in the table, of
another one those with the stem. -/
def firmwareNames (pid : UInt16) (stem : List UInt8) : Option (List UInt8 × List UInt8) :=
  match realtekFwName pid, realtekCfgName pid with
  | some fw, some cfg => some (fw, cfg)
  | _, _ => if stem ≠ [] then some (stem ++ utf8 "_fw", stem ++ utf8 "_config") else none

/-- A file of at least `minSize` bytes that is no web page. -/
def validateFile (minSize : ℕ) : Option (List UInt8) → Bool
  | none => false
  | some text => minSize ≤ text.length ∧ ¬ utf8 "<!doctype" <+: text ∧ ¬ utf8 "<html" <+: text

def checkFirmwarePresent (d : Folder) (pid : UInt16) (stem : List UInt8) : Bool :=
  match firmwareNames pid stem with
  | none => false
  | some (fw, cfg) =>
      validateFile 10000 (d.content (fw ++ utf8 ".bin")) && (d.content (cfg ++ utf8 ".bin")).isSome

/-! ### The aliases -/

theorem lower_append (s t : List UInt8) :
  lower (s ++ t) = lower s ++ lower t
  := List.map_append

theorem length_lower (s : List UInt8) :
  (lower s).length = s.length
  := List.length_map _

/-- The two on a byte. -/
theorem lower_upper_byte (b : UInt8) :
  (fun b : UInt8 => if 65 ≤ b ∧ b ≤ 90 then b + 32 else b) (if 97 ≤ b ∧ b ≤ 122 then b - 32 else b)
    = if 65 ≤ b ∧ b ≤ 90 then b + 32 else b
  := by
  have hall : ∀ n < 256, (fun b : UInt8 => if 65 ≤ b ∧ b ≤ 90 then b + 32 else b)
      (if 97 ≤ UInt8.ofNat n ∧ UInt8.ofNat n ≤ 122 then UInt8.ofNat n - 32 else UInt8.ofNat n)
      = if 65 ≤ UInt8.ofNat n ∧ UInt8.ofNat n ≤ 90 then UInt8.ofNat n + 32 else UInt8.ofNat n := by
    decide +kernel
  have hb := hall b.toNat b.toNat_lt
  rw [UInt8.ofNat_toNat] at hb
  apply hb

/-- What `toupper` changes is nothing to `tolower`. -/
theorem lower_upper (s : List UInt8) :
  lower (upper s) = lower s
  := by
  rw [lower, upper, List.map_map, lower]
  apply List.map_congr_left
  intro b _
  apply lower_upper_byte b

/-- The stem of the files of a chip. -/
def RealtekChipInfo.stem (c : RealtekChipInfo) : List UInt8 :=
  c.fwName.take (c.fwName.length - 3)

/-- What every row of the table has. -/
structure RealtekChipInfo.Sound (c : RealtekChipInfo) : Prop where
  fw : c.fwName = c.stem ++ utf8 "_fw"
  cfg : c.cfgName = c.stem ++ utf8 "_config"
  named : c.chipName ≠ []
  found : findChipInfo c.pid = some c
  known : c.pid ≠ 0
  upper_stem : c.pid ≠ customChipPid → c.chipName = upper c.stem

theorem sound_of_mem_chipDb {c : RealtekChipInfo} (h : c ∈ chipDb) :
  c.Sound
  := by
  revert c
  have hfw : ∀ c ∈ chipDb, c.fwName = c.stem ++ utf8 "_fw" := by decide +kernel
  have hcfg : ∀ c ∈ chipDb, c.cfgName = c.stem ++ utf8 "_config" := by decide +kernel
  have hnamed : ∀ c ∈ chipDb, c.chipName ≠ [] := by decide +kernel
  have hfound : ∀ c ∈ chipDb, findChipInfo c.pid = some c := by decide +kernel
  have hknown : ∀ c ∈ chipDb, c.pid ≠ 0 := by decide +kernel
  have hupper : ∀ c ∈ chipDb, c.pid ≠ customChipPid → c.chipName = upper c.stem := by
    decide +kernel
  intro c h
  apply RealtekChipInfo.Sound.mk (hfw c h) (hcfg c h) (hnamed c h) (hfound c h) (hknown c h)
    (hupper c h)

/-- An entry of the scan, and the file it is for. -/
structure FirmwareFileEntry.IsOf (d : Folder) (fname : List UInt8) (e : FirmwareFileEntry) :
    Prop where
  lower_name : lower fname = lower e.stem ++ fwBin
  stem_ne : e.stem ≠ []
  notCustom : lower e.stem ≠ utf8 "custom"
  display : e.displayName = upper e.stem
  names : firmwareNames e.pid e.stem = some (e.stem ++ utf8 "_fw", e.stem ++ utf8 "_config")
  config : e.hasConfig = (d.content (e.stem ++ utf8 "_config.bin")).isSome

/-- A chip that is found by the stem has the files with this stem. -/
theorem knownChip_eq_some {stem : List UInt8} {c : RealtekChipInfo}
    (h : knownChip stem = some c) :
  c.Sound ∧ c.pid ≠ customChipPid ∧ c.stem = stem
  := by
  have hsound := sound_of_mem_chipDb (List.mem_of_find?_eq_some h)
  have hc := List.find?_some h
  rw [decide_eq_true_iff, hsound.fw] at hc
  apply And.intro hsound
  apply And.intro hc.1
  apply (List.append_cancel_right hc.2).symm

/-- The files of a known chip are those with its stem. -/
theorem RealtekChipInfo.Sound.names {c : RealtekChipInfo} (h : c.Sound) (stem : List UInt8) :
  firmwareNames c.pid stem = some (c.stem ++ utf8 "_fw", c.stem ++ utf8 "_config")
  := by
  rw [firmwareNames, realtekFwName, realtekCfgName, h.found, ← h.fw, ← h.cfg]
  rfl

theorem firmwareNames_zero {stem : List UInt8} (h : stem ≠ []) :
  firmwareNames 0 stem = some (stem ++ utf8 "_fw", stem ++ utf8 "_config")
  := by
  have hnone : findChipInfo 0 = none := by decide +kernel
  rw [firmwareNames, realtekFwName, hnone, Option.map_none]
  apply if_pos h

/-- What the scan makes of a file. -/
theorem isOf_of_firmwareEntry {d : Folder} {fname : List UInt8} {e : FirmwareFileEntry}
    (h : firmwareEntry d fname = some e) :
  e.IsOf d fname
  := by
  rw [firmwareEntry] at h
  split at h
  case isTrue => cases h
  case isFalse hname =>
    rw [not_or, not_not, not_le] at hname
    obtain ⟨⟨front, hfront⟩, hlength⟩ := hname
    have hstem : front = lower (fname.take (fname.length - fwBin.length)) := by
      have hlengths := congrArg List.length hfront
      rw [List.length_append, length_lower] at hlengths
      rw [lower, List.map_take, ← lower, ← hfront, ← hlengths, Nat.add_sub_cancel,
        List.take_left']
      rfl
    have hne : fname.take (fname.length - fwBin.length) ≠ [] := by
      rw [← List.length_pos_iff, List.length_take]
      omega
    simp only at h
    split at h
    case isTrue => cases h
    case isFalse hcustom =>
      obtain rfl := Option.some.inj h
      cases hknown : knownChip (fname.take (fname.length - fwBin.length)) with
      | none => exact {
          lower_name := by rw [← hfront, hstem]; rfl
          stem_ne := hne
          notCustom := hcustom
          display := by simp [stemEntry, hknown]
          names := by
            simp only [stemEntry, hknown]
            apply firmwareNames_zero hne
          config := rfl }
      | some c =>
          obtain ⟨hsound, hpid, hstem'⟩ := knownChip_eq_some hknown
          exact {
            lower_name := by rw [← hfront, hstem]; rfl
            stem_ne := hne
            notCustom := hcustom
            display := by
              simp only [stemEntry, hknown, Option.map_some, Option.getD_some, if_neg hsound.named]
              rw [hsound.upper_stem hpid, hstem']
            names := by
              simp only [stemEntry, hknown, Option.map_some, Option.getD_some]
              rw [hsound.names, hstem']
            config := rfl }

/-! ### The order of the scan -/

/-- The files are found by their names in any case. -/
theorem Folder.content_eq_some_iff {d : Folder} {name text : List UInt8} :
  d.content name = some text ↔ ∃ f ∈ d.files, lower f.1 = lower name ∧ f.2 = text
  := by
  rw [Folder.content, Option.map_eq_some_iff]
  constructor
  · rintro ⟨f, hfind, rfl⟩
    refine ⟨f, List.mem_of_find?_eq_some hfind, ?_, rfl⟩
    simpa using List.find?_some hfind
  · rintro ⟨f, hf, hname, rfl⟩
    refine ⟨f, ?_, rfl⟩
    have hfind := KeyedList.find?_key d.distinct hf
    simp only [hname] at hfind
    apply hfind

/-- The order in which the files are listed does not matter to what is found. -/
theorem Folder.content_perm {d d' : Folder} (h : d.files.Perm d'.files) (name : List UInt8) :
  d.content name = d'.content name
  := by
  ext text
  simp only [Folder.content_eq_some_iff, h.mem_iff]

/-- The entries depend on the files that there are. -/
theorem firmwareEntry_congr {d d' : Folder} {fname : List UInt8}
    (h : ∀ stem, d.content (stem ++ utf8 "_config.bin") = d'.content (stem ++ utf8 "_config.bin")) :
  firmwareEntry d fname = firmwareEntry d' fname
  := by
  simp only [firmwareEntry, stemEntry, h]

theorem perm_firmwareEntries {d d' : Folder} (h : d.files.Perm d'.files) :
  (firmwareEntries d).Perm (firmwareEntries d')
  := by
  have hentry : ∀ fname, firmwareEntry d fname = firmwareEntry d' fname :=
    fun fname => firmwareEntry_congr fun stem => Folder.content_perm h _
  simp only [firmwareEntries, hentry]
  apply h.filterMap

/-- Two entries have different names to show. -/
theorem eq_of_displayName {d : Folder} {a b : FirmwareFileEntry} (ha : a ∈ firmwareEntries d)
    (hb : b ∈ firmwareEntries d) (h : a.displayName = b.displayName) :
  a = b
  := by
  obtain ⟨f, hf, hfa⟩ := List.mem_filterMap.mp ha
  obtain ⟨g, hg, hgb⟩ := List.mem_filterMap.mp hb
  have hofa := isOf_of_firmwareEntry hfa
  have hofb := isOf_of_firmwareEntry hgb
  have hname : lower f.1 = lower g.1 := by
    rw [hofa.lower_name, hofb.lower_name, ← lower_upper, ← hofa.display, h, hofb.display,
      lower_upper]
  have hfg : f = g := List.inj_on_of_nodup_map d.distinct hf hg hname
  rw [hfg, hgb] at hfa
  apply (Option.some.inj hfa).symm

namespace FirmwareFileEntry

variable {a b c : FirmwareFileEntry}

/-- What it is not to come behind another entry. -/
theorem not_before_iff :
  ¬ b.before a ↔ (b.pid ≠ 0 → a.pid ≠ 0)
    ∧ ((a.pid ≠ 0 ↔ b.pid ≠ 0) → a.displayName ≤ b.displayName)
  := by
  rw [before]
  by_cases ha : a.pid ≠ 0
  · by_cases hb : b.pid ≠ 0
    · simp [ha, hb]
    · simp [ha, hb]
  · by_cases hb : b.pid ≠ 0
    · simp [ha, hb]
    · simp [ha, hb]

theorem not_before_trans (hab : ¬ b.before a) (hbc : ¬ c.before b) :
  ¬ c.before a
  := by
  rw [not_before_iff] at hab hbc ⊢
  constructor
  · intro hc
    apply hab.1 (hbc.1 hc)
  · intro hac
    apply List.le_trans (hab.2 ⟨fun ha => ?_, hab.1⟩) (hbc.2 ⟨fun hb => ?_, hbc.1⟩)
    · apply hbc.1 (hac.mp ha)
    · apply hac.mp (hab.1 hb)

theorem not_before_total :
  ¬ b.before a ∨ ¬ a.before b
  := by
  simp only [not_before_iff]
  by_cases ha : a.pid = 0
  · by_cases hb : b.pid = 0
    · simpa [ha, hb] using List.le_total a.displayName b.displayName
    · simp [ha, hb]
  · by_cases hb : b.pid = 0
    · simp [ha, hb]
    · simpa [ha, hb] using List.le_total a.displayName b.displayName

/-- Entries neither of which comes first have the same name to show. -/
theorem displayName_eq (hab : ¬ b.before a) (hba : ¬ a.before b) :
  a.displayName = b.displayName
  := by
  rw [not_before_iff] at hab hba
  have hiff : a.pid ≠ 0 ↔ b.pid ≠ 0 := ⟨hba.1, hab.1⟩
  apply List.le_antisymm (hab.2 hiff) (hba.2 hiff.symm)

end FirmwareFileEntry

/-- The scan is sorted. -/
theorem pairwise_scanFirmwareFiles (d : Folder) :
  (scanFirmwareFiles d).Pairwise fun a b => ¬ b.before a
  := by
  have : Std.Total fun a b : FirmwareFileEntry => ¬ b.before a :=
    ⟨fun _ _ => FirmwareFileEntry.not_before_total⟩
  have : IsTrans FirmwareFileEntry fun a b => ¬ b.before a :=
    ⟨fun _ _ _ => FirmwareFileEntry.not_before_trans⟩
  apply List.pairwise_insertionSort

theorem mem_scanFirmwareFiles {d : Folder} {e : FirmwareFileEntry} :
  e ∈ scanFirmwareFiles d ↔ e ∈ firmwareEntries d
  := by
  rw [scanFirmwareFiles, List.mem_insertionSort]

/-- Whatever sorting makes of the entries, and in whatever order the files are listed, it is the
scan: the entries have different names to show, so that none of them are tied. -/
theorem scanFirmwareFiles_eq {d d' : Folder} {l : List FirmwareFileEntry}
    (hfiles : d.files.Perm d'.files) (hperm : l.Perm (firmwareEntries d'))
    (hsorted : l.Pairwise fun a b => ¬ b.before a) :
  l = scanFirmwareFiles d
  := by
  have hl : l.Perm (firmwareEntries d) := hperm.trans (perm_firmwareEntries hfiles).symm
  apply List.Perm.eq_of_pairwise _ hsorted (pairwise_scanFirmwareFiles d)
    (hl.trans (List.perm_insertionSort _ _).symm)
  intro a b ha hb hab hba
  apply eq_of_displayName (hl.mem_iff.mp ha) (mem_scanFirmwareFiles.mp hb)
  apply FirmwareFileEntry.displayName_eq hab hba

/-- The files of a chip of the table and of another one, as they are listed. -/
def listedFiles : List (List UInt8 × List UInt8) := [
  (utf8 "RTL9999zu_fw.bin", utf8 "<html>"),
  (utf8 "rtl8761bu_config.bin", []),
  (utf8 "rtl8761bu_fw.bin", List.replicate 10000 0)]

theorem distinct_listedFiles :
  (listedFiles.map fun f => lower f.1).Nodup
  := by decide +kernel

theorem distinct_relistedFiles :
  (listedFiles.reverse.map fun f => lower f.1).Nodup
  := by
  rw [List.map_reverse, List.nodup_reverse]
  apply distinct_listedFiles

/-- A folder with these files. -/
def twoChips : Folder where
  files := listedFiles
  distinct := distinct_listedFiles

/-- The folder when its files are listed the other way round. -/
def relisted : Folder where
  files := listedFiles.reverse
  distinct := distinct_relistedFiles

/-- The entry of the chip of the table. -/
def knownEntry : FirmwareFileEntry where
  stem := utf8 "rtl8761bu"
  displayName := utf8 "RTL8761BU"
  pid := 0x8771
  hasConfig := true

/-- The entry of the other chip. -/
def otherEntry : FirmwareFileEntry where
  stem := utf8 "RTL9999zu"
  displayName := utf8 "RTL9999ZU"
  pid := 0
  hasConfig := false

/-- The chip of the table comes first. -/
theorem scanFirmwareFiles_twoChips :
  [knownEntry, otherEntry] = scanFirmwareFiles twoChips
  := by
  apply @scanFirmwareFiles_eq twoChips relisted
  · apply (List.reverse_perm _).symm
  · decide +kernel
  · decide +kernel

/-! ### The check -/

/-- The name of a file with the extension. -/
def Extended (name : List UInt8) : Prop :=
  utf8 ".bin" <:+ lower name

theorem extended_append (stem : List UInt8) :
  Extended (stem ++ utf8 ".bin")
  := by
  have hlower : lower (utf8 ".bin") = utf8 ".bin" := by decide +kernel
  rw [Extended, lower_append, hlower]
  apply List.suffix_append

namespace Folder

variable {d d' : Folder} {name text : List UInt8}

/-- The firmware files of the folders are the same. -/
structure SameFirmware (d d' : Folder) : Prop where
  entries : firmwareEntries d' = firmwareEntries d
  content : ∀ name, Extended name → d'.content name = d.content name

theorem SameFirmware.refl (d : Folder) :
  SameFirmware d d
  := ⟨rfl, fun _ _ => rfl⟩

theorem SameFirmware.trans {d'' : Folder} (h : SameFirmware d d') (h' : SameFirmware d' d'') :
  SameFirmware d d''
  := ⟨h'.entries.trans h.entries,
    fun name hname => (h'.content name hname).trans (h.content name hname)⟩

theorem SameFirmware.scan (h : SameFirmware d d') :
  scanFirmwareFiles d' = scanFirmwareFiles d
  := by
  rw [scanFirmwareFiles, h.entries, scanFirmwareFiles]

theorem SameFirmware.check (h : SameFirmware d d') (pid : UInt16) (stem : List UInt8) :
  checkFirmwarePresent d' pid stem = checkFirmwarePresent d pid stem
  := by
  simp only [checkFirmwarePresent, h.content _ (extended_append _)]

end Folder

end Ssc.Firmware
