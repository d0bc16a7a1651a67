import SscOnWindows.Lib.Machine
import SscOnWindows.Service.DeviceAddress
import SscOnWindows.Transport.State

/-!
# The saved devices

`device_list_` and `devices.txt`: the devices that are saved and those found by the last scan,
and the text file with a line for each of the saved ones, written in text mode whenever a device
is saved or deleted.  A character is one byte.  The file can be opened.

What was last written, and the addresses that were saved and not deleted since, are recorded.
-/

namespace Ssc

open Machine

/-- `A2dpService::DeviceEntry`. -/
structure DeviceEntry where
  address : List UInt8
  name : List Char
  addrStr : List Char
  audioDevice : Bool
  saved : Bool
  deriving DecidableEq

/-- The text of an address with a name. -/
abbrev SavedEntry := List Char × List Char

/-- What the file keeps of a device. -/
def DeviceEntry.entry (d : DeviceEntry) : SavedEntry := (d.addrStr, d.name)

/-! ### The file -/

/-- `sizeof(line)` in `load_saved_devices`. -/
def deviceLineSize : Nat := 256

/-- `fprintf(f, "%s|%s\n", ...)` up to the end of the line. -/
def deviceLine (e : SavedEntry) : List Char :=
  Scan.cString e.1 ++ '|' :: Scan.cString e.2

/-- The text with a line for each device. -/
def deviceText (l : List SavedEntry) : List Char :=
  l.flatMap (fun e => deviceLine e ++ ['\n'])

/-- The device `load_saved_devices` makes of what `fgets` has read, unless it skips that. -/
def parseDeviceLine (read : List Char) : Option DeviceEntry :=
  let line := (Scan.cString read).takeWhile (· ≠ '\n')
  let addrStr := line.takeWhile (· ≠ '|')
  if addrStr.length = line.length ∨ addrStr.length < 17 then none
  else
    (parseAddress addrStr).map fun address =>
      { address := address
        name := line.drop (addrStr.length + 1)
        addrStr := addrStr
        audioDevice := true
        saved := true }

/-- The devices `load_saved_devices` adds to the list. -/
def readDevices (file : Option (List Char)) : List DeviceEntry :=
  match file with
  | none => []
  | some text => (Scan.lines deviceLineSize (Scan.fromTextFile text)).filterMap parseDeviceLine

/-! ### The operations -/

/-- The list, the file, what was last written to it, and the addresses that were saved and not
deleted since. -/
structure SavedDevices where
  deviceList : List DeviceEntry := []
  file : Option (List Char) := none
  written : List SavedEntry := []
  wanted : List (List Char) := []

/-- A call of the service, or a new start of the program, which loads the saved devices. -/
inductive DeviceOp where
  | loadSavedDevices
  | scan (results : List DiscoveredDevice)
  | saveDevice (addrStr name : List Char)
  | deleteSavedDevice (index : Int)
  | restart

/-- The saved devices of a list, as they are written. -/
def savedEntries (l : List DeviceEntry) : List SavedEntry :=
  (l.filter (·.saved)).map DeviceEntry.entry

/-- The index of the first device with the address, and the length of the list without one. -/
def indexOf (l : List DeviceEntry) (addrStr : List Char) : Nat :=
  l.findIdx (fun d => d.addrStr = addrStr)

/-- A name as the remote sends it. -/
def textOf (bytes : List UInt8) : List Char :=
  bytes.map fun b => Char.ofNat b.toNat

/-- The scan adds a device it has found to the list, or renames the one with its address. -/
def mergeDevice (l : List DeviceEntry) (d : DiscoveredDevice) : List DeviceEntry :=
  let addrStr := formatAddress d.address
  if indexOf l addrStr < l.length then
    l.modify (indexOf l addrStr) fun e =>
      if d.name = [] then e else { e with name := textOf d.name }
  else
    l ++ [{
      address := d.address
      name := textOf d.name
      addrStr := addrStr
      audioDevice := (d.cod >>> 8) &&& 0x1F = 0x04
      saved := false }]

/-- The first device with the address is saved under the name. -/
def markSaved (l : List DeviceEntry) (addrStr name : List Char) : List DeviceEntry :=
  l.modify (indexOf l addrStr) fun d => { d with name := name, saved := true }

/-- The device at the index is saved no longer, and is dropped unless it is an audio device. -/
def unmarkSaved (l : List DeviceEntry) (i : Nat) (h : i < l.length) : List DeviceEntry :=
  if l[i].audioDevice then l.set i { l[i] with saved := false } else l.eraseIdx i

namespace SavedDevices

/-- No device is known, and there is no file. -/
def start : SavedDevices := {}

/-- The saved devices are written. -/
def writeFile (s : SavedDevices) : SavedDevices :=
  { s with
    file := some (Scan.toTextFile (deviceText (savedEntries s.deviceList)))
    written := savedEntries s.deviceList }

/-- `save_device`. -/
def saveDevice (s : SavedDevices) (addrStr name : List Char) : SavedDevices :=
  writeFile { s with
    deviceList := markSaved s.deviceList addrStr name
    wanted := addrStr :: s.wanted }

/-- `delete_saved_device`. -/
def deleteSavedDevice (s : SavedDevices) (index : Int) : SavedDevices :=
  if h : index < 0 ∨ s.deviceList.length ≤ index then s
  else
    writeFile { s with
      deviceList := unmarkSaved s.deviceList index.toNat (by omega)
      wanted := s.wanted.filter (· ≠ s.deviceList[index.toNat].addrStr) }

/-- One operation.  The address of `save_device` is a C string. -/
def next (s : SavedDevices) : DeviceOp → Option SavedDevices
  | .loadSavedDevices => some { s with deviceList := s.deviceList ++ readDevices s.file }
  | .scan results =>
      some { s with deviceList := results.foldl mergeDevice (s.deviceList.filter (·.saved)) }
  | .saveDevice addrStr name => some (s.saveDevice (Scan.cString addrStr) name)
  | .deleteSavedDevice index => some (s.deleteSavedDevice index)
  | .restart => some { s with deviceList := readDevices s.file }

/-- A new start of the program loads what was last written, entry by entry, and these are the
addresses that were saved and not deleted since, each once. -/
structure Faithful (s : SavedDevices) : Prop where
  entries : (readDevices s.file).map DeviceEntry.entry = s.written
  nodup : ((readDevices s.file).map DeviceEntry.addrStr).Nodup
  addresses : ∀ a, a ∈ (readDevices s.file).map DeviceEntry.addrStr ↔ a ∈ s.wanted

end SavedDevices

/-- A device is read back from its line: the address has the form of one in front of the
separator, the line fits in the buffer of the reader, and nothing in it ends a line, a string, or
the file. -/
structure Storable (e : SavedEntry) : Prop where
  address : (parseAddress e.1).isSome = true
  length : 17 ≤ e.1.length
  separator : '|' ∉ e.1
  plain : ∀ c ∈ e.1 ++ e.2, c ∉ ['\n', '\x00', '\x1a']
  fits : e.1.length + e.2.length + 2 ≤ deviceLineSize

namespace SavedDevices

/-- The saved devices other than the one at the index can be written beside the address. -/
structure Writable (s : SavedDevices) (index : Nat) (addrStr : List Char) : Prop where
  storable : ∀ e ∈ savedEntries (s.deviceList.eraseIdx index), Storable e
  nodup : ((savedEntries (s.deviceList.eraseIdx index)).map Prod.fst).Nodup
  other : addrStr ∉ (savedEntries (s.deviceList.eraseIdx index)).map Prod.fst

/-- An operation that keeps the file faithful: a device that is saved is in the list and can be
written, and so can the other saved devices, which have addresses of their own. -/
def Keeps (s : SavedDevices) : DeviceOp → Prop
  | .saveDevice addrStr name =>
      indexOf s.deviceList (Scan.cString addrStr) < s.deviceList.length
        ∧ Storable (Scan.cString addrStr, name)
        ∧ s.Writable (indexOf s.deviceList (Scan.cString addrStr)) (Scan.cString addrStr)
  | .deleteSavedDevice index =>
      0 ≤ index → ∀ d ∈ s.deviceList[index.toNat]?, s.Writable index.toNat d.addrStr
  | .loadSavedDevices | .scan _ | .restart => True

/-! ### What can be decided -/

instance (e : SavedEntry) : Decidable (Storable e) :=
  decidable_of_iff ((parseAddress e.1).isSome = true ∧ 17 ≤ e.1.length ∧ '|' ∉ e.1
      ∧ (e.1 ++ e.2).all (· ∉ ['\n', '\x00', '\x1a']) = true
      ∧ e.1.length + e.2.length + 2 ≤ deviceLineSize)
    (by
      simp only [List.all_eq_true, decide_eq_true_eq]
      exact ⟨fun h => ⟨h.1, h.2.1, h.2.2.1, h.2.2.2.1, h.2.2.2.2⟩,
        fun h => ⟨h.address, h.length, h.separator, h.plain, h.fits⟩⟩)

instance (s : SavedDevices) (index : Nat) (addrStr : List Char) :
    Decidable (s.Writable index addrStr) :=
  decidable_of_iff ((∀ e ∈ savedEntries (s.deviceList.eraseIdx index), Storable e)
      ∧ ((savedEntries (s.deviceList.eraseIdx index)).map Prod.fst).Nodup
      ∧ addrStr ∉ (savedEntries (s.deviceList.eraseIdx index)).map Prod.fst)
    ⟨fun h => ⟨h.1, h.2.1, h.2.2⟩, fun h => ⟨h.storable, h.nodup, h.other⟩⟩

instance : ∀ (s : SavedDevices) (op : DeviceOp), Decidable (Keeps s op)
  | _, .saveDevice _ _ => inferInstanceAs (Decidable (_ ∧ _ ∧ _))
  | _, .deleteSavedDevice index =>
      inferInstanceAs (Decidable (0 ≤ index → ∀ d ∈ _, Writable _ _ (DeviceEntry.addrStr d)))
  | _, .loadSavedDevices => inferInstanceAs (Decidable True)
  | _, .scan _ => inferInstanceAs (Decidable True)
  | _, .restart => inferInstanceAs (Decidable True)

end SavedDevices

/-! ### What is read back -/

/-- What the file keeps of the device that is made of what `fgets` has read. -/
def parseEntry (read : List Char) : Option SavedEntry :=
  (parseDeviceLine read).map DeviceEntry.entry

theorem map_entry_readDevices (text : List Char) :
  (readDevices (some text)).map DeviceEntry.entry
    = (Scan.lines deviceLineSize (Scan.fromTextFile text)).filterMap parseEntry
  := List.map_filterMap

section File

variable {e : SavedEntry} {l : List SavedEntry}

namespace Storable

theorem ne_of_mem (h : Storable e) {c : Char} (hc : c ∈ e.1 ++ e.2) :
  c ≠ '\n' ∧ c ≠ '\x00' ∧ c ≠ '\x1a'
  := by
  have hplain := h.plain c hc
  simpa only [List.mem_cons, List.not_mem_nil, or_false, not_or] using hplain

theorem deviceLine_eq (h : Storable e) :
  deviceLine e = e.1 ++ '|' :: e.2
  := by
  rw [deviceLine, Scan.cString_of_plain, Scan.cString_of_plain]
  · intro c hc
    apply (h.ne_of_mem (List.mem_append_right _ hc)).2.1
  · intro c hc
    apply (h.ne_of_mem (List.mem_append_left _ hc)).2.1

/-- Nothing in the line ends it, a string, or the file. -/
theorem deviceLine_plain (h : Storable e) :
  ∀ c ∈ deviceLine e, c ≠ '\n' ∧ c ≠ '\x00' ∧ c ≠ '\x1a'
  := by
  intro c hc
  rw [h.deviceLine_eq, List.mem_append, List.mem_cons] at hc
  rcases hc with hc | rfl | hc
  · apply h.ne_of_mem (List.mem_append_left _ hc)
  · decide
  · apply h.ne_of_mem (List.mem_append_right _ hc)

theorem length_deviceLine (h : Storable e) :
  (deviceLine e).length + 1 ≤ deviceLineSize
  := by
  have hfits := h.fits
  rw [h.deviceLine_eq, List.length_append, List.length_cons]
  omega

/-- The device is read back from its line, with its end or without it. -/
theorem parseEntry_deviceLine (h : Storable e) {tail : List Char}
    (htail : tail = [] ∨ tail = ['\n']) :
  parseEntry (deviceLine e ++ tail) = some e
  := by
  obtain ⟨address, haddress⟩ := Option.isSome_iff_exists.mp h.address
  have hstring : Scan.cString (deviceLine e ++ tail) = deviceLine e ++ tail := by
    apply Scan.cString_of_plain
    intro c hc
    rcases List.mem_append.mp hc with hc | hc
    · apply (h.deviceLine_plain c hc).2.1
    · rcases htail with rfl | rfl
      · contradiction
      · obtain rfl := List.mem_singleton.mp hc
        decide
  have hline : (deviceLine e ++ tail).takeWhile (· ≠ '\n') = e.1 ++ '|' :: e.2 := by
    rw [List.takeWhile_append_of_pos, h.deviceLine_eq]
    · rcases htail with rfl | rfl <;> simp
    · intro c hc
      simpa using (h.deviceLine_plain c hc).1
  have hseparator : (e.1 ++ '|' :: e.2).takeWhile (· ≠ '|') = e.1 := by
    rw [List.takeWhile_append_of_pos]
    · simp
    · intro c hc
      rw [decide_eq_true_iff]
      rintro rfl
      apply h.separator hc
  have hlength := h.length
  rw [parseEntry, parseDeviceLine, hstring, hline, hseparator, if_neg, haddress, Option.map_some,
    Option.map_some]
  · simp [DeviceEntry.entry]
  · rw [List.length_append, List.length_cons]
    omega

end Storable

/-- A line is read with its end, or in front of it when it fills the buffer. -/
theorem lines_deviceLine (h : Storable e) (rest : List Char) :
  (Scan.lines deviceLineSize (deviceLine e ++ '\n' :: rest)).filterMap parseEntry
    = e :: (Scan.lines deviceLineSize rest).filterMap parseEntry
  := by
  have hplain : ∀ c ∈ deviceLine e, c ≠ '\n' := fun c hc => (h.deviceLine_plain c hc).1
  rcases Nat.lt_or_ge ((deviceLine e).length + 1) deviceLineSize with hlt | hge
  · rw [Scan.lines_line hplain (by omega),
      List.filterMap_cons_some (h.parseEntry_deviceLine (.inr rfl))]
  · have hlength : (deviceLine e).length + 1 = deviceLineSize := by
      have hle := h.length_deviceLine
      omega
    have hne : deviceLine e ≠ [] := by
      rw [h.deviceLine_eq]
      simp
    have hfull : Scan.lines deviceLineSize (deviceLine e ++ '\n' :: rest)
        = deviceLine e :: Scan.lines deviceLineSize ('\n' :: rest) :=
      Scan.readLines_full hplain hne (by simpa using hlength)
    have hend : Scan.lines deviceLineSize ([] ++ '\n' :: rest)
        = ([] ++ ['\n']) :: Scan.lines deviceLineSize rest :=
      Scan.lines_line nofun (by decide)
    rw [List.nil_append, List.nil_append] at hend
    have hread := h.parseEntry_deviceLine (.inl rfl)
    rw [List.append_nil] at hread
    rw [hfull, hend, List.filterMap_cons_some hread, List.filterMap_cons_none rfl]

/-- A device that is read from the file is saved, and can be written. -/
theorem storable_of_mem_readDevices {file : Option (List Char)} {d : DeviceEntry}
    (h : d ∈ readDevices file) :
  d.saved = true ∧ Storable d.entry
  := by
  cases file with
  | none => contradiction
  | some text =>
      obtain ⟨read, hread, hparse⟩ := List.mem_filterMap.mp h
      obtain ⟨hlength, hmem⟩ := Scan.readLines_spec (by decide) (by decide) read hread
      rw [parseDeviceLine] at hparse
      split at hparse
      · contradiction
      · rename_i hline
        obtain ⟨address, haddress, rfl⟩ := Option.map_eq_some_iff.mp hparse
        generalize hl : (Scan.cString read).takeWhile (· ≠ '\n') = line at hline haddress ⊢
        have hfront : line <+: read := by
          rw [← hl]
          apply (List.takeWhile_prefix _).trans (List.takeWhile_prefix _)
        have hsplit : (line.takeWhile (· ≠ '|')).length ≤ line.length :=
          (List.takeWhile_prefix _).length_le
        have hle := hfront.length_le
        constructor
        · rfl
        · constructor
          · rw [Option.isSome_iff_exists]
            use address
            apply haddress
          · change 17 ≤ (line.takeWhile (· ≠ '|')).length
            omega
          · intro hseparator
            simpa using List.mem_takeWhile_imp hseparator
          · intro c hc
            have hline : c ∈ line := by
              rcases List.mem_append.mp hc with hc | hc
              · apply (List.takeWhile_prefix _).subset hc
              · apply List.mem_of_mem_drop hc
            have hend : c ≠ '\x1a' := by
              apply Scan.ne_end_of_mem_fromTextFile
              apply hmem c (hfront.subset hline)
            rw [← hl] at hline
            have hnewline : c ≠ '\n' := by
              simpa using List.mem_takeWhile_imp hline
            have hzero : c ≠ '\x00' := by
              simpa using List.mem_takeWhile_imp ((List.takeWhile_prefix _).subset hline)
            simp only [List.mem_cons, List.not_mem_nil, or_false, not_or]
            apply And.intro hnewline (And.intro hzero hend)
          · change (line.takeWhile (· ≠ '|')).length + (line.drop _).length + 2 ≤ deviceLineSize
            rw [List.length_drop]
            change read.length + 1 ≤ deviceLineSize at hlength
            omega

/-- Devices are read back exactly when they can be written. -/
theorem readDevices_deviceText :
  (readDevices (some (Scan.toTextFile (deviceText l)))).map DeviceEntry.entry = l
    ↔ ∀ e ∈ l, Storable e
  := by
  constructor
  · intro h e he
    rw [← h] at he
    obtain ⟨d, hd, rfl⟩ := List.mem_map.mp he
    apply (storable_of_mem_readDevices hd).2
  · intro h
    have hfile : Scan.fromTextFile (Scan.toTextFile (deviceText l)) = deviceText l := by
      rw [Scan.fromTextFile_toTextFile, List.takeWhile_eq_self_iff]
      intro c hc
      obtain ⟨e, he, hc⟩ := List.mem_flatMap.mp hc
      rw [decide_eq_true_iff]
      rcases List.mem_append.mp hc with hc | hc
      · apply ((h e he).deviceLine_plain c hc).2.2
      · obtain rfl := List.mem_singleton.mp hc
        decide
    rw [map_entry_readDevices, hfile]
    clear hfile
    induction l with
    | nil => rfl
    | cons e l ih =>
        rw [deviceText, List.flatMap_cons, List.append_assoc, List.singleton_append,
          lines_deviceLine (h e List.mem_cons_self), ← deviceText]
        rw [ih (fun d hd => h d (List.mem_cons_of_mem e hd))]

end File

/-! ### The saved devices of a list -/

section Saved

variable {l m : List DeviceEntry} {d : DeviceEntry} {i : Nat}

theorem savedEntries_append :
  savedEntries (l ++ m) = savedEntries l ++ savedEntries m
  := by
  rw [savedEntries, List.filter_append, List.map_append]
  rfl

theorem savedEntries_perm (h : l.Perm m) :
  (savedEntries l).Perm (savedEntries m)
  := (h.filter _).map _

theorem savedEntries_cons_of_saved (h : d.saved = true) :
  savedEntries (d :: l) = d.entry :: savedEntries l
  := by
  rw [savedEntries, List.filter_cons_of_pos h, List.map_cons, savedEntries]

theorem savedEntries_cons_of_not_saved (h : d.saved = false) :
  savedEntries (d :: l) = savedEntries l
  := by
  rw [savedEntries, List.filter_cons_of_neg (by simp [h]), savedEntries]

/-- All devices that are read from the file are saved. -/
theorem savedEntries_readDevices (file : Option (List Char)) :
  savedEntries (readDevices file) = (readDevices file).map DeviceEntry.entry
  := by
  rw [savedEntries, List.filter_eq_self.mpr]
  intro d hd
  apply (storable_of_mem_readDevices hd).1

theorem savedEntries_filter :
  savedEntries (l.filter (·.saved)) = savedEntries l
  := by
  rw [savedEntries, List.filter_filter]
  simp only [Bool.and_self]
  rfl

theorem addrStr_getElem_indexOf {addrStr : List Char} (h : indexOf l addrStr < l.length) :
  (l[indexOf l addrStr]).addrStr = addrStr
  := by
  have hfound := List.findIdx_getElem (w := h)
  apply of_decide_eq_true hfound

/-- A saved device with the address is found. -/
theorem indexOf_lt_of_mem {addrStr : List Char} (h : addrStr ∈ (savedEntries l).map Prod.fst) :
  indexOf l addrStr < l.length
  := by
  obtain ⟨e, he, haddr⟩ := List.mem_map.mp h
  obtain ⟨d, hd, rfl⟩ := List.mem_map.mp he
  apply List.findIdx_lt_length_of_exists
  use d
  constructor
  · apply List.mem_of_mem_filter hd
  · rw [decide_eq_true_iff]
    apply haddr

/-- A change that leaves a device saved or not and at its address changes no saved address. -/
theorem addresses_modify {f : DeviceEntry → DeviceEntry}
    (hf : ∀ d, (f d).saved = d.saved ∧ (f d).addrStr = d.addrStr) :
  (savedEntries (l.modify i f)).map Prod.fst = (savedEntries l).map Prod.fst
  := by
  induction l generalizing i with
  | nil => rw [List.modify_nil]
  | cons d l ih =>
      obtain ⟨hsaved, haddr⟩ := hf d
      cases i with
      | zero =>
          rw [List.modify_zero_cons]
          rcases Bool.eq_false_or_eq_true d.saved with h | h
          · rw [savedEntries_cons_of_saved h, savedEntries_cons_of_saved (hsaved.trans h),
              List.map_cons, List.map_cons, DeviceEntry.entry, haddr]
            rfl
          · rw [savedEntries_cons_of_not_saved h, savedEntries_cons_of_not_saved (hsaved.trans h)]
      | succ i =>
          rw [List.modify_succ_cons]
          rcases Bool.eq_false_or_eq_true d.saved with h | h
          · rw [savedEntries_cons_of_saved h, savedEntries_cons_of_saved h, List.map_cons, ih,
              List.map_cons]
          · rw [savedEntries_cons_of_not_saved h, savedEntries_cons_of_not_saved h, ih]

/-- The scan renames a device or adds one that is not saved. -/
theorem addresses_mergeDevice (r : DiscoveredDevice) :
  (savedEntries (mergeDevice l r)).map Prod.fst = (savedEntries l).map Prod.fst
  := by
  rw [mergeDevice]
  split
  · apply addresses_modify
    intro d
    split
    · apply And.intro rfl rfl
    · apply And.intro rfl rfl
  · rw [savedEntries_append, savedEntries_cons_of_not_saved rfl]
    simp [savedEntries]

theorem addresses_foldl_mergeDevice (results : List DiscoveredDevice) :
  (savedEntries (results.foldl mergeDevice l)).map Prod.fst = (savedEntries l).map Prod.fst
  := by
  induction results generalizing l with
  | nil => rfl
  | cons r results ih => rw [List.foldl_cons, ih, addresses_mergeDevice]

/-- The saved devices of a list are those of its parts at and beside an index. -/
theorem savedEntries_perm_eraseIdx (h : i < l.length) :
  (savedEntries l).Perm (savedEntries [l[i]] ++ savedEntries (l.eraseIdx i))
  := by
  rw [← savedEntries_append, List.singleton_append]
  apply savedEntries_perm (List.getElem_cons_eraseIdx_perm h).symm

/-- The saved address of a list are those beside an index, and the one at the index when that is
saved. -/
theorem mem_addresses_iff (h : i < l.length) {a : List Char} :
  a ∈ (savedEntries l).map Prod.fst
    ↔ (l[i].saved = true ∧ a = l[i].addrStr)
      ∨ a ∈ (savedEntries (l.eraseIdx i)).map Prod.fst
  := by
  rw [((savedEntries_perm_eraseIdx h).map Prod.fst).mem_iff, List.map_append, List.mem_append]
  apply or_congr_left
  rcases Bool.eq_false_or_eq_true l[i].saved with hsaved | hsaved
  · rw [savedEntries_cons_of_saved hsaved]
    simp [hsaved, savedEntries, DeviceEntry.entry]
  · rw [savedEntries_cons_of_not_saved hsaved]
    simp [hsaved, savedEntries]

/-- The device that is saved comes first among the saved devices of the list. -/
theorem savedEntries_markSaved {addrStr name : List Char} (h : indexOf l addrStr < l.length) :
  (savedEntries (markSaved l addrStr name)).Perm
    ((addrStr, name) :: savedEntries (l.eraseIdx (indexOf l addrStr)))
  := by
  have hlength : indexOf l addrStr < (markSaved l addrStr name).length := by
    rw [markSaved, List.length_modify]
    apply h
  have hperm := savedEntries_perm_eraseIdx hlength
  simp only [markSaved, List.getElem_modify_eq, List.eraseIdx_modify_of_eq] at hperm ⊢
  apply hperm.trans
  rw [savedEntries_cons_of_saved rfl, DeviceEntry.entry, addrStr_getElem_indexOf h]
  apply List.Perm.refl

/-- The device that is deleted is not among the saved devices of the list. -/
theorem savedEntries_unmarkSaved (h : i < l.length) :
  (savedEntries (unmarkSaved l i h)).Perm (savedEntries (l.eraseIdx i))
  := by
  rw [unmarkSaved]
  split
  · have hperm := savedEntries_perm (List.set_perm_cons_eraseIdx h { l[i] with saved := false })
    rw [savedEntries_cons_of_not_saved rfl] at hperm
    apply hperm
  · apply List.Perm.refl

end Saved

namespace SavedDevices

variable {s t : SavedDevices} {addrStr name : List Char}

/-! ### What an operation writes -/

/-- The saved devices of the list have the addresses that were saved and not deleted since. -/
def Listed (s : SavedDevices) : Prop :=
  ∀ a, a ∈ (savedEntries s.deviceList).map Prod.fst ↔ a ∈ s.wanted

theorem addresses_readDevices (file : Option (List Char)) :
  (readDevices file).map DeviceEntry.addrStr
    = ((readDevices file).map DeviceEntry.entry).map Prod.fst
  := by
  rw [List.map_map]
  rfl

/-- The file is faithful once it is written when the saved devices of the list can be written and
have the addresses that are wanted, each once. -/
theorem faithful_writeFile :
  s.writeFile.Faithful
    ↔ (∀ e ∈ savedEntries s.deviceList, Storable e)
      ∧ ((savedEntries s.deviceList).map Prod.fst).Nodup ∧ s.Listed
  := by
  constructor
  · intro h
    have hentries := h.entries
    have hnodup := h.nodup
    have haddresses := h.addresses
    rw [addresses_readDevices, hentries] at hnodup haddresses
    apply And.intro (readDevices_deviceText.mp hentries) (And.intro hnodup haddresses)
  · rintro ⟨hstorable, hnodup, hlisted⟩
    have hentries : (readDevices s.writeFile.file).map DeviceEntry.entry
        = savedEntries s.deviceList := readDevices_deviceText.mpr hstorable
    constructor
    · apply hentries
    · rw [addresses_readDevices, hentries]
      apply hnodup
    · rw [addresses_readDevices, hentries]
      apply hlisted

/-! ### When an operation keeps the file faithful -/

theorem faithful_writeFile_of_perm {l : List SavedEntry}
    (h : (savedEntries s.deviceList).Perm l) :
  s.writeFile.Faithful
    ↔ (∀ e ∈ l, Storable e) ∧ (l.map Prod.fst).Nodup
      ∧ ∀ a, a ∈ l.map Prod.fst ↔ a ∈ s.wanted
  := by
  have haddresses := h.map Prod.fst
  rw [faithful_writeFile, haddresses.nodup_iff, Listed]
  simp only [h.mem_iff, haddresses.mem_iff]

theorem faithful_saveDevice (hs : s.Listed) :
  (s.saveDevice addrStr name).Faithful
    ↔ indexOf s.deviceList addrStr < s.deviceList.length
      ∧ Storable (addrStr, name) ∧ s.Writable (indexOf s.deviceList addrStr) addrStr
  := by
  by_cases hlt : indexOf s.deviceList addrStr < s.deviceList.length
  · rw [saveDevice, faithful_writeFile_of_perm (savedEntries_markSaved hlt)]
    constructor
    · rintro ⟨hstorable, hnodup, -⟩
      rw [List.map_cons, List.nodup_cons] at hnodup
      use hlt, hstorable _ List.mem_cons_self
      constructor
      · intro e he
        apply hstorable e (List.mem_cons_of_mem _ he)
      · apply hnodup.2
      · apply hnodup.1
    · rintro ⟨-, hstorable, hothers⟩
      constructor
      · intro e he
        rcases List.mem_cons.mp he with rfl | he
        · apply hstorable
        · apply hothers.storable e he
      · constructor
        · rw [List.map_cons, List.nodup_cons]
          apply And.intro hothers.other hothers.nodup
        · intro a
          have hlisted := hs a
          rw [mem_addresses_iff hlt, addrStr_getElem_indexOf hlt] at hlisted
          rw [List.map_cons, List.mem_cons, List.mem_cons, ← hlisted]
          tauto
  · constructor
    · intro h
      have hmem : addrStr ∈ (savedEntries s.deviceList).map Prod.fst := by
        rw [saveDevice, faithful_writeFile] at h
        have hlisted := (h.2.2 addrStr).mpr List.mem_cons_self
        rw [markSaved, List.modify_eq_self (by omega)] at hlisted
        apply hlisted
      apply absurd (indexOf_lt_of_mem hmem) hlt
    · rintro ⟨hlt', -⟩
      contradiction

theorem faithful_deleteSavedDevice (hs : s.Faithful) (hlisted : s.Listed) (index : Int) :
  (s.deleteSavedDevice index).Faithful
    ↔ (0 ≤ index → ∀ d ∈ s.deviceList[index.toNat]?, s.Writable index.toNat d.addrStr)
  := by
  rw [deleteSavedDevice]
  split
  · rename_i hout
    constructor
    · intro _ hnonneg d hd
      rw [List.getElem?_eq_none (by omega)] at hd
      contradiction
    · intro _
      apply hs
  · rename_i hin
    have hlt : index.toNat < s.deviceList.length := by omega
    rw [faithful_writeFile_of_perm (savedEntries_unmarkSaved hlt),
      List.getElem?_eq_getElem hlt]
    constructor
    · rintro ⟨hstorable, hnodup, haddresses⟩ - d hd
      obtain rfl := Option.some.inj hd
      use hstorable, hnodup
      rw [haddresses]
      simp
    · intro h
      have hothers := h (by omega) _ rfl
      use hothers.storable, hothers.nodup
      intro a
      have hmem := hlisted a
      rw [mem_addresses_iff hlt] at hmem
      rw [List.mem_filter, ← hmem, decide_eq_true_iff]
      constructor
      · intro ha
        use Or.inr ha
        rintro rfl
        apply hothers.other ha
      · rintro ⟨⟨-, rfl⟩ | ha, hne⟩
        · contradiction
        · apply ha

/-- One operation leaves the file faithful exactly when it is one of those that do. -/
theorem faithful_next {op : DeviceOp} (hs : s.Faithful) (hlisted : s.Listed)
    (hstep : next s op = some t) :
  t.Faithful ↔ Keeps s op
  := by
  cases op with
  | loadSavedDevices | scan _ | restart =>
      obtain rfl := Option.some.inj hstep
      constructor
      · intro _
        apply True.intro
      · intro _
        constructor
        · apply hs.entries
        · apply hs.nodup
        · apply hs.addresses
  | saveDevice addrStr name =>
      obtain rfl := Option.some.inj hstep
      apply faithful_saveDevice hlisted
  | deleteSavedDevice index =>
      obtain rfl := Option.some.inj hstep
      apply faithful_deleteSavedDevice hs hlisted index

/-- The saved devices that are read from a faithful file have the addresses that are wanted. -/
theorem Faithful.mem_savedEntries (hs : s.Faithful) (a : List Char) :
  a ∈ (savedEntries (readDevices s.file)).map Prod.fst ↔ a ∈ s.wanted
  := by
  rw [savedEntries_readDevices, ← addresses_readDevices]
  apply hs.addresses

/-- A scan changes neither the file nor the saved addresses. -/
theorem scan_spec {results : List DiscoveredDevice} (hstep : next s (.scan results) = some t) :
  t.file = s.file
    ∧ (savedEntries t.deviceList).map Prod.fst = (savedEntries s.deviceList).map Prod.fst
  := by
  obtain rfl := Option.some.inj hstep
  constructor
  · rfl
  · rw [addresses_foldl_mergeDevice, savedEntries_filter]

/-- The saved devices of the list keep the addresses that are wanted as long as the file is
faithful. -/
theorem listed_next {op : DeviceOp} (hs : s.Faithful) (hlisted : s.Listed)
    (hstep : next s op = some t) (ht : t.Faithful) :
  t.Listed
  := by
  cases op with
  | loadSavedDevices =>
      obtain rfl := Option.some.inj hstep
      intro a
      rw [savedEntries_append, List.map_append, List.mem_append, hlisted a, hs.mem_savedEntries]
      apply or_self_iff
  | scan results =>
      intro a
      rw [(scan_spec hstep).2]
      obtain rfl := Option.some.inj hstep
      apply hlisted a
  | saveDevice addrStr name =>
      obtain rfl := Option.some.inj hstep
      apply (faithful_writeFile.mp ht).2.2
  | deleteSavedDevice index =>
      obtain rfl := Option.some.inj hstep
      revert ht
      rw [deleteSavedDevice]
      split
      · intro _
        apply hlisted
      · intro ht
        apply (faithful_writeFile.mp ht).2.2
  | restart =>
      obtain rfl := Option.some.inj hstep
      apply hs.mem_savedEntries

theorem faithful_start :
  start.Faithful ∧ start.Listed
  := by
  constructor
  · constructor
    · rfl
    · apply List.nodup_nil
    · intro a
      apply Iff.rfl
  · intro a
    apply Iff.rfl

/-- Whatever operations are performed, a scan changes neither the file nor the saved addresses,
and the file is faithful in every state that is passed exactly when every device is saved and
deleted in a state where the devices that are written can be read back. -/
theorem saved_devices_faithful_iff {ops : List DeviceOp}
    (hrun : Run next always start ops t) :
  (∀ u results v, Takes next start ops u (.scan results) v →
      v.file = u.file
        ∧ (savedEntries v.deviceList).map Prod.fst = (savedEntries u.deviceList).map Prod.fst)
    ∧ ((∀ u, Passes next start ops u → u.Faithful) ↔ Run next Keeps start ops t)
  := by
  constructor
  · rintro u results v ⟨_, _, _, _, hstep⟩
    apply scan_spec hstep
  · apply passes_iff (I := fun s => s.Faithful ∧ s.Listed) hrun faithful_start
    · rintro s ⟨hs, -⟩
      apply hs
    · rintro s op t ⟨hs, hlisted⟩ hkeeps hstep
      have ht := (faithful_next hs hlisted hstep).mpr hkeeps
      apply And.intro ht (listed_next hs hlisted hstep ht)
    · rintro s op t ⟨hs, hlisted⟩ hkeeps hstep ht
      apply hkeeps ((faithful_next hs hlisted hstep).mp ht)

/-- A device is found, saved, renamed by the next scan, and deleted. -/
def session : List DeviceOp :=
  [.scan [⟨[1, 2, 3, 4, 5, 0xAB], [66, 117, 100], 0x240404, -50⟩],
    .saveDevice "01:02:03:04:05:AB".toList "Bud|s".toList, .restart,
    .scan [⟨[1, 2, 3, 4, 5, 0xAB], [66], 0x240404, -50⟩], .deleteSavedDevice 0, .restart]

theorem saved_devices_faithful_session :
  ∃ t, Run next Keeps start session t ∧ ∀ u, Passes next start session u → u.Faithful
  := by
  obtain ⟨t, hrun⟩ : ∃ t, Run next Keeps start session t :=
    exists_run_of_exec_guarded (by decide +kernel)
  use t, hrun
  apply (saved_devices_faithful_iff hrun.toAlways).2.mpr hrun

/-- A name with the end of a line in it is not read back. -/
theorem not_saved_devices_faithful_newline :
  ¬ ∀ u, Passes next start
      [.scan [⟨[1, 2, 3, 4, 5, 0xAB], [66, 10, 117], 0x240404, -50⟩],
        .saveDevice "01:02:03:04:05:AB".toList "B\nu".toList] u →
      u.Faithful
  := by
  intro h
  have hentries := (h _ ⟨_, List.prefix_refl _, run_of_exec rfl⟩).entries
  revert hentries
  decide

end SavedDevices

end Ssc
