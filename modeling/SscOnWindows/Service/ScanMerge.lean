import SscOnWindows.Lib.KeyedList
import SscOnWindows.Lib.Latest
import SscOnWindows.Service.SavedDevices

/-!
# The merge of a scan

A scan drops the devices of the list that are not saved, and takes up what it has found, result by
result: a device whose address is in the list is renamed, unless the result has no name, and any
other is put behind the list.  The address of a device is its text.
-/

namespace Ssc

open Latest

/-- The list behind a scan with the results. -/
def scanMerge (l : List DeviceEntry) (results : List DiscoveredDevice) : List DeviceEntry :=
  results.foldl mergeDevice (l.filter (·.saved))

/-- The text of the address of a result. -/
def DiscoveredDevice.addrStr (d : DiscoveredDevice) : List Char :=
  formatAddress d.address

/-- The name a result has for the device with the address. -/
def DiscoveredDevice.nameFor (addrStr : List Char) (d : DiscoveredDevice) : Option (List Char) :=
  if d.addrStr = addrStr ∧ d.name ≠ [] then some (textOf d.name) else none

/-- A device without its name. -/
def DeviceEntry.unnamed (e : DeviceEntry) : DeviceEntry :=
  { e with name := [] }

/-- The text of the address of a device is the one the scan has for it. -/
def DeviceEntry.Formatted (e : DeviceEntry) : Prop :=
  e.addrStr = formatAddress e.address

/-- The name of the device with the address in the list, which is empty if there is none. -/
def nameIn (l : List DeviceEntry) (addrStr : List Char) : List Char :=
  ((l.find? (·.addrStr = addrStr)).map DeviceEntry.name).getD []

/-- What is to be said of a list behind a scan: the addresses are different, as texts and as bytes
if the texts were theirs, the saved devices are those of before but for their names, what is not
saved has been found, the addresses are those of the saved devices and of the results, and each
name is the last one of a result with a name, or the previous one. -/
structure Merged (previous : List Char → List Char) (l : List DeviceEntry)
    (results : List DiscoveredDevice) (merged : List DeviceEntry) : Prop where
  nodup : (merged.map DeviceEntry.addrStr).Nodup
  nodup_address : (∀ e ∈ l, e.Formatted) → (merged.map DeviceEntry.address).Nodup
  saved : (merged.filter (·.saved)).map DeviceEntry.unnamed
    = (l.filter (·.saved)).map DeviceEntry.unnamed
  unsaved : ∀ e ∈ merged, e.saved = false → e.addrStr ∈ results.map DiscoveredDevice.addrStr
  addresses : ∀ addrStr, addrStr ∈ merged.map DeviceEntry.addrStr
    ↔ addrStr ∈ (l.filter (·.saved)).map DeviceEntry.addrStr
      ∨ addrStr ∈ results.map DiscoveredDevice.addrStr
  name : ∀ e ∈ merged,
    e.name = (latest (DiscoveredDevice.nameFor e.addrStr) results).getD (previous e.addrStr)

/-! ### One result -/

section Step

variable (l : List DeviceEntry) (d : DiscoveredDevice)

theorem indexOf_lt_iff {addrStr : List Char} :
  indexOf l addrStr < l.length ↔ addrStr ∈ l.map DeviceEntry.addrStr
  := by
  rw [indexOf, List.findIdx_lt_length, List.mem_map]
  simp

/-- A result whose address is in the list renames the first device with it. -/
theorem mergeDevice_of_mem (h : d.addrStr ∈ l.map DeviceEntry.addrStr) :
  mergeDevice l d
    = l.modify (indexOf l d.addrStr) fun e =>
        if d.name = [] then e else { e with name := textOf d.name }
  := if_pos ((indexOf_lt_iff l).mpr h)

/-- Any other result is a new device. -/
theorem mergeDevice_of_notMem (h : d.addrStr ∉ l.map DeviceEntry.addrStr) :
  ∃ e : DeviceEntry, mergeDevice l d = l ++ [e] ∧ e.addrStr = d.addrStr ∧ e.name = textOf d.name
    ∧ e.saved = false
  := by
  refine ⟨_, if_neg (fun hlt => h ((indexOf_lt_iff l).mp hlt)), rfl, rfl, rfl⟩

theorem formatted_mergeDevice (h : ∀ e ∈ l, e.Formatted) :
  ∀ e ∈ mergeDevice l d, e.Formatted
  := by
  intro e he
  rw [mergeDevice] at he
  split at he
  · obtain ⟨i, hi, rfl⟩ := List.mem_iff_getElem.mp he
    rw [List.length_modify] at hi
    have hold := h l[i] (List.getElem_mem hi)
    rw [List.getElem_modify]
    split
    · split
      · apply hold
      · apply hold
    · apply hold
  · rcases List.mem_append.mp he with hold | hnew
    · apply h e hold
    · rw [List.mem_singleton.mp hnew, DeviceEntry.Formatted]

theorem map_modify_rename {β : Type*} {f : DeviceEntry → β}
    (hf : ∀ e name, f { e with name := name } = f e) (i : Nat) :
  (l.modify i fun e => if d.name = [] then e else { e with name := textOf d.name }).map f
    = l.map f
  := by
  apply List.ext_getElem
  · rw [List.length_map, List.length_modify, List.length_map]
  · intro j hj hj'
    rw [List.getElem_map, List.getElem_map, List.getElem_modify]
    split
    · split
      · rfl
      · apply hf
    · rfl

theorem addrStrs_mergeDevice :
  (mergeDevice l d).map DeviceEntry.addrStr
    = if d.addrStr ∈ l.map DeviceEntry.addrStr then l.map DeviceEntry.addrStr
      else l.map DeviceEntry.addrStr ++ [d.addrStr]
  := by
  split
  next h =>
    rw [mergeDevice_of_mem l d h]
    apply map_modify_rename
    intro _ _
    rfl
  next h =>
    obtain ⟨e, he, haddr, -⟩ := mergeDevice_of_notMem l d h
    rw [he, List.map_append, List.map_singleton, haddr]

theorem nodup_mergeDevice (h : (l.map DeviceEntry.addrStr).Nodup) :
  ((mergeDevice l d).map DeviceEntry.addrStr).Nodup
  := by
  rw [addrStrs_mergeDevice]
  split
  · apply h
  next hnew =>
    rw [List.nodup_append]
    use h, List.nodup_singleton _
    rintro a ha b hb rfl
    apply hnew
    rw [← List.mem_singleton.mp hb]
    apply ha

theorem mem_addrStrs_mergeDevice (addrStr : List Char) :
  addrStr ∈ (mergeDevice l d).map DeviceEntry.addrStr
    ↔ addrStr ∈ l.map DeviceEntry.addrStr ∨ addrStr = d.addrStr
  := by
  rw [addrStrs_mergeDevice]
  split
  next h =>
    symm
    apply or_iff_left_of_imp
    rintro rfl
    apply h
  next => rw [List.mem_append, List.mem_singleton]

/-- The saved devices are kept but for their names. -/
theorem saved_mergeDevice :
  ((mergeDevice l d).filter (·.saved)).map DeviceEntry.unnamed
    = (l.filter (·.saved)).map DeviceEntry.unnamed
  := by
  have hfilter (l : List DeviceEntry) : (l.filter (·.saved)).map DeviceEntry.unnamed
      = (l.map DeviceEntry.unnamed).filter (·.saved) := by
    rw [List.filter_map]
    rfl
  by_cases h : d.addrStr ∈ l.map DeviceEntry.addrStr
  · rw [mergeDevice_of_mem l d h, hfilter, hfilter, map_modify_rename]
    intro _ _
    rfl
  · obtain ⟨e, he, -, -, hsaved⟩ := mergeDevice_of_notMem l d h
    rw [he, List.filter_append, List.filter_singleton, hsaved]
    simp

/-- What is not saved has been found, or was in the list. -/
theorem unsaved_mergeDevice {e : DeviceEntry} (he : e ∈ mergeDevice l d)
    (hsaved : e.saved = false) :
  e.addrStr = d.addrStr ∨ ∃ e' ∈ l, e'.saved = false ∧ e'.addrStr = e.addrStr
  := by
  by_cases h : d.addrStr ∈ l.map DeviceEntry.addrStr
  · rw [mergeDevice_of_mem l d h] at he
    obtain ⟨i, hi, rfl⟩ := List.mem_iff_getElem.mp he
    have hlt : i < l.length := by rwa [List.length_modify] at hi
    right
    use l[i], List.getElem_mem hlt
    rw [List.getElem_modify] at hsaved ⊢
    split at hsaved
    next hindex =>
      rw [if_pos hindex]
      split at hsaved
      next hname =>
        rw [if_pos hname]
        exact ⟨hsaved, rfl⟩
      next hname =>
        rw [if_neg hname]
        exact ⟨hsaved, rfl⟩
    next hindex =>
      rw [if_neg hindex]
      exact ⟨hsaved, rfl⟩
  · obtain ⟨e', he', haddr, -⟩ := mergeDevice_of_notMem l d h
    rw [he'] at he
    rcases List.mem_append.mp he with hold | hnew
    · right
      use e, hold, hsaved
    · left
      rw [List.mem_singleton.mp hnew, haddr]

/-- A result with a name gives it to the device with its address. -/
theorem nameIn_mergeDevice (addrStr : List Char) :
  nameIn (mergeDevice l d) addrStr = (d.nameFor addrStr).getD (nameIn l addrStr)
  := by
  rw [DiscoveredDevice.nameFor]
  by_cases h : d.addrStr ∈ l.map DeviceEntry.addrStr
  · rw [mergeDevice_of_mem l d h, nameIn, indexOf, KeyedList.find?_modify_findIdx]
    · by_cases heq : d.addrStr = addrStr
      · subst heq
        obtain ⟨e, he⟩ : ∃ e, l.find? (·.addrStr = d.addrStr) = some e := by
          rw [← Option.isSome_iff_exists, List.find?_isSome]
          simpa using h
        rw [if_pos rfl, nameIn, he]
        by_cases hname : d.name = []
        · simp [hname]
        · simp [hname]
      · rw [if_neg heq, if_neg (fun h => heq h.1), Option.getD_none, nameIn]
    · intro e
      split <;> rfl
  · obtain ⟨e, he, haddr, hname, -⟩ := mergeDevice_of_notMem l d h
    rw [he, nameIn, nameIn, List.find?_append]
    by_cases heq : d.addrStr = addrStr
    · subst heq
      have hnone : l.find? (·.addrStr = d.addrStr) = none := by
        rw [List.find?_eq_none]
        intro e' he' hsame
        apply h
        rw [← of_decide_eq_true hsame]
        apply List.mem_map_of_mem he'
      rw [hnone, Option.none_or, List.find?_singleton, haddr, decide_eq_true rfl]
      by_cases hnil : d.name = []
      · simp [hnil, hname, textOf]
      · simp [hnil, hname]
    · rw [List.find?_singleton, haddr, decide_eq_false heq]
      simp [heq]

end Step

/-! ### All results -/

section Run

variable (l : List DeviceEntry) (results : List DiscoveredDevice)

/-- The addresses of a list that is merged into stay different. -/
theorem nodup_foldl_mergeDevice {l : List DeviceEntry} (h : (l.map DeviceEntry.addrStr).Nodup) :
  ((results.foldl mergeDevice l).map DeviceEntry.addrStr).Nodup
  := by
  induction results generalizing l with
  | nil => apply h
  | cons d results ih => apply ih (nodup_mergeDevice l d h)

theorem formatted_foldl_mergeDevice (h : ∀ e ∈ l, e.Formatted) :
  ∀ e ∈ results.foldl mergeDevice l, e.Formatted
  := by
  induction results generalizing l with
  | nil => apply h
  | cons d results ih => apply ih _ (formatted_mergeDevice l d h)

theorem mem_addrStrs_foldl_mergeDevice (addrStr : List Char) :
  addrStr ∈ (results.foldl mergeDevice l).map DeviceEntry.addrStr
    ↔ addrStr ∈ l.map DeviceEntry.addrStr ∨ addrStr ∈ results.map DiscoveredDevice.addrStr
  := by
  induction results generalizing l with
  | nil => simp
  | cons d results ih =>
      rw [List.foldl_cons, ih, mem_addrStrs_mergeDevice, List.map_cons, List.mem_cons, or_assoc]

theorem saved_foldl_mergeDevice :
  ((results.foldl mergeDevice l).filter (·.saved)).map DeviceEntry.unnamed
    = (l.filter (·.saved)).map DeviceEntry.unnamed
  := by
  induction results generalizing l with
  | nil => rfl
  | cons d results ih => rw [List.foldl_cons, ih, saved_mergeDevice]

theorem unsaved_foldl_mergeDevice {e : DeviceEntry} (he : e ∈ results.foldl mergeDevice l)
    (hsaved : e.saved = false) :
  e.addrStr ∈ results.map DiscoveredDevice.addrStr
    ∨ ∃ e' ∈ l, e'.saved = false ∧ e'.addrStr = e.addrStr
  := by
  induction results generalizing l with
  | nil => exact .inr ⟨e, he, hsaved, rfl⟩
  | cons d results ih =>
      rw [List.map_cons, List.mem_cons]
      rcases ih _ he with hfound | ⟨e', he', hunsaved, haddr⟩
      · exact .inl (.inr hfound)
      · rw [← haddr]
        rcases unsaved_mergeDevice l d he' hunsaved with hfound | hold
        · exact .inl (.inl hfound)
        · exact .inr hold

end Run

/-- Behind a scan a list with different addresses is as promised, where the previous name of a
device is the one it was saved under. -/
theorem merged_scanMerge (l : List DeviceEntry) (results : List DiscoveredDevice)
    (h : (l.map DeviceEntry.addrStr).Nodup) :
  Merged (nameIn (l.filter (·.saved))) l results (scanMerge l results)
  := by
  have hnodup : ((scanMerge l results).map DeviceEntry.addrStr).Nodup := by
    apply nodup_foldl_mergeDevice
    apply List.Nodup.sublist (List.filter_sublist.map _) h
  constructor
  · apply hnodup
  · intro hformatted
    have hmerged : ∀ e ∈ scanMerge l results, e.Formatted := by
      apply formatted_foldl_mergeDevice
      intro e he
      apply hformatted e (List.mem_of_mem_filter he)
    have htexts : (scanMerge l results).map DeviceEntry.addrStr
        = ((scanMerge l results).map DeviceEntry.address).map formatAddress := by
      rw [List.map_map]
      apply List.map_congr_left hmerged
    rw [htexts] at hnodup
    apply hnodup.of_map
  · rw [scanMerge, saved_foldl_mergeDevice, List.filter_filter]
    simp only [Bool.and_self]
  · intro e he hsaved
    apply (unsaved_foldl_mergeDevice _ _ he hsaved).resolve_right
    rintro ⟨e', he', hunsaved, -⟩
    rw [(List.mem_filter.mp he').2] at hunsaved
    contradiction
  · intro addrStr
    apply mem_addrStrs_foldl_mergeDevice
  · intro e he
    have hname := field_foldl (fun l => nameIn l e.addrStr)
      (fun l d => nameIn_mergeDevice l d e.addrStr) (l.filter (·.saved)) results
    rw [← hname, ← scanMerge, nameIn, KeyedList.find?_key hnodup he]
    rfl

/-- A device that an earlier scan has found. -/
def foundBuds : DeviceEntry where
  address := [1, 2, 3, 4, 5, 6]
  name := "Buds".toList
  addrStr := "01:02:03:04:05:06".toList
  audioDevice := true
  saved := false

/-- It is found again, without a name. -/
def foundAgain : DiscoveredDevice where
  address := [1, 2, 3, 4, 5, 6]
  name := []
  cod := 0x240404
  rssi := -50

/-- A saved device, the device that an earlier scan has found, and another saved one. -/
def listed : List DeviceEntry := [
  { address := [6, 5, 4, 3, 2, 1], name := "Headset".toList, addrStr := "06:05:04:03:02:01".toList,
    audioDevice := true, saved := true },
  foundBuds,
  { address := [7, 7, 7, 7, 7, 7], name := [], addrStr := "07:07:07:07:07:07".toList,
    audioDevice := true, saved := true }]

/-- The first two are found again, the saved one twice and under another name, and so is a
device that is not in the list. -/
def rescan : List DiscoveredDevice := [
  { address := [6, 5, 4, 3, 2, 1], name := [72, 50], cod := 0x240404, rssi := -40 },
  foundAgain,
  { address := [6, 5, 4, 3, 2, 1], name := [], cod := 0x240404, rssi := -45 },
  { address := [8, 8, 8, 8, 8, 8], name := [80, 104], cod := 0x5A020C, rssi := -70 }]

theorem merged_rescan :
  Merged (nameIn (listed.filter (·.saved))) listed rescan (scanMerge listed rescan)
  := merged_scanMerge listed rescan (by decide)

/-- Its name is lost. -/
theorem not_merged_foundAgain :
  ¬ Merged (nameIn [foundBuds]) [foundBuds] [foundAgain] (scanMerge [foundBuds] [foundAgain])
  := by
  intro h
  have hname := h.name { foundBuds with name := [] } (by decide)
  revert hname
  decide

end Ssc
