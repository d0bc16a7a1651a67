import SscOnWindows.Lib.Json
import SscOnWindows.Lib.KeyedList
import SscOnWindows.Lib.TextSearch

/-!
# Bluetooth adapters

`BtAdapterEnumerator` looks through the USB device interfaces for Bluetooth adapters, and has the
table of the chips there is firmware for.  An adapter is told by the vendor and the product in the
path of its interface: with the vendor of the chips the product is looked for in the table that
BTstack has, with another vendor in a table of its own.  Any other adapter has to be of the
Bluetooth class.
-/

namespace Ssc.Firmware

open Json TextSearch

/-! ### Chips -/

structure RealtekChipInfo where
  pid : UInt16
  chipName : List UInt8
  fwName : List UInt8
  cfgName : List UInt8
  deriving DecidableEq

/-- A row of the table. -/
def chip (pid : UInt16) (chipName fwName cfgName : String) : RealtekChipInfo where
  pid := pid
  chipName := utf8 chipName
  fwName := utf8 fwName
  cfgName := utf8 cfgName

/-- `CUSTOM_CHIP_PID`. -/
def customChipPid : UInt16 :=
  0xFFFF

def chipDb : List RealtekChipInfo := [
  chip 0x8771 "RTL8761BU" "rtl8761bu_fw" "rtl8761bu_config",
  chip 0x876C "RTL8761CU" "rtl8761cu_fw" "rtl8761cu_config",
  chip 0xB82C "RTL8822BU" "rtl8822bu_fw" "rtl8822bu_config",
  chip 0xC821 "RTL8821CU" "rtl8821cu_fw" "rtl8821cu_config",
  chip 0xC82C "RTL8822CU" "rtl8822cu_fw" "rtl8822cu_config",
  chip 0xD723 "RTL8723DU" "rtl8723du_fw" "rtl8723du_config",
  chip 0xC852 "RTL8852AU" "rtl8852au_fw" "rtl8852au_config",
  chip 0xB85B "RTL8852BU" "rtl8852bu_fw" "rtl8852bu_config",
  chip 0xB85D "RTL8852BTU" "rtl8852btu_fw" "rtl8852btu_config",
  chip 0xC85A "RTL8852CU" "rtl8852cu_fw" "rtl8852cu_config",
  chip 0xB083 "RTL8851BU" "rtl8851bu_fw" "rtl8851bu_config",
  chip 0x922A "RTL8922AU" "rtl8922au_fw" "rtl8922au_config",
  chip customChipPid "Custom" "custom_fw" "custom_config"]

def findChipInfo (pid : UInt16) : Option RealtekChipInfo :=
  chipDb.find? (·.pid = pid)

def realtekChipName (pid : UInt16) : Option (List UInt8) :=
  (findChipInfo pid).map (·.chipName)

def realtekFwName (pid : UInt16) : Option (List UInt8) :=
  (findChipInfo pid).map (·.fwName)

def realtekCfgName (pid : UInt16) : Option (List UInt8) :=
  (findChipInfo pid).map (·.cfgName)

/-- What an adapter is known by. -/
structure UsbId where
  vid : UInt16
  pid : UInt16
  deriving DecidableEq

structure OemChipMapping where
  id : UsbId
  realtekPid : UInt16

/-- `oem_table`, up to its sentinel. -/
def oemTable : List OemChipMapping := [⟨⟨0x2357, 0x0604⟩, 0x8771⟩]

section Adapters

-- the vendors and products that BTstack has firmware for
variable (btstackTable : List UsbId)

def isInBtstackTable (pid : UInt16) : Bool :=
  btstackTable.any (·.pid = pid)

def resolveRealtekPid (id : UsbId) : UInt16 :=
  if id.vid = 0x0BDA then
    if isInBtstackTable btstackTable id.pid then id.pid else 0
  else ((oemTable.find? (·.id = id)).map (·.realtekPid)).getD 0

/-! ### Interfaces -/

/-- What Windows tells of a USB device interface: its path, if it can be had, and the class, the
subclass and the protocol that WinUSB finds, if the interface can be opened. -/
structure UsbInterface where
  path : Option (List Char)
  descriptor : Option (UInt8 × UInt8 × UInt8)

/-- What follows the first place where `mark` is found. -/
def after (mark : List Char) : List Char → Option (List Char)
  | [] => if mark = [] then some [] else none
  | c :: s => if mark <+: c :: s then some ((c :: s).drop mark.length) else after mark s

/-- `(uint16_t)strtoul(s, nullptr, 16)`, where `unsigned long` has 32 bits. -/
def strtoul (s : List Char) : UInt16 :=
  match Scan.integer 16 (s.dropWhile Scan.isSpace) with
  | none => 0
  | some n => if n.natAbs < 2 ^ 32 then UInt16.ofInt n else 0xFFFF

def parseVidPid (path : List Char) : Option UsbId := do
  let v ← (after (chars "vid_") path).or (after (chars "VID_") path)
  let p ← (after (chars "pid_") path).or (after (chars "PID_") path)
  return ⟨strtoul v, strtoul p⟩

def UsbInterface.isBluetoothClass (i : UsbInterface) : Bool :=
  i.descriptor = some (0xE0, 0x01, 0x01)

structure BtAdapterInfo where
  id : UsbId
  realtekPid : UInt16
  displayName : List UInt8
  devicePath : List Char
  deriving DecidableEq

/-- The bytes of ASCII characters. -/
def bytes (s : List Char) : List UInt8 :=
  s.map Char.toUInt8

def buildDisplayName (id : UsbId) (realtekPid : UInt16) : List UInt8 :=
  let plain := utf8 "0x" ++ bytes (upperHexWord id.vid) ++ utf8 ":0x"
    ++ bytes (upperHexWord id.pid)
  match if realtekPid = 0 then none else realtekChipName realtekPid with
  | some name => (name ++ utf8 " (" ++ plain ++ utf8 ")").take 63
  | none => plain.take 63

/-- What the loop of `enumerate` makes of an interface, apart from the duplicates. -/
def adapter (i : UsbInterface) : Option BtAdapterInfo := do
  let path ← i.path
  let id ← parseVidPid path
  if id.vid = 0x0E0F then none
  else
    let realtekPid := resolveRealtekPid btstackTable id
    if realtekPid ≠ 0 ∨ i.isBluetoothClass then
      some ⟨id, realtekPid, buildDisplayName id realtekPid, path⟩
    else none

/-- One round of the loop of `enumerate`. -/
def enumerateStep (result : List BtAdapterInfo) (i : UsbInterface) : List BtAdapterInfo :=
  match adapter btstackTable i with
  | none => result
  | some info => if result.any (·.id = info.id) then result else result ++ [info]

def enumerate (interfaces : List UsbInterface) : List BtAdapterInfo :=
  interfaces.foldl (enumerateStep btstackTable) []

end Adapters

/-! ### Paths -/

/-- What follows the mark is found, if the mark is not found before. -/
theorem after_append {mark x : List Char} (hx : Clear mark x) (y : List Char) :
  after mark (x ++ (mark ++ y)) = some y
  := by
  induction x with
  | nil =>
      cases hmark : mark with
      | nil => cases y <;> simp [after]
      | cons c w =>
          rw [List.nil_append, List.cons_append, after, if_pos]
          · rw [← List.cons_append, List.drop_left]
          · rw [← List.cons_append]
            apply List.prefix_append
  | cons c x ih =>
      obtain ⟨⟨hbegins, hmark⟩, hx⟩ := clear_cons_iff.mp hx
      rw [List.cons_append, after, if_neg, ih hx]
      intro hfound
      rcases List.prefix_or_prefix_of_prefix hfound (List.prefix_append (c :: x) (mark ++ y))
        with h | h
      · apply hmark h
      · apply hbegins h

/-- Two more digits. -/
theorem ofDigits_append_hexByte (digits : List Char) (b : UInt8) :
  Scan.ofDigits 16 (digits ++ Scan.hexByte b) = 256 * Scan.ofDigits 16 digits + b.toNat
  := by
  have hb := b.toNat_lt
  have hhigh := Scan.digitValue_digitChar (d := b.toNat / 16) (by omega)
  have hlow := Scan.digitValue_digitChar (d := b.toNat % 16) (by omega)
  rw [Scan.ofDigits, List.foldl_append, ← Scan.ofDigits]
  simp only [Scan.hexByte, List.foldl_cons, List.foldl_nil, hhigh, hlow]
  omega

/-- The digits of a word are those of its number. -/
theorem ofDigits_hexWord (n : UInt16) :
  Scan.ofDigits 16 (hexWord n) = n.toNat
  := by
  have hhigh := ofDigits_append_hexByte [] (n >>> 8).toUInt8
  have hn := n.toNat_lt
  rw [hexWord, ofDigits_append_hexByte, ← List.nil_append (Scan.hexByte _), hhigh]
  simp only [Scan.ofDigits, List.foldl_nil, UInt16.toNat_toUInt8, UInt16.toNat_shiftRight]
  simp [Nat.shiftRight_eq_div_pow]
  omega

theorem digitValue_of_mem_hexWord {n : UInt16} {c : Char} (h : c ∈ hexWord n) :
  Scan.digitValue c < 16
  := by
  obtain ⟨d, hd, rfl⟩ := digit_hexWord h
  rw [Scan.digitValue_digitChar hd]
  apply hd

/-- A word is read back from its digits. -/
theorem strtoul_hexWord (n : UInt16) {s : List Char}
    (hs : ∀ c ∈ s.head?, 16 ≤ Scan.digitValue c) :
  strtoul (hexWord n ++ s) = n
  := by
  have hdigits : ∀ c ∈ hexWord n, Scan.digitValue c < 16 :=
    fun c hc => digitValue_of_mem_hexWord hc
  obtain ⟨c, digits, hcons⟩ := List.exists_cons_of_length_eq_add_one (length_hexWord n)
  have hc := hdigits c (by simp [hcons])
  have hspace : (hexWord n ++ s).dropWhile Scan.isSpace = hexWord n ++ s := by
    rw [hcons, List.cons_append, List.dropWhile_cons_of_neg]
    simpa using (Scan.digit_spec hc).1
  have hsign : Scan.sign (hexWord n ++ s) = (1, hexWord n ++ s) := by
    rw [hcons, List.cons_append]
    apply Scan.sign_digit hc
  have hnatural := @Scan.natural_digits 16 (hexWord n) s (by simp [hcons]) hdigits hs
    (by simp [length_hexWord])
  have hn := n.toNat_lt
  rw [strtoul, hspace, Scan.integer, hsign, hnatural, ofDigits_hexWord]
  simp only [Option.map_some, one_mul, Int.natAbs_natCast]
  rw [if_pos (by omega), UInt16.ofInt, Int.emod_eq_of_lt (by omega) (by omega),
    Int.toNat_natCast, UInt16.ofNat_toNat]

/-! ### What is plugged in -/

/-- A USB device that is plugged in: its identifiers, the rest of the path of its interface, which
does not begin with a digit, and its class. -/
structure UsbDevice where
  id : UsbId
  instanceName : List Char
  descriptor : Option (UInt8 × UInt8 × UInt8)
  ends : ∀ c ∈ instanceName.head?, 16 ≤ Scan.digitValue c

namespace UsbDevice

/-- The path that Windows makes. -/
def path (d : UsbDevice) : List Char :=
  chars "\\\\?\\usb#" ++ (chars "vid_" ++ (hexWord d.id.vid ++ (chars "&" ++ (chars "pid_"
    ++ (hexWord d.id.pid ++ d.instanceName)))))

/-- What Windows tells of the device. -/
def interface (d : UsbDevice) : UsbInterface where
  path := some d.path
  descriptor := d.descriptor

/-- The identifiers are read from the path. -/
theorem parseVidPid_path (d : UsbDevice) :
  parseVidPid d.path = some d.id
  := by
  have hvid : after (chars "vid_") d.path
      = some (hexWord d.id.vid ++ (chars "&" ++ (chars "pid_"
        ++ (hexWord d.id.pid ++ d.instanceName)))) := by
    apply after_append
    decide +kernel
  have hpid : after (chars "pid_") d.path = some (hexWord d.id.pid ++ d.instanceName) := by
    -- the vendor stands before the mark, and has no letter of it
    have hclear : Clear (chars "pid_") (chars "\\\\?\\usb#" ++ (chars "vid_"
        ++ (hexWord d.id.vid ++ chars "&"))) := by
      have hword : Clear (chars "pid_") (hexWord d.id.vid) :=
        clear_of_not_mem (not_mem_hexWord (by decide) _)
      apply Clear.append (by decide +kernel)
      apply Clear.append (by decide +kernel)
      apply hword.append (by decide +kernel)
    have hafter := after_append hclear (hexWord d.id.pid ++ d.instanceName)
    simpa only [path, List.append_assoc] using hafter
  have hv : strtoul (hexWord d.id.vid ++ (chars "&" ++ (chars "pid_"
      ++ (hexWord d.id.pid ++ d.instanceName)))) = d.id.vid := by
    apply strtoul_hexWord
    intro c hc
    obtain rfl : '&' = c := Option.some.inj hc
    decide
  have hp : strtoul (hexWord d.id.pid ++ d.instanceName) = d.id.pid :=
    strtoul_hexWord _ d.ends
  rw [parseVidPid, hvid, hpid]
  simp only [Option.some_or, Option.pure_def, Option.bind_eq_bind, Option.bind_some, hv, hp]

/-- The device is a Bluetooth adapter, for all that is known of it. -/
def isAdapter (btstackTable : List UsbId) (d : UsbDevice) : Bool :=
  d.id.vid ≠ 0x0E0F
    ∧ (resolveRealtekPid btstackTable d.id ≠ 0 ∨ d.descriptor = some (0xE0, 0x01, 0x01))

/-- What is shown of the device. -/
def info (btstackTable : List UsbId) (d : UsbDevice) : BtAdapterInfo where
  id := d.id
  realtekPid := resolveRealtekPid btstackTable d.id
  displayName := buildDisplayName d.id (resolveRealtekPid btstackTable d.id)
  devicePath := d.path

theorem isAdapter_iff (btstackTable : List UsbId) (d : UsbDevice) :
  d.isAdapter btstackTable = true ↔ d.id.vid ≠ 0x0E0F
    ∧ (resolveRealtekPid btstackTable d.id ≠ 0 ∨ d.interface.isBluetoothClass = true)
  := by
  rw [isAdapter, UsbInterface.isBluetoothClass, decide_eq_true_iff, decide_eq_true_iff]
  rfl

theorem adapter_interface (btstackTable : List UsbId) (d : UsbDevice) :
  adapter btstackTable d.interface
    = if d.isAdapter btstackTable then some (d.info btstackTable) else none
  := by
  have hpath : d.interface.path = some d.path := rfl
  simp only [adapter, hpath, Option.bind_eq_bind, Option.bind_some, parseVidPid_path]
  by_cases hvid : d.id.vid = 0x0E0F
  · rw [if_pos hvid, if_neg fun h => ((isAdapter_iff _ d).mp h).1 hvid]
  · rw [if_neg hvid]
    by_cases hbluetooth : resolveRealtekPid btstackTable d.id ≠ 0
        ∨ d.interface.isBluetoothClass = true
    · rw [if_pos hbluetooth, if_pos ((isAdapter_iff _ d).mpr ⟨hvid, hbluetooth⟩), info]
    · rw [if_neg hbluetooth, if_neg fun h => hbluetooth ((isAdapter_iff _ d).mp h).2]

end UsbDevice

/-- The loop adds the adapters that are new. -/
theorem enumerate_eq (btstackTable : List UsbId) (interfaces : List UsbInterface) :
  enumerate btstackTable interfaces
    = (interfaces.filterMap (adapter btstackTable)).foldl (KeyedList.addNew BtAdapterInfo.id) []
  := by
  rw [enumerate, List.foldl_filterMap]
  congr
  funext result i
  rw [enumerateStep]
  cases adapter btstackTable i with
  | none => rfl
  | some info => rfl

/-- An adapter is listed for each vendor and product among the devices that are Bluetooth adapters:
the first device that has them, and the adapters are in the order of these devices. -/
theorem enumerate_devices (btstackTable : List UsbId) (devices : List UsbDevice) :
  let found := enumerate btstackTable (devices.map UsbDevice.interface)
  (found.map (·.id)).Nodup
    ∧ List.Sublist found
      ((devices.filter (·.isAdapter btstackTable)).map (·.info btstackTable))
    ∧ ∀ id, found.find? (·.id = id)
      = (devices.find? fun d => d.isAdapter btstackTable ∧ d.id = id).map (·.info btstackTable)
  := by
  have hadapters : (devices.map UsbDevice.interface).filterMap (adapter btstackTable)
      = (devices.filter (·.isAdapter btstackTable)).map (·.info btstackTable) := by
    rw [List.filterMap_map, ← List.filterMap_eq_map, List.filterMap_filter]
    apply List.filterMap_congr
    intro d _
    rw [Function.comp_apply, UsbDevice.adapter_interface]
    rfl
  simp only [enumerate_eq, hadapters]
  refine ⟨?_, ?_, ?_⟩
  · apply KeyedList.nodup_foldl_addNew
    apply List.nodup_nil
  · apply KeyedList.foldl_addNew_sublist
  · intro id
    rw [KeyedList.find?_foldl_addNew, List.nil_append, List.find?_map, List.find?_filter]
    simp only [Function.comp_apply, UsbDevice.info, decide_eq_true_eq]

end Ssc.Firmware
