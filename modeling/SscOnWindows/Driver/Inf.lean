import SscOnWindows.Lib.TextSearch

/-!
# The INF files of the dongle

A dongle is switched to WinUSB by a package whose INF file is generated for its vendor and product.
Packages for WinUSB are found again among the INF files of the system by a search for these two and
for `winusb.inf`.

A character is one byte of a file; the files are those that `oem*.inf` matches.
-/

namespace Ssc.Driver

open TextSearch

/-- An INF file of the system, with its text when the file can be opened. -/
structure InfFile where
  name : List Char
  text : Option (List Char)
  deriving DecidableEq, Repr

/-! ### Writing -/

def kCatName : List Char := chars "a2dpwb_winusb.cat"

/-- How `write_winusb_inf` names the hardware. -/
def hardwareId (vid pid : UInt16) : List Char :=
  snprintf 32 (chars "USB\\VID_" ++ upperHexWord vid ++ chars "&PID_" ++ upperHexWord pid)

/-- The INF up to the name of the hardware. -/
def infBefore : List Char :=
  chars "[Version]\r\n"
  ++ chars "Signature=\"$Windows NT$\"\r\n"
  ++ chars "Class=USBDevice\r\n"
  ++ chars "ClassGuid=\x7b88bae032-5a81-49f0-bc3d-a4ff138216d6\x7d\r\n"
  ++ chars "Provider=\"A2DPWB\"\r\n"
  ++ chars "DriverVer=09/15/2026,1.0.0.0\r\n"
  ++ chars "CatalogFile=" ++ kCatName ++ chars "\r\n"
  ++ chars "\r\n"
  ++ chars "[Manufacturer]\r\n"
  ++ chars "%Mfg%=DeviceInstall,NTamd64\r\n"
  ++ chars "\r\n"
  ++ chars "[DeviceInstall.NTamd64]\r\n"
  ++ chars "%DeviceName%=USB_Install, "

/-- The INF after the name of the hardware. -/
def infAfter : List Char :=
  chars "\r\n"
  ++ chars "\r\n"
  ++ chars "[USB_Install]\r\n"
  ++ chars "Include = winusb.inf\r\n"
  ++ chars "Needs   = WINUSB.NT\r\n"
  ++ chars "\r\n"
  ++ chars "[USB_Install.Services]\r\n"
  ++ chars "Include    = winusb.inf\r\n"
  ++ chars "Needs      = WINUSB.NT.Services\r\n"
  ++ chars "\r\n"
  ++ chars "[USB_Install.HW]\r\n"
  ++ chars "AddReg = Dev_AddReg\r\n"
  ++ chars "\r\n"
  ++ chars "[Dev_AddReg]\r\n"
  ++ chars "HKR,,DeviceInterfaceGUIDs,0x10000,\"\x7b3fe6abe9-5d35-4cc6-9b10-78e6f199c952\x7d\"\r\n"
  ++ chars "\r\n"
  ++ chars "[Strings]\r\n"
  ++ chars "Mfg=\"A2DPWB\"\r\n"
  ++ chars "DeviceName=\"A2DPWB WinUSB Streaming Dongle\"\r\n"
  ++ chars "\r\n"

/-- The INF that `write_winusb_inf` generates. -/
def winusbInf (vid pid : UInt16) : List Char :=
  snprintf 4096 (infBefore ++ hardwareId vid pid ++ infAfter)

/-! ### Searching -/

/-- What `find_winusb_infs` searches for. -/
def needle (vid pid : UInt16) : List Char :=
  snprintf 40 (chars "vid_" ++ hexWord vid ++ chars "&pid_" ++ hexWord pid)

/-- The text of an INF is that of a package for WinUSB and the hardware. -/
def isWinusbText (vid pid : UInt16) (text : List Char) : Bool :=
  let text := (text.take (64 * 1024)).map Char.toLower
  text ≠ [] ∧ needle vid pid <:+: text ∧ chars "winusb.inf" <:+: text

/-- The file is opened and its text is that of a package for WinUSB and the hardware. -/
def InfFile.isWinusb (f : InfFile) (vid pid : UInt16) : Bool :=
  f.text.any (isWinusbText vid pid)

/-- The names of the packages for WinUSB and the hardware. -/
def findWinusbInfs (files : List InfFile) (vid pid : UInt16) : List (List Char) :=
  (files.filter (·.isWinusb vid pid)).map InfFile.name

/-! ### What is written is found -/

theorem hardwareId_eq (vid pid : UInt16) :
  hardwareId vid pid
    = chars "USB\\VID_" ++ upperHexWord vid ++ chars "&PID_" ++ upperHexWord pid
  := rfl

theorem needle_eq (vid pid : UInt16) :
  needle vid pid = chars "vid_" ++ (hexWord vid ++ (chars "&pid_" ++ hexWord pid))
  := rfl

theorem winusbInf_eq (vid pid : UInt16) :
  winusbInf vid pid = infBefore ++ hardwareId vid pid ++ infAfter
  := by
  apply snprintf_eq_self
  have hbefore : infBefore.length ≤ 1000 := by decide +kernel
  have hafter : infAfter.length ≤ 1000 := by decide +kernel
  have hid : (hardwareId vid pid).length = 21 := rfl
  rw [List.length_append, List.length_append, hid]
  omega

/-- The text in which a vendor and a product are searched for. -/
def searched (vid pid : UInt16) : List Char :=
  (infBefore ++ chars "USB\\").map Char.toLower
  ++ (chars "vid_" ++ (hexWord vid ++ (chars "&pid_" ++ (hexWord pid
    ++ infAfter.map Char.toLower))))

theorem map_toLower_winusbInf (vid pid : UInt16) :
  ((winusbInf vid pid).take (64 * 1024)).map Char.toLower = searched vid pid
  := by
  have hlength : (winusbInf vid pid).length ≤ 64 * 1024 := by
    apply (List.length_take_le _ _).trans
    decide
  rw [List.take_of_length_le hlength, winusbInf_eq, hardwareId_eq, searched]
  simp only [List.map_append, map_toLower_upperHexWord, List.append_assoc]
  rfl

theorem clear_infBefore :
  Clear (chars "vid_") ((infBefore ++ chars "USB\\").map Char.toLower)
  := by decide +kernel

theorem clear_infAfter :
  Clear (chars "vid_") (infAfter.map Char.toLower)
  := by decide +kernel

/-- The mark `vid_` is only at the name of the hardware. -/
theorem clear_afterMark (vid pid : UInt16) :
  Clear (chars "vid_") (chars "id_" ++ (hexWord vid ++ (chars "&pid_" ++ (hexWord pid
    ++ infAfter.map Char.toLower))))
  := by
  have hid : Clear (chars "vid_") (chars "id_") := by decide
  have hpid : Clear (chars "vid_") (chars "&pid_") := by decide
  have hhex : ∀ n, Clear (chars "vid_") (hexWord n) := by
    intro n
    apply clear_of_not_mem (not_mem_hexWord _ n)
    decide
  exact hid.append ((hhex vid).append (hpid.append ((hhex pid).append clear_infAfter)))

/-- The INF of a vendor and a product is found for them, and for no others. -/
theorem isWinusbText_winusbInf (vid pid vid' pid' : UInt16) :
  isWinusbText vid' pid' (winusbInf vid pid) = true ↔ vid' = vid ∧ pid' = pid
  := by
  have hfound : needle vid' pid' <:+: searched vid pid ↔ vid' = vid ∧ pid' = pid := by
    rw [needle_eq, searched]
    apply (infix_mark_iff clear_infBefore (clear_afterMark vid pid) _).trans
    have hlength : ∀ m n, (hexWord m).length = (hexWord n).length := fun _ _ => rfl
    rw [append_prefix_append_iff (hlength vid' vid), hexWord_inj, List.prefix_append_right_inj,
      ← List.append_nil (hexWord pid'), append_prefix_append_iff (hlength pid' pid), hexWord_inj]
    apply and_congr_right
    intro _
    apply and_iff_left List.nil_prefix
  have hwinusb : chars "winusb.inf" <:+: searched vid pid := by
    have hafter : chars "winusb.inf" <:+: infAfter.map Char.toLower := by decide +kernel
    apply hafter.trans
    rw [searched]
    simp only [← List.append_assoc]
    apply (List.suffix_append _ _).isInfix
  have hne : searched vid pid ≠ [] := by
    intro h
    rw [h] at hwinusb
    revert hwinusb
    decide
  rw [isWinusbText, map_toLower_winusbInf, decide_eq_true_iff]
  simp only [hne, hwinusb, ne_eq, not_false_eq_true, true_and, and_true, hfound]

end Ssc.Driver
