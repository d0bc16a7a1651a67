import SscOnWindows.Lib.TextSearch

/-!
# The driver mode of the dongle

The first device node with a hardware identifier of the dongle says by the name of its service
which driver the dongle has.  What the registry holds of a node are strings that end with a zero,
a list of them with one more zero at its end.
-/

namespace Ssc.Driver

open TextSearch

inductive DongleDriverMode where
  | notPresent
  | winUsbStream
  | bthUsb
  | other
  deriving DecidableEq, Repr

structure DongleDriverStatus where
  mode : DongleDriverMode := .notPresent
  service : List Char := []
  deviceName : List Char := []
  instanceId : List Char := []
  deriving DecidableEq, Repr

/-- A device node, with the bytes that are read of its properties: none, when a property is missing
or cannot be read. -/
structure DeviceNode where
  hardwareId : List Char := []
  instanceId : List Char := []
  friendlyName : List Char := []
  deviceDesc : List Char := []
  service : List Char := []
  deriving DecidableEq, Repr

/-- `_stricmp` finds no difference. -/
def sameText (s t : List Char) : Bool :=
  s.map Char.toLower = t.map Char.toLower

/-- The strings of a `REG_MULTI_SZ`, as a loop over its offsets finds them.  There are at most as
many as there are bytes. -/
def strings : ℕ → List Char → List (List Char)
  | 0, _ => []
  | n + 1, data =>
      if data.length ≤ 1 then []
      else
        let s := Scan.cString data
        if s = [] then [] else s :: strings n (data.drop (s.length + 1))

def multiSzFirst (data : List Char) : List Char :=
  ((strings data.length data).find? fun s => !sameText s (chars "ROOT\\*PNP0X01")).getD []

/-- A hardware identifier, of which 127 characters are looked at, has the vendor and the product. -/
def hwidMatches (hwid : List Char) (vid pid : UInt16) : Bool :=
  let hay := (snprintf 128 hwid).map Char.toUpper
  snprintf 32 (chars "VID_" ++ upperHexWord vid) <:+: hay
    ∧ snprintf 32 (chars "PID_" ++ upperHexWord pid) <:+: hay

/-- The mode that the name of a service stands for. -/
def modeOf (service : List Char) : DongleDriverMode :=
  if sameText service (chars "WinUSB") ∨ sameText service (chars "WinUsb") then .winUsbStream
  else if sameText service (chars "BTHUSB") then .bthUsb
  else if service ≠ [] then .other
  else .notPresent

def detectDongleDriver (devs : List DeviceNode) (vid pid : UInt16) : DongleDriverStatus :=
  match devs.find? fun dev =>
      (strings dev.hardwareId.length dev.hardwareId).any (hwidMatches · vid pid) with
  | none => {}
  | some dev =>
      let name := multiSzFirst dev.friendlyName
      let service := multiSzFirst dev.service
      { mode := modeOf service
        service := service
        deviceName := if name = [] then multiSzFirst dev.deviceDesc else name
        instanceId := multiSzFirst dev.instanceId }

/-! ### What Windows registers -/

/-- The data of a `REG_MULTI_SZ` with some strings. -/
def multiSz (ss : List (List Char)) : List Char :=
  ss.flatMap (· ++ ['\x00']) ++ ['\x00']

/-- A string that can be in a `REG_MULTI_SZ`. -/
def Registrable (s : List Char) : Prop :=
  s ≠ [] ∧ '\x00' ∉ s

/-- A hardware identifier: one of USB, with a revision and an interface perhaps, or one that no
vendor of USB is named in. -/
inductive HardwareId where
  | usb (vid pid : UInt16) (revision : Option UInt16) (interface : Option UInt8)
  | foreign (text : List Char) (registrable : Registrable text)
      (unnamed : ¬ chars "VID_" <:+: text.map Char.toUpper)

namespace HardwareId

/-! The names of the numbers. -/

def usbVid : List Char := chars "USB\\VID_"

def andPid : List Char := chars "&PID_"

def andRev : List Char := chars "&REV_"

def andMi : List Char := chars "&MI_"

/-- What follows the product. -/
def more (revision : Option UInt16) (interface : Option UInt8) : List Char :=
  (revision.elim [] fun r => andRev ++ upperHexWord r)
  ++ (interface.elim [] fun i => andMi ++ (Scan.hexByte i).map Char.toUpper)

def text : HardwareId → List Char
  | usb vid pid revision interface =>
      usbVid ++ upperHexWord vid ++ andPid ++ upperHexWord pid ++ more revision interface
  | foreign text _ _ => text

/-- The identifier names a vendor and a product. -/
def names (vid pid : UInt16) : HardwareId → Prop
  | usb vid' pid' _ _ => vid' = vid ∧ pid' = pid
  | foreign _ _ _ => False

instance (vid pid : UInt16) : DecidablePred (names vid pid)
  | usb vid' pid' _ _ => inferInstanceAs (Decidable (vid' = vid ∧ pid' = pid))
  | foreign _ _ _ => inferInstanceAs (Decidable False)

end HardwareId

namespace HardwareId

variable {vid pid vid' pid' : UInt16} {revision : Option UInt16} {interface : Option UInt8}

end HardwareId

/-! ### Detection -/

/-- A string that the registry can hold and that is not skipped. -/
def Value : Type :=
  { s : List Char // Registrable s ∧ sameText s (chars "ROOT\\*PNP0X01") = false }

/-- The data of a property, with the zero at its end. -/
def Value.data (v : Option Value) : List Char :=
  v.elim [] fun v => v.val ++ ['\x00']

/-- A property that is missing is read as the empty text. -/
def Value.text (v : Option Value) : List Char :=
  v.elim [] Subtype.val

/-- What Windows holds of a node. -/
structure Registered where
  ids : List HardwareId
  instanceId : Option Value
  friendlyName : Option Value
  deviceDesc : Option Value
  service : Option Value

namespace Registered

/-- The node as it is read. -/
def node (r : Registered) : DeviceNode where
  hardwareId := multiSz (r.ids.map HardwareId.text)
  instanceId := Value.data r.instanceId
  friendlyName := Value.data r.friendlyName
  deviceDesc := Value.data r.deviceDesc
  service := Value.data r.service

/-- The status of the node. -/
def status (r : Registered) : DongleDriverStatus where
  mode := modeOf (Value.text r.service)
  service := Value.text r.service
  deviceName := Value.text (if r.friendlyName.isSome then r.friendlyName else r.deviceDesc)
  instanceId := Value.text r.instanceId

end Registered

end Ssc.Driver
