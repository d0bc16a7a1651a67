import SscOnWindows.Transport.LinkKeyDb

/-!
# Addresses of devices

An address is its six bytes in the order of its text.  The code keeps some of them in the
opposite order.
-/

namespace Ssc

/-- `BtDeviceDiscovery::format_address`, and the same `snprintf` in the scan. -/
def formatAddress (addr : List UInt8) : List Char :=
  List.intercalate [':'] (addr.map upperHexByte)

/-- `BtDeviceDiscovery::parse_address`, and the same `sscanf` in the load of the saved devices. -/
def parseAddress (str : List Char) : Option (List UInt8) :=
  (Scan.hexFields ':' 2 6 (Scan.cString str)).map
    (·.map fun value => UInt8.ofNat (value % 256).toNat)

example : parseAddress "1:Ab:03:04:05:ff".toList = some [0x01, 0xAB, 3, 4, 5, 0xFF] := by decide

end Ssc
