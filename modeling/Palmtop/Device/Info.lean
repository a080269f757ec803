import Palmtop.Text.Fields

/-! # Devices as the user knows them

A device found on the bus is known by its PIN; the name its owner gave it, possibly empty, is only
shown.
-/
namespace Palmtop

/-- The identity of a device. -/
abbrev Pin := UInt32

/-- A device found on the bus. -/
structure DeviceInfo where
  pin : Pin
  name : String
  deriving DecidableEq

namespace DeviceInfo

/-- The PIN, and the name in brackets unless it is empty. -/
def label (info : DeviceInfo) : String :=
  if info.name.isEmpty then Text.hex8 info.pin.toNat
  else s!"{Text.hex8 info.pin.toNat} ({info.name})"

/-- The form for diagnosis. -/
def shown (info : DeviceInfo) : Text.Shown :=
  .block "DeviceInfo" [("pin", .number info.pin.toNat), ("name", .text info.name)] false

end DeviceInfo

end Palmtop
