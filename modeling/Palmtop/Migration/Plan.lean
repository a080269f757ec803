import Palmtop.Settings.ArchivePath

/-! # Plans

What a migration is to do: which device to back up, into which archive, and how to restore it.  The
destination may be left open; then the user is asked for it.
-/
namespace Palmtop.Migration

/-- A migration to be run. -/
structure Plan where
  source : DeviceInfo
  /-- The device to restore into, if it is known beforehand. -/
  destination : Option DeviceInfo := none
  archivePath : Path
  writeMode : WriteMode := .eraseAll
  /-- Records between two progress reports. -/
  blockSize : Nat := 25
  blockSize_pos : 0 < blockSize := by decide

namespace Plan

/-- The plan with another block size; zero stands for one. -/
def withBlockSize (p : Plan) (n : Nat) : Plan :=
  { p with blockSize := max n 1, blockSize_pos := by omega }

/-- The plan a user's settings make at `time`. -/
def ofSettings (source : DeviceInfo) (settings : Settings) (time : Timestamp) : Plan :=
  let plan : Plan :=
    { source, archivePath := settings.archivePath source time, writeMode := settings.writeMode }
  plan.withBlockSize settings.blockSize.toNat

end Plan

end Palmtop.Migration
