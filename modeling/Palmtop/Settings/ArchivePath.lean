import Palmtop.Settings.Basic

/-! # Names of archives

The archive of a device taken at some second is named for the PIN and the second, so that two
archives have one name only if both agree.  The name a device was given by its owner does not
matter.
-/
namespace Palmtop

/-- A second of a calendar, years counting from -9999 to 9999. -/
structure Timestamp where
  year : Int
  month : Nat
  day : Nat
  hour : Nat
  minute : Nat
  second : Nat
  year_ge : -9999 ≤ year
  year_le : year ≤ 9999
  month_le : month ≤ 12
  day_le : day ≤ 31
  hour_lt : hour < 24
  minute_lt : minute < 60
  second_lt : second < 60

namespace Timestamp

/-- The timestamp of these parts, if each is in its range. -/
def ofParts? (year : Int) (month day hour minute second : Nat) : Option Timestamp :=
  if h : -9999 ≤ year ∧ year ≤ 9999 ∧ month ≤ 12 ∧ day ≤ 31 ∧ hour < 24 ∧ minute < 60 ∧
      second < 60 then
    some ⟨year, month, day, hour, minute, second, h.1, h.2.1, h.2.2.1, h.2.2.2.1, h.2.2.2.2.1,
      h.2.2.2.2.2.1, h.2.2.2.2.2.2⟩
  else none

/-- A year in four places, the minus sign taking up one of them. -/
def yearText (year : Int) : List Char :=
  if year < 0 then '-' :: Text.padded 10 3 year.natAbs else Text.padded 10 4 year.natAbs

/-- Day and time in digits, with a dash between them. -/
def compact (t : Timestamp) : String :=
  let two := Text.padded 10 2
  String.ofList (yearText t.year ++ two t.month ++ two t.day ++ '-' :: two t.hour ++ two t.minute ++
    two t.second)

end Timestamp

namespace Settings

/-- The file name of an archive. -/
def archiveName (compression : Archive.Compression) (pin : Pin) (time : Timestamp) : String :=
  s!"{Text.hex8 pin.toNat}-{time.compact}.{compression.extension}"

/-- The path of the archive of a device taken at `time`. -/
def archivePath (s : Settings) (info : DeviceInfo) (time : Timestamp) : Path :=
  s.archiveDir.join (archiveName s.compression info.pin time)

end Settings

end Palmtop
